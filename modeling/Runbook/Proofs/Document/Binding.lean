import Runbook.Proofs.Document.Attachment
import Runbook.Proofs.Plan.Directives

/-!
Which directives a block of code gets: those of the directive comments in a row right above it, all of them and in their
order, whatever else stands among its siblings. What they say is merged into its envelope.
-/
namespace Runbook

variable {as : List Artifact} {pending ds ds' : List Directive} {ns xs ys : List Node} {n m : Node} {d : Directive}
  {i j k i' j' : Nat} {data : Fields Value} {value : Text} {line : Option Int} {lang info : Option Text}

namespace Classification

/-- Parameters of several directives are merged in their order, an inline value first under the name of its directive. -/
theorem mergeAll_paramsOf (ds : List Directive) : mergeAll (ds.map paramsOf) =
    Fields.merge [] (ds.flatMap fun d => Fields.opt d.name (d.value.map .text) ++ d.params) := by
  rw [mergeAll_eq]
  generalize ([] : Fields Value) = es
  induction ds generalizing es with
  | nil => rfl
  | cons d ds ih =>
    have hd : Fields.merge es (paramsOf d) = Fields.merge es (Fields.opt d.name (d.value.map .text) ++ d.params) := by
      rw [paramsOf]
      cases d.value with
      | none => rfl
      | some v =>
        have hone : (Fields.keys (Fields.one d.name (Value.text v))).Nodup := List.nodup_singleton _
        dsimp only
        rw [Fields.merge_assoc hone, Fields.merge_append]
        rfl
    rw [List.map_cons, List.flatten_cons, List.flatMap_cons, Fields.merge_append, Fields.merge_append, hd, ih]

end Classification

namespace Envelope

/-- The entries that an envelope in the data has already. -/
def earlier (data : Fields Value) : Fields Value :=
  match Fields.get? key data with
  | some (.map old) => Value.textEntries old
  | _ => []

theorem store_eq (es data : Fields Value) :
    store es data = Fields.put key (.ofFields (Fields.merge es (earlier data))) data := by
  unfold store earlier
  generalize Fields.get? key data = old
  cases old with
  | none => rfl
  | some v => cases v <;> rfl

/-- Of an entry of a new envelope the earlier one is kept. -/
theorem get?_store (name : Text) (es data : Fields Value) :
    (Fields.get? key (store es data)).bind (Value.get? name) =
      (Fields.last? name (earlier data)).or (Fields.get? name es) := by
  rw [store_eq, Fields.get?_put, if_pos rfl, Option.bind_some, ← Fields.get?_merge]
  generalize Fields.merge es (earlier data) = new
  induction new with
  | nil => rfl
  | cons e new ih =>
    rw [Fields.get?, ← ih]
    rfl

theorem get?_directives (artifact : Option Artifact) (ds : List Directive) (hidden : Bool) :
    Fields.get? "directives" (ofBlock artifact ds hidden).toFields = some (.list (ds.map fun d => .text d.raw)) := by
  simp [toFields, ofBlock, Fields.get?, Fields.one]

theorem get?_metadata (artifact : Option Artifact) (ds : List Directive) (hidden : Bool) :
    Fields.get? "metadata" (ofBlock artifact ds hidden).toFields = some (.ofFields
      (Fields.merge [] (ds.flatMap fun d => Fields.opt d.name (d.value.map .text) ++ d.params))) := by
  rw [← Classification.mergeAll_paramsOf]
  simp [toFields, ofBlock, Fields.get?, Fields.one]

end Envelope

namespace Node

/-! Directives that wait -/

/-- The directives that wait when some nodes are passed. -/
def waiting (pending : List Directive) : List Node → List Directive
  | [] => pending
  | n :: ns =>
    match n.directive? with
    | .ok (some d) => waiting (pending ++ [d]) ns
    | _ => waiting [] ns

theorem waiting_concat_of_directive (h : n.directive? = .ok (some d)) (pending : List Directive) (xs : List Node) :
    waiting pending (xs ++ [n]) = waiting pending xs ++ [d] := by
  induction xs generalizing pending with
  | nil => simp [waiting, h]
  | cons m xs ih =>
    rw [List.cons_append, waiting, waiting]
    split <;> exact ih _

theorem waiting_concat_of_other (h : ∀ d, n.directive? ≠ .ok (some d)) (pending : List Directive) (xs : List Node) :
    waiting pending (xs ++ [n]) = [] := by
  induction xs generalizing pending with
  | nil =>
    rw [List.nil_append, waiting]
    split
    · exact (h _ ‹_›).elim
    · rfl
  | cons m xs ih =>
    rw [List.cons_append, waiting]
    split <;> exact ih _

/-- The directive comments from child `j` on are the longest row of them right above child `i`, and they hold these
directives. -/
structure IsRun (ns : List Node) (j i : Nat) (ds : List Directive) : Prop where
  le : j ≤ i
  read : ((ns.take i).drop j).map directive? = ds.map fun d => .ok (some d)
  longest : ∀ m ∈ (ns.take j).getLast?, ∀ d, m.directive? ≠ .ok (some d)

/-- The directives that wait are those of the longest row of directive comments. -/
theorem exists_run_waiting (xs : List Node) : ∃ before run, xs = before ++ run ∧
    run.map directive? = (waiting [] xs).map (fun d => .ok (some d)) ∧
      ∀ m ∈ before.getLast?, ∀ d, m.directive? ≠ .ok (some d) := by
  induction xs using List.reverseRecOn with
  | nil => exact ⟨[], [], rfl, rfl, by simp⟩
  | append_singleton xs n ih =>
    by_cases hn : ∃ d, n.directive? = .ok (some d)
    · obtain ⟨d, hd⟩ := hn
      obtain ⟨before, run, rfl, hread, hlongest⟩ := ih
      refine ⟨before, run ++ [n], by simp, ?_, hlongest⟩
      rw [waiting_concat_of_directive hd, List.map_append, hread, List.map_append, List.map_singleton, hd]
      rfl
    · refine ⟨xs ++ [n], [], by simp, ?_, ?_⟩
      · rw [waiting_concat_of_other fun d hd => hn ⟨d, hd⟩]
        rfl
      · intro m hm d hd
        obtain rfl : n = m := by simpa using hm
        exact hn ⟨d, hd⟩

theorem exists_isRun (ns : List Node) (i : Nat) : ∃ j, IsRun ns j i (waiting [] (ns.take i)) := by
  obtain ⟨before, run, heq, hread, hlongest⟩ := exists_run_waiting (ns.take i)
  have hle : before.length ≤ i := by
    have hlen := congrArg List.length heq
    rw [List.length_take, List.length_append] at hlen
    omega
  have hbefore : ns.take before.length = before := by
    have htake := congrArg (List.take before.length) heq
    rwa [List.take_take, min_eq_left hle, List.take_left] at htake
  have hrun : (ns.take i).drop before.length = run := by rw [heq, List.drop_left]
  refine ⟨before.length, hle, ?_, ?_⟩
  · rw [hrun]
    exact hread
  · rw [hbefore]
    exact hlongest

/-! The walk -/

theorem length_leftByAll (as : List Artifact) (pending : List Directive) (ns : List Node) :
    (leftByAll as pending ns).1.length = ns.length := by
  induction ns generalizing pending with
  | nil => rfl
  | cons n ns ih =>
    rw [leftByAll]
    split
    · rfl
    · rw [List.length_cons, List.length_cons, ih]
    · split
      · rfl
      · rw [List.length_cons, List.length_cons, ih]

/-- A walk over some nodes and then others stops at the first fault, and what waits after the first nodes waits for the
others. -/
theorem leftByAll_append (as : List Artifact) (pending : List Directive) (xs ys : List Node) :
    (leftByAll as pending (xs ++ ys)).2 =
        (leftByAll as pending xs).2.or (leftByAll as (waiting pending xs) ys).2 ∧
      ((leftByAll as pending xs).2 = none → (leftByAll as pending (xs ++ ys)).1 =
        (leftByAll as pending xs).1 ++ (leftByAll as (waiting pending xs) ys).1) := by
  induction xs generalizing pending with
  | nil => exact ⟨rfl, fun _ => rfl⟩
  | cons n xs ih =>
    rw [List.cons_append, leftByAll, leftByAll, waiting]
    cases n.directive? with
    | error e => exact ⟨rfl, nofun⟩
    | ok read =>
      cases read with
      | some d =>
        obtain ⟨hfault, hleft⟩ := ih (pending ++ [d])
        exact ⟨hfault, fun h => congrArg (n :: ·) (hleft h)⟩
      | none =>
        dsimp only
        rcases leftBy as pending n with ⟨left, _ | e⟩
        · obtain ⟨hfault, hleft⟩ := ih []
          exact ⟨hfault, fun h => congrArg (left :: ·) (hleft h)⟩
        · exact ⟨rfl, nofun⟩

/-- Child `i` is a block of code. -/
def IsCodeAt (ns : List Node) (i : Nat) : Prop := ∃ n, ns[i]? = some n ∧ ∃ lang info value, n.kind = .code lang info value

/-- The walk over some siblings meets no fault before child `i`. -/
def Reaches (as : List Artifact) (ns : List Node) (i : Nat) : Prop := (leftByAll as [] (ns.take i)).2 = none

theorem reaches_of_annotatedAll {ns' : List Node} (h : annotatedAll as [] ns = .ok ns') :
    ns' = (leftByAll as [] ns).1 ∧ ∀ i, Reaches as ns i := by
  rw [annotatedAll_eq, ended_eq_ok_iff] at h
  refine ⟨by rw [h], fun i => ?_⟩
  obtain ⟨hfault, -⟩ := leftByAll_append as [] (ns.take i) (ns.drop i)
  rw [List.take_append_drop, h] at hfault
  exact (Option.or_eq_none_iff.mp hfault.symm).1

theorem directive?_of_not_html (h : ∀ v, n.kind ≠ .html v) : n.directive? = .ok none := by
  cases hbody : n.commentBody? with
  | none => rw [directive?, hbody]
  | some body =>
    obtain ⟨v, hv, -⟩ := commentBody?_eq_some hbody
    exact (h v hv).elim

theorem leftBy_html {v : Text} (h : n.kind = .html v) (as : List Artifact) (pending : List Directive) :
    leftBy as pending n = (n, none) := by
  obtain ⟨kind, position, data, children⟩ := n
  obtain rfl : kind = .html v := h
  rfl

/-- Whatever the first node is, it is left as what waits makes it. -/
theorem head?_leftByAll (as : List Artifact) (pending : List Directive) (n : Node) (ns : List Node) :
    (leftByAll as pending (n :: ns)).1.head? = some (leftBy as pending n).1 := by
  rw [leftByAll]
  by_cases hhtml : ∃ v, n.kind = .html v
  · obtain ⟨v, hv⟩ := hhtml
    rw [leftBy_html hv]
    split <;> rfl
  · rw [directive?_of_not_html fun v hv => hhtml ⟨v, hv⟩]
    dsimp only
    rcases leftBy as pending n with ⟨left, _ | e⟩ <;> rfl

/-- A child that the walk gets to is left as what waits before it makes it. -/
theorem getElem?_leftByAll (hreach : Reaches as ns i) (hn : ns[i]? = some n) :
    (leftByAll as [] ns).1[i]? = some (leftBy as (waiting [] (ns.take i)) n).1 := by
  obtain ⟨hlt, hget⟩ := List.getElem?_eq_some_iff.mp hn
  obtain ⟨-, hleft⟩ := leftByAll_append as [] (ns.take i) (ns.drop i)
  have hlen : (leftByAll as [] (ns.take i)).1.length = i := by
    rw [length_leftByAll, List.length_take, min_eq_left hlt.le]
  have hdrop : ns.drop i = n :: ns.drop (i + 1) := by rw [List.drop_eq_getElem_cons hlt, hget]
  rw [List.take_append_drop, hdrop] at hleft
  rw [hleft hreach, List.getElem?_append_right hlen.le, hlen, Nat.sub_self, ← List.head?_eq_getElem?,
    head?_leftByAll]

/-- What waits is given to blocks of code only. -/
theorem leftBy_of_not_code (h : ∀ lang info value, n.kind ≠ .code lang info value) (as : List Artifact)
    (pending : List Directive) : leftBy as pending n = leftBy as [] n := by
  obtain ⟨kind, position, data, children⟩ := n
  have hdata : ∀ line, dataBy as pending line kind data = dataBy as [] line kind data := by
    intro line
    unfold dataBy
    split
    · exact (h _ _ _ rfl).elim
    · rfl
    · rfl
  rw [leftBy, leftBy, hdata]

/-! What is written -/

/-- The envelope of a node. -/
def envelope? (n : Node) : Option Value := Fields.get? Envelope.key n.data

/-- There is nothing to say of a block of code: no directive, no artifact on its line, and nothing hidden in it. -/
def IsSilent (as : List Artifact) (ds : List Directive) (line : Option Int) (value : Text) : Prop :=
  ds = [] ∧ (∀ l ∈ line, ∀ a ∈ as, a.line ≠ some l) ∧ HiddenRun.all value = []

theorem artifactAt_eq_none_iff : artifactAt as line = none ↔ ∀ l ∈ line, ∀ a ∈ as, a.line ≠ some l := by
  cases line with
  | none => simp [artifactAt]
  | some l => simp [artifactAt]

theorem codeData_of_silent (h : IsSilent as ds line value) (data : Fields Value) :
    codeData as ds line value data = data := by
  obtain ⟨rfl, hartifact, hhidden⟩ := h
  rw [codeData, artifactAt_eq_none_iff.mpr hartifact, hhidden]
  rfl

theorem codeData_of_not_silent (h : ¬ IsSilent as ds line value) (data : Fields Value) :
    codeData as ds line value data =
      Envelope.store (Envelope.ofBlock (artifactAt as line) ds !(HiddenRun.all value).isEmpty).toFields data := by
  apply if_neg
  rintro ⟨hartifact, hds, hhidden⟩
  refine h ⟨List.isEmpty_iff.mp hds, artifactAt_eq_none_iff.mp (Option.isNone_iff_eq_none.mp hartifact), ?_⟩
  simpa using hhidden

theorem earlier_of_envelope?_none (h : n.envelope? = none) : Envelope.earlier n.data = [] := by
  rw [envelope?] at h
  rw [Envelope.earlier, h]

/-- An entry in the envelope of a node. -/
def field? (name : Text) (n : Node) : Option Value := n.envelope?.bind (Value.get? name)

theorem attached_eq (n : Node) : n.attached = match n.field? "directives" with
    | some (.list ds) => ds
    | _ => [] := rfl

/-- What directives do to a block of code: it is left alone if there is nothing to say of it. Otherwise its envelope has the
texts of the directives and what they set, the last of it under each name, but where it had other entries before. -/
structure Bears (as : List Artifact) (ds : List Directive) (value : Text) (n n' : Node) : Prop where
  rest : n'.kind = n.kind ∧ n'.position = n.position ∧ n'.children = n.children
  silent : IsSilent as ds n.line? value → n'.data = n.data
  absent : n'.envelope? = none ↔ n.envelope? = none ∧ IsSilent as ds n.line? value
  attached : n.envelope? = none → n'.attached = ds.map fun d => .text d.raw
  directives : ¬ IsSilent as ds n.line? value → n'.field? "directives" =
    (Fields.last? "directives" (Envelope.earlier n.data)).or (some (.list (ds.map fun d => .text d.raw)))
  metadata : ¬ IsSilent as ds n.line? value → n'.field? "metadata" =
    (Fields.last? "metadata" (Envelope.earlier n.data)).or
      (some (.ofFields (Fields.merge [] (ds.flatMap fun d => Fields.opt d.name (d.value.map .text) ++ d.params))))

theorem bears_leftBy (hn : n.kind = .code lang info value) (as : List Artifact) (ds : List Directive) :
    Bears as ds value n (leftBy as ds n).1 := by
  obtain ⟨kind, position, data, children⟩ := n
  obtain rfl : kind = .code lang info value := hn
  have hdata : (leftBy as ds (.mk (.code lang info value) position data children)).1.data =
      codeData as ds (position.map (·.start.line)) value data := rfl
  have hrest : (leftBy as ds (.mk (.code lang info value) position data children)).1.kind = .code lang info value ∧
      (leftBy as ds (.mk (.code lang info value) position data children)).1.position = position ∧
      (leftBy as ds (.mk (.code lang info value) position data children)).1.children = children := ⟨rfl, rfl, rfl⟩
  generalize (leftBy as ds (.mk (.code lang info value) position data children)).1 = n' at hdata hrest ⊢
  by_cases hsilent : IsSilent as ds (position.map (·.start.line)) value
  · rw [codeData_of_silent hsilent] at hdata
    have henvelope : n'.envelope? = Fields.get? Envelope.key data := by rw [envelope?, hdata]
    refine ⟨hrest, fun _ => hdata, ?_, fun hnone => ?_, fun h => (h hsilent).elim, fun h => (h hsilent).elim⟩
    · rw [henvelope]
      exact (and_iff_left hsilent).symm
    · rw [attached_eq, field?, henvelope, show Fields.get? Envelope.key data = none from hnone, hsilent.1]
      rfl
  · rw [codeData_of_not_silent hsilent] at hdata
    have hfield : ∀ name, n'.field? name = (Fields.last? name (Envelope.earlier data)).or (Fields.get? name
        (Envelope.ofBlock (artifactAt as (position.map (·.start.line))) ds !(HiddenRun.all value).isEmpty).toFields) := by
      intro name
      rw [field?, envelope?, hdata, Envelope.get?_store]
    have hdirectives := hfield "directives"
    have hmetadata := hfield "metadata"
    rw [Envelope.get?_directives] at hdirectives
    rw [Envelope.get?_metadata] at hmetadata
    refine ⟨hrest, fun h => (hsilent h).elim, ?_, fun hnone => ?_, fun _ => hdirectives, fun _ => hmetadata⟩
    · rw [envelope?, hdata, Envelope.store_eq, Fields.get?_put, if_pos rfl]
      exact iff_of_false nofun fun h => hsilent h.2
    · have hearlier : Envelope.earlier data = [] := earlier_of_envelope?_none hnone
      rw [attached_eq, hdirectives, hearlier]
      rfl

/-! Comments of directives -/

/-- The text of a comment node. -/
def comment (n : Node) : Text :=
  match n.kind with
  | .html v => v.strip
  | _ => []

theorem raw_of_directive? (h : n.directive? = .ok (some d)) : d.raw = n.comment := by
  rw [directive?] at h
  split at h
  · rename_i body hbody
    obtain ⟨v, hv, hempty | hraw⟩ := commentBody?_eq_some hbody
    · obtain ⟨c, hc, -⟩ := Directive.head_of_ofComment h
      rw [hempty] at hc
      cases hc
    · rw [(Directive.raw_of_ofComment h).1, hraw, comment, hv]
  · cases h

theorem raws_of_read (h : xs.map directive? = ds.map fun d => .ok (some d)) : ds.map (·.raw) = xs.map comment := by
  induction xs generalizing ds with
  | nil =>
    obtain rfl := List.map_eq_nil_iff.mp h.symm
    rfl
  | cons n xs ih =>
    cases ds with
    | nil => cases h
    | cons d ds =>
      obtain ⟨hn, hxs⟩ := List.cons.inj h
      rw [List.map_cons, List.map_cons, ih hxs, raw_of_directive? hn]

theorem IsRun.directive? (h : IsRun ns j i ds) (hj : j ≤ k) (hk : k < i) (hn : ns[k]? = some n) :
    ∃ d, n.directive? = .ok (some d) := by
  have hmem : n ∈ (ns.take i).drop j := by
    apply List.mem_of_getElem? (i := k - j)
    rw [List.getElem?_drop, Nat.add_sub_cancel' hj, List.getElem?_take_of_lt hk, hn]
  have hread := List.mem_map_of_mem (f := Node.directive?) hmem
  rw [h.read] at hread
  obtain ⟨d, -, hd⟩ := List.mem_map.mp hread
  exact ⟨d, hd.symm⟩

/-- A block of code ends every row of directive comments, so none goes on behind one. -/
theorem IsRun.le_of_code (h : IsRun ns j i ds) (hn : ns[i']? = some n) (hcode : n.kind = .code lang info value)
    (hj : j ≤ k) (hk : k < i') : i ≤ i' := by
  by_contra hlt
  obtain ⟨d, hd⟩ := h.directive? (by omega) (by omega) hn
  rw [directive?_of_not_html (by rw [hcode]; nofun)] at hd
  cases hd

/-- The walk over siblings gives to each block of code the directives of the longest row of directive comments right above
it, and to no other node any. No comment is in the rows of two blocks. If the walk returns it gets to all siblings. -/
theorem leftByAll_binds (as : List Artifact) (ns : List Node) :
    (∀ i n lang info value, ns[i]? = some n → n.kind = .code lang info value → Reaches as ns i →
      ∃ j ds n', IsRun ns j i ds ∧ ds.map (·.raw) = ((ns.take i).drop j).map comment ∧
        (leftByAll as [] ns).1[i]? = some n' ∧ Bears as ds value n n') ∧
    (∀ i n, ns[i]? = some n → (∀ lang info value, n.kind ≠ .code lang info value) → Reaches as ns i →
      (leftByAll as [] ns).1[i]? = some (leftBy as [] n).1) ∧
    (∀ j i ds j' i' ds' k, IsRun ns j i ds → IsRun ns j' i' ds' → IsCodeAt ns i → IsCodeAt ns i' →
      j ≤ k → k < i → j' ≤ k → k < i' → i = i') ∧
    ∀ ns', annotatedAll as [] ns = .ok ns' → ns' = (leftByAll as [] ns).1 ∧ ∀ i, Reaches as ns i := by
  refine ⟨?_, ?_, ?_, fun ns' h => reaches_of_annotatedAll h⟩
  · intro i n lang info value hn hcode hreach
    obtain ⟨j, hrun⟩ := exists_isRun ns i
    exact ⟨j, _, _, hrun, raws_of_read hrun.read, getElem?_leftByAll hreach hn, bears_leftBy hcode as _⟩
  · intro i n hn hother hreach
    rw [getElem?_leftByAll hreach hn, leftBy_of_not_code hother]
  · rintro j i ds j' i' ds' k hrun hrun' ⟨n, hn, lang, info, value, hcode⟩ ⟨n', hn', lang', info', value', hcode'⟩
      hj hk hj' hk'
    have hle := hrun.le_of_code hn' hcode' hj hk'
    have hge := hrun'.le_of_code hn hcode hj' hk
    omega

/-- Two directives above a script, and one that a comment without a directive parts from the next script. -/
def taggedScripts : List Node := [
  .mk (.html "<!-- polyglot:a=1 x=2 -->") (some (.lines 1)) [] [],
  .mk (.html " <!-- kyozo:\x7b\"x\":3\x7d -->") (some (.lines 2)) [] [],
  .mk (.code none none "echo") (some (.lines 3)) [] [],
  .mk (.html "<!-- polyglot:b -->") (some (.lines 6)) [] [],
  .mk (.html "<!-- note -->") (some (.lines 7)) [] [],
  .mk (.code none none "ls") (some (.lines 8)) [] []]

theorem leftByAll_binds_taggedScripts : ∃ ns', annotatedAll [] [] taggedScripts = .ok ns' ∧
    (ns'.map fun n => n.attached.map Value.toText) =
      [[], [], Text.ofStrings ["<!-- polyglot:a=1 x=2 -->", "<!-- kyozo:\x7b\"x\":3\x7d -->"], [], [], []] ∧
    ∃ j ds n', IsRun taggedScripts j 2 ds ∧ ns'[2]? = some n' ∧
      n'.attached = ((taggedScripts.take 2).drop j).map fun m => .text m.comment := by
  have hread : (annotatedAll [] [] taggedScripts).toOption.map (·.map fun n => n.attached.map Value.toText) =
      some [[], [], Text.ofStrings ["<!-- polyglot:a=1 x=2 -->", "<!-- kyozo:\x7b\"x\":3\x7d -->"], [], [], []] := by
    decide +kernel
  cases hall : annotatedAll [] [] taggedScripts with
  | error e =>
    rw [hall] at hread
    cases hread
  | ok ns' =>
    rw [hall] at hread
    obtain ⟨hcode, -, -, hreturns⟩ := leftByAll_binds [] taggedScripts
    obtain ⟨rfl, hreach⟩ := hreturns ns' hall
    obtain ⟨j, ds, n', hrun, hraws, hn', hbears⟩ := hcode 2 _ none none "echo" rfl rfl (hreach 2)
    refine ⟨_, rfl, Option.some.inj hread, j, ds, n', hrun, hn', ?_⟩
    have htexts := congrArg (List.map Value.text) hraws
    rw [List.map_map, List.map_map] at htexts
    rw [hbears.attached rfl]
    exact htexts

end Node
end Runbook
