import Runbook.Proofs.Value.Fields
import Runbook.Proofs.Document.Annotation

/-!
What annotation leaves as it is: all of a tree but the envelopes of the root, of blocks of code and of texts, also where a
fault stops it half way. A second annotation changes nothing.
-/
namespace Runbook

variable {α : Type} {es es' data : Fields Value} {c : Classification} {root root' : Node}

namespace Envelope

theorem nodup_keys_toFields (e : Envelope) : (Fields.keys e.toFields).Nodup := by
  cases ha : e.artifact <;> cases hl : e.location <;> simp [toFields, ha, hl, Fields.keys, Fields.one, Fields.opt]

theorem without_store (es data : Fields Value) : Fields.without key (store es data) = Fields.without key data := by
  unfold store
  split <;> exact Fields.without_put ..

theorem store_of_envelope (h : Fields.get? key data = some (.ofFields es')) (es : Fields Value) :
    store es data = Fields.put key (.ofFields (Fields.merge es es')) data := by
  rw [store, h, Value.ofFields]
  dsimp only
  rw [Value.textEntries_map]

/-- Entries that the envelope has already stay, and after the first time it has them all. -/
theorem store_store (h : (Fields.keys es).Nodup) (data : Fields Value) : store es (store es data) = store es data := by
  obtain ⟨new, hstore, hnew⟩ : ∃ new, store es data = Fields.put key (.ofFields new) data ∧ Fields.merge es new = new := by
    unfold store
    split
    · exact ⟨_, rfl, Fields.merge_merge h _⟩
    · exact ⟨es, rfl, Fields.merge_merge h []⟩
  have hget : Fields.get? key (store es data) = some (.ofFields new) := by rw [hstore, Fields.get?_put, if_pos rfl]
  rw [store_of_envelope hget, hnew, hstore, Fields.put_put]

end Envelope

namespace Node

theorem without_codeData (as : List Artifact) (pending : List Directive) (line : Option Int) (value : Text)
    (data : Fields Value) :
    Fields.without Envelope.key (codeData as pending line value data) = Fields.without Envelope.key data := by
  dsimp only [codeData]
  split
  · rfl
  · exact Envelope.without_store _ data

theorem codeData_codeData (as : List Artifact) (pending : List Directive) (line : Option Int) (value : Text)
    (data : Fields Value) :
    codeData as pending line value (codeData as pending line value data) = codeData as pending line value data := by
  dsimp only [codeData]
  split
  · rfl
  · exact Envelope.store_store (Envelope.nodup_keys_toFields _) data

theorem without_textData (value : Text) (data : Fields Value) :
    Fields.without Envelope.key (textData value data) = Fields.without Envelope.key data := by
  unfold textData
  split
  · rfl
  · exact Fields.without_put ..

theorem textData_textData (value : Text) (data : Fields Value) :
    textData value (textData value data) = textData value data := by
  unfold textData
  split
  · rfl
  · exact Fields.put_put ..

/-- The data of a node of the kind, with what annotation has to say of it. -/
def dataBy (as : List Artifact) (pending : List Directive) (line : Option Int) (kind : NodeKind) (data : Fields Value) :
    Fields Value :=
  match kind with
  | .code _ _ value => codeData as pending line value data
  | .text value => textData value data
  | _ => data

/-- The data of a node of the kind, without the envelope of a block of code or of a text. -/
def kept (kind : NodeKind) (data : Fields Value) : Fields Value :=
  match kind with
  | .code .. | .text _ => Fields.without Envelope.key data
  | _ => data

theorem kept_dataBy (as : List Artifact) (pending : List Directive) (line : Option Int) (kind : NodeKind)
    (data : Fields Value) : kept kind (dataBy as pending line kind data) = kept kind data := by
  cases kind with
  | code lang info value => exact without_codeData as pending line value data
  | text value => exact without_textData value data
  | _ => rfl

theorem dataBy_dataBy (as : List Artifact) (pending : List Directive) (line : Option Int) (kind : NodeKind)
    (data : Fields Value) :
    dataBy as pending line kind (dataBy as pending line kind data) = dataBy as pending line kind data := by
  cases kind with
  | code lang info value => exact codeData_codeData as pending line value data
  | text value => exact textData_textData value data
  | _ => rfl

/-! The tree in place -/

/-- The result of a walk that may be stopped by a fault, from what it leaves and the fault. -/
def ended : α × Option ReadFault → Except ReadFault α
  | (_, some e) => .error e
  | (a, none) => .ok a

theorem ended_eq_ok_iff {x : α × Option ReadFault} {a : α} : ended x = .ok a ↔ x = (a, none) := by
  obtain ⟨b, _ | e⟩ := x
  · simp [ended]
  · simp [ended]

mutual

/-- A node as it is left by its annotation in place, and the fault that stopped it. -/
def leftBy (as : List Artifact) (pending : List Directive) : Node → Node × Option ReadFault
  | .mk kind position data children =>
    let below := if kind.isParent then leftByAll as [] children else (children, none)
    (.mk kind position (dataBy as pending (position.map (·.start.line)) kind data) below.1, below.2)

/-- Nodes in order; those after a fault are not reached. -/
def leftByAll (as : List Artifact) (pending : List Directive) : List Node → List Node × Option ReadFault
  | [] => ([], none)
  | n :: ns =>
    match n.directive? with
    | .error e => (n :: ns, some e)
    | .ok (some d) =>
      let rest := leftByAll as (pending ++ [d]) ns
      (n :: rest.1, rest.2)
    | .ok none =>
      match leftBy as pending n with
      | (n, some e) => (n :: ns, some e)
      | (n, none) =>
        let rest := leftByAll as [] ns
        (n :: rest.1, rest.2)

end

/-- A root as it is left. Its own envelope is written last, so not at all after a fault. -/
def leftOf (c : Classification) : Node → Node × Option ReadFault
  | .mk kind position data children =>
    let envelope := Fields.one "language" (.text c.language.name) ++ Fields.one "metadata" (.ofFields c.metadata)
    match leftByAll c.artifacts [] children with
    | (children, some e) => (.mk kind position data children, some e)
    | (children, none) => (.mk kind position (Fields.put Envelope.key (.ofFields envelope) data) children, none)

mutual

theorem annotated_eq (as : List Artifact) (pending : List Directive) (n : Node) :
    annotated as pending n = ended (leftBy as pending n) := by
  match n with
  | .mk kind position data children =>
    unfold annotated leftBy
    split
    · rfl
    · rfl
    · rename_i hcode htext
      have hdata : dataBy as pending (position.map (·.start.line)) kind data = data := by
        unfold dataBy
        split
        · exact (hcode _ _ _ rfl).elim
        · exact (htext _ rfl).elim
        · rfl
      rw [hdata]
      split
      · rw [annotatedAll_eq as [] children]
        rcases leftByAll as [] children with ⟨ns, _ | e⟩ <;> rfl
      · rfl

theorem annotatedAll_eq (as : List Artifact) (pending : List Directive) (ns : List Node) :
    annotatedAll as pending ns = ended (leftByAll as pending ns) := by
  match ns with
  | [] => rfl
  | n :: ns =>
    rw [annotatedAll, leftByAll]
    cases n.directive? with
    | error e => rfl
    | ok d =>
      dsimp only [bind, Except.bind]
      cases d with
      | some d =>
        dsimp only
        rw [annotatedAll_eq as (pending ++ [d]) ns]
        rcases leftByAll as (pending ++ [d]) ns with ⟨ns, _ | e⟩ <;> rfl
      | none =>
        dsimp only
        rw [annotated_eq as pending n, annotatedAll_eq as [] ns]
        rcases leftBy as pending n with ⟨n, _ | e⟩
        · rcases leftByAll as [] ns with ⟨ns, _ | e⟩ <;> rfl
        · rfl

end

theorem annotate_eq (c : Classification) (root : Node) : root.annotate c = ended (leftOf c root) := by
  obtain ⟨kind, position, data, children⟩ := root
  rw [annotate, annotatedAll_eq, leftOf]
  rcases leftByAll c.artifacts [] children with ⟨ns, _ | e⟩ <;> rfl

theorem leftOf_of_annotate (h : root.annotate c = .ok root') : leftOf c root = (root', none) := by
  rwa [annotate_eq, ended_eq_ok_iff] at h

/-! What stays -/

mutual

/-- The node without the envelopes of blocks of code and of texts. -/
def plain : Node → Node
  | .mk kind position data children => .mk kind position (kept kind data) (plainAll children)

def plainAll : List Node → List Node
  | [] => []
  | n :: ns => n.plain :: plainAll ns

end

/-- The root without its own envelope and without those of blocks of code and of texts. -/
def undecorated : Node → Node
  | .mk kind position data children => .mk kind position (Fields.without Envelope.key data) (plainAll children)

mutual

theorem plain_leftBy (as : List Artifact) (pending : List Directive) (n : Node) :
    (leftBy as pending n).1.plain = n.plain := by
  match n with
  | .mk kind position data children =>
    rw [leftBy, plain, plain, kept_dataBy]
    split
    · rw [plainAll_leftByAll as [] children]
    · rfl

theorem plainAll_leftByAll (as : List Artifact) (pending : List Directive) (ns : List Node) :
    plainAll (leftByAll as pending ns).1 = plainAll ns := by
  match ns with
  | [] => rfl
  | n :: ns =>
    rw [leftByAll]
    split
    · rfl
    · rename_i d _
      rw [plainAll, plainAll, plainAll_leftByAll as (pending ++ [d]) ns]
    · have hn := plain_leftBy as pending n
      split
      all_goals
        rename_i hleft
        rw [hleft] at hn
      · rw [plainAll, plainAll, hn]
      · rw [plainAll, plainAll, hn, plainAll_leftByAll as [] ns]

end

theorem undecorated_leftOf (c : Classification) (root : Node) : (leftOf c root).1.undecorated = root.undecorated := by
  obtain ⟨kind, position, data, children⟩ := root
  have hall := plainAll_leftByAll c.artifacts [] children
  rw [leftOf]
  split
  all_goals
    rename_i hleft
    rw [hleft] at hall
  · rw [undecorated, undecorated, hall]
  · rw [undecorated, undecorated, hall, Fields.without_put]

theorem undecorated_annotate (h : root.annotate c = .ok root') : root'.undecorated = root.undecorated := by
  rw [← undecorated_leftOf c root, leftOf_of_annotate h]

/-! A second walk -/

/-- Annotation does not touch what makes a node a comment. -/
theorem directive?_leftBy (as : List Artifact) (pending : List Directive) (n : Node) :
    (leftBy as pending n).1.directive? = n.directive? := by
  obtain ⟨kind, position, data, children⟩ := n
  rfl

mutual

theorem leftBy_leftBy (as : List Artifact) (pending : List Directive) (n : Node) :
    leftBy as pending (leftBy as pending n).1 = leftBy as pending n := by
  match n with
  | .mk kind position data children =>
    rw [leftBy, leftBy, dataBy_dataBy]
    by_cases hkind : kind.isParent = true
    · rw [if_pos hkind, if_pos hkind, leftByAll_leftByAll as [] children]
    · rw [if_neg hkind, if_neg hkind]

theorem leftByAll_leftByAll (as : List Artifact) (pending : List Directive) (ns : List Node) :
    leftByAll as pending (leftByAll as pending ns).1 = leftByAll as pending ns := by
  match ns with
  | [] => rfl
  | n :: ns =>
    rw [leftByAll]
    split
    · rename_i e hread
      rw [leftByAll, hread]
    · rename_i d hread
      rw [leftByAll, hread]
      dsimp only
      rw [leftByAll_leftByAll as (pending ++ [d]) ns]
    · rename_i hread
      have hn := leftBy_leftBy as pending n
      have hsame := directive?_leftBy as pending n
      split
      all_goals
        rename_i hleft
        rw [hleft] at hn hsame
        rw [leftByAll, hsame, hread]
        dsimp only
        rw [hn]
      rw [leftByAll_leftByAll as [] ns]

end

theorem leftOf_leftOf (c : Classification) (root : Node) : leftOf c (leftOf c root).1 = leftOf c root := by
  obtain ⟨kind, position, data, children⟩ := root
  have hall := leftByAll_leftByAll c.artifacts [] children
  rw [leftOf]
  split
  all_goals
    rename_i hleft
    rw [hleft] at hall
    rw [leftOf, hall]
  rw [Fields.put_put]

/-- A directive above a block of code whose data has an envelope and one more entry, and a text with a hidden character. -/
def decoratedBefore : Node :=
  .mk .root none (Fields.one "note" .null) [
    .mk (.html "<!-- polyglot:executable -->") (some (.lines 1)) [] [],
    .mk (.code none none "echo") (some (.lines 2))
      (Fields.one Envelope.key (.ofFields (Fields.one "hidden" (.bool true))) ++ Fields.one "note" .null) [],
    .mk .paragraph none [] [.ofText "a\u200bb"]]

/-- A script is found in the block of code. -/
def scriptOnly : Classification := ⟨.executable, [{ kind := .executable, content := "echo", line := some 2 }], []⟩

/-- Of each node the keys in its data, whether it is flagged, and the directives in its envelope. -/
def decoration (root : Node) : List (List Text × Bool × List Text) :=
  root.subtree.map fun n => (Fields.keys n.data, n.isFlagged, n.attached.map Value.toText)

end Node
end Runbook
