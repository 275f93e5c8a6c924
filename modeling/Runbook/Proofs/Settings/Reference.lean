import Runbook.Proofs.Text.Search
import Runbook.Proofs.Text.Substitution
import Runbook.Settings.Substitution

/-!
References to variables in a text. The text is read once, from its first reference on, and what a reference is replaced by
is not read again. Of the references without a variable, the first one is the fault.
-/
namespace Runbook.Substitution

open Text (Silent Reads piecesFrom)

variable {environment : Fields Text} {t u p r name x : Text} {ns ms : List Text} {α β : Type}

/-! References in a text -/

/-- A reference as it is written. -/
def reference (name : Text) : Text := '$' :: '\x7b' :: (name ++ ['\x7d'])

/-- A name that can be referred to: it has a character, and ends with the first closing brace. -/
structure IsName (name : Text) : Prop where
  ne_nil : name ≠ []
  no_brace : '\x7d' ∉ name

/-- The text holds no reference. -/
def IsPlain (t : Text) : Prop := ∀ name, IsName name → ¬ reference name <:+: t

/-- The leftmost reference of a text, with what stands before it and after it. -/
structure IsFirst (t p name r : Text) : Prop where
  text : t = p ++ (reference name ++ r)
  isName : IsName name
  leftmost : ∀ p' name' r', IsName name' → t = p' ++ (reference name' ++ r') → p.length ≤ p'.length

/-- The names in the references of a text, from left to right; no reference overlaps the one before it. -/
inductive Names : Text → List Text → Prop
  | last {t : Text} (h : IsPlain t) : Names t []
  | next {t p name r : Text} {ns : List Text} (h : IsFirst t p name r) (rest : Names r ns) : Names t (name :: ns)

/-- A text with each of its references replaced by the value of the variable. -/
inductive Filled (environment : Fields Text) : Text → Text → Prop
  | last {t : Text} (h : IsPlain t) : Filled environment t t
  | next {t p name r x u : Text} (h : IsFirst t p name r) (hx : Fields.get? name environment = some x)
    (rest : Filled environment r u) : Filled environment t (p ++ (x ++ u))

theorem variableAt_reference (h : IsName name) (b : Option Char) (r : Text) :
    variableAt b (reference name ++ r) = some (name, name.length + 3) := by
  have hread : (name ++ ('\x7d' :: r)).takeWhile (· ≠ '\x7d') = name := by
    refine Text.takeWhile_run (fun c hc => ?_) (by rintro - ⟨⟩; simp)
    rw [decide_eq_true_iff]
    rintro rfl
    exact h.no_brace hc
  have htext : reference name ++ r = '$' :: '\x7b' :: (name ++ ('\x7d' :: r)) := by simp [reference]
  rw [htext, variableAt, hread, if_neg]
  rintro (hnil | hlength)
  · exact h.ne_nil hnil
  · simp at hlength

theorem exists_of_variableAt {n : Nat} (h : variableAt b t = some (name, n)) :
    IsName name ∧ ∃ r, t = reference name ++ r := by
  unfold variableAt at h
  split at h
  · rename_i rest
    dsimp only at h
    split at h
    · cases h
    · rename_i hread
      obtain ⟨hne, hlength⟩ := not_or.mp hread
      cases h
      obtain ⟨s, r, rfl, hs, hr⟩ := Text.exists_run (fun c => decide (c ≠ '\x7d')) rest
      rw [Text.takeWhile_run hs hr] at hne hlength ⊢
      refine ⟨⟨hne, fun hm => by simpa using hs _ hm⟩, ?_⟩
      cases r with
      | nil => simp at hlength
      | cons c r =>
        obtain rfl : c = '\x7d' := by simpa using hr c rfl
        exact ⟨r, by simp [reference]⟩
  · cases h

theorem reads_variableAt_iff : Reads variableAt b t ↔ ∃ s, (∃ name, IsName name ∧ s = reference name) ∧ s <+: t := by
  constructor
  · rintro ⟨name, n, h⟩
    obtain ⟨hname, r, rfl⟩ := exists_of_variableAt h
    exact ⟨_, ⟨name, hname, rfl⟩, List.prefix_append _ _⟩
  · rintro ⟨-, ⟨name, hname, rfl⟩, r, rfl⟩
    exact ⟨name, name.length + 2, variableAt_reference hname b r⟩

theorem silent_of_isPlain (h : IsPlain t) : Silent variableAt b t := by
  refine (Text.silent_iff_not_infix (fun b t => reads_variableAt_iff) ?_).mpr ?_
  · rintro - ⟨name, -, rfl⟩
    exact List.cons_ne_nil _ _
  · rintro - ⟨name, hname, rfl⟩
    exact h name hname

theorem IsFirst.tail {c : Char} (h : IsFirst (c :: t) (c :: p) name r) : IsFirst t p name r where
  text := (List.cons.inj h.text).2
  isName := h.isName
  leftmost := by
    rintro p' name' r' hname' rfl
    have hlength := h.leftmost (c :: p') name' r' hname' rfl
    simpa using hlength

/-- What stands before the first reference is kept, and reading goes on after the reference. -/
theorem IsFirst.piecesFrom_eq (h : IsFirst t p name r) (b : Option Char) :
    ∃ b', piecesFrom variableAt b 0 t = p.map .plain ++ .hit name (reference name) :: piecesFrom variableAt b' 0 r := by
  induction p generalizing t b with
  | nil =>
    obtain rfl : t = reference name ++ r := h.text
    have hlength : (reference name).length = name.length + 3 := by simp [reference]
    have hread : variableAt b (reference name ++ r) = some (name, (reference name).length) := by
      rw [hlength, variableAt_reference h.isName]
    rw [Text.piecesFrom_hit hread (List.cons_ne_nil _ _)]
    exact ⟨_, rfl⟩
  | cons c p ih =>
    obtain rfl : t = c :: (p ++ (reference name ++ r)) := h.text
    -- a reading here would lie before the first reference
    have hsilent : ∀ name' n, variableAt b (c :: (p ++ (reference name ++ r))) ≠ some (name', n) := by
      intro name' n hread
      obtain ⟨hname', r', ht⟩ := exists_of_variableAt hread
      have hlength := h.leftmost [] name' r' hname' ht
      simp at hlength
    obtain ⟨b', hrest⟩ := ih h.tail (some c)
    refine ⟨b', ?_⟩
    rw [piecesFrom]
    split
    · rename_i hread
      exact (hsilent _ _ hread).elim
    · rw [hrest]
      rfl

theorem isPlain_or_isFirst (t : Text) : IsPlain t ∨ ∃ p name r, IsFirst t p name r := by
  induction t with
  | nil =>
    left
    rintro name - hin
    exact List.cons_ne_nil _ _ (List.infix_nil.mp hin)
  | cons c t ih =>
    by_cases hstart : ∃ name r, IsName name ∧ c :: t = reference name ++ r
    · obtain ⟨name, r, hname, ht⟩ := hstart
      exact .inr ⟨[], name, r, ht, hname, fun _ _ _ _ _ => Nat.zero_le _⟩
    · rcases ih with hplain | ⟨p, name, r, hfirst⟩
      · left
        intro name hname hin
        rcases List.infix_cons_iff.mp hin with ⟨r, ht⟩ | hin
        · exact hstart ⟨name, r, hname, ht.symm⟩
        · exact hplain name hname hin
      · refine .inr ⟨c :: p, name, r, by rw [hfirst.text, List.cons_append], hfirst.isName, ?_⟩
        intro p' name' r' hname' ht
        cases p' with
        | nil => exact (hstart ⟨name', r', hname', ht⟩).elim
        | cons c' p' => exact Nat.succ_le_succ (hfirst.leftmost p' name' r' hname' (List.cons.inj ht).2)

theorem exists_names (t : Text) : ∃ ns, Names t ns := by
  induction hn : t.length using Nat.strong_induction_on generalizing t with
  | _ n ih =>
    rcases isPlain_or_isFirst t with hplain | ⟨p, name, r, hfirst⟩
    · exact ⟨[], .last hplain⟩
    · have hshort : r.length < n := by
        rw [← hn, hfirst.text]
        simp only [reference, List.length_append, List.length_cons]
        omega
      obtain ⟨ns, hns⟩ := ih r.length hshort r rfl
      exact ⟨name :: ns, .next hfirst hns⟩

/-! Steps that end with the first name that is not set -/

/-- The first of the names that no variable has. -/
def firstUnset (environment : Fields Text) (ns : List Text) : Option Text :=
  ns.find? fun name => (Fields.get? name environment).isNone

theorem firstUnset_eq_none_iff :
    firstUnset environment ns = none ↔ ∀ name ∈ ns, ∃ x, Fields.get? name environment = some x := by
  simp [firstUnset, Option.ne_none_iff_exists']

theorem firstUnset_append_cons (hbefore : ∀ n ∈ ns, ∃ x, Fields.get? n environment = some x)
    (hname : Fields.get? name environment = none) (ms : List Text) :
    firstUnset environment (ns ++ name :: ms) = some name := by
  have hnone := firstUnset_eq_none_iff.mpr hbefore
  have hfirst : firstUnset environment (name :: ms) = some name := List.find?_cons_of_pos (by simp [hname])
  rw [firstUnset] at hnone hfirst ⊢
  rw [List.find?_append, hnone, hfirst]
  rfl

/-- A step that refers to the names one after the other, and gives a result as described when all of them are set. -/
def Refers (environment : Fields Text) (ns : List Text) (step : Except Text α) (P : α → Prop) : Prop :=
  match firstUnset environment ns with
  | none => ∃ a, step = .ok a ∧ P a
  | some name => step = .error name

theorem refers_ok {P : α → Prop} {a : α} (h : P a) : Refers environment [] (.ok a) P := ⟨a, rfl, h⟩

theorem Refers.bind {step : Except Text α} {next : α → Except Text β} {P : α → Prop} {Q : β → Prop}
    (h : Refers environment ns step P) (hnext : ∀ a, P a → Refers environment ms (next a) Q) :
    Refers environment (ns ++ ms) (step >>= next) Q := by
  unfold Refers at h
  rw [Refers, firstUnset, List.find?_append]
  cases hn : firstUnset environment ns with
  | none =>
    rw [hn] at h
    obtain ⟨a, rfl, ha⟩ := h
    rw [firstUnset] at hn
    rw [hn]
    exact hnext a ha
  | some name =>
    rw [hn] at h
    rw [firstUnset] at hn
    rw [h, hn]
    rfl

theorem Refers.map {step : Except Text α} {f : α → β} {P : α → Prop} {Q : β → Prop}
    (h : Refers environment ns step P) (hf : ∀ a, P a → Q (f a)) : Refers environment ns (f <$> step) Q := by
  unfold Refers at h ⊢
  cases hn : firstUnset environment ns with
  | none =>
    rw [hn] at h
    obtain ⟨a, rfl, ha⟩ := h
    exact ⟨f a, rfl, hf a ha⟩
  | some name =>
    rw [hn] at h
    rw [h]
    rfl

theorem fill_plain (environment : Fields Text) (p : Text) (ps : List (Text.Piece Text)) :
    fill environment (p.map .plain ++ ps) = (p ++ ·) <$> fill environment ps := by
  induction p with
  | nil => cases h : fill environment ps <;> rw [List.map_nil, List.nil_append, h] <;> rfl
  | cons c p ih =>
    rw [List.map_cons, List.cons_append, fill, ih]
    cases fill environment ps <;> rfl

theorem fill_of_isPlain (h : IsPlain t) (b : Option Char) :
    fill environment (piecesFrom variableAt b 0 t) = .ok t := by
  have hkept := fill_plain environment t []
  rw [List.append_nil, fill] at hkept
  rw [Text.piecesFrom_of_silent (silent_of_isPlain h), hkept]
  exact congrArg Except.ok (List.append_nil t)

theorem refers_fill (h : Names t ns) (b : Option Char) :
    Refers environment ns (fill environment (piecesFrom variableAt b 0 t)) (Filled environment t) := by
  induction h generalizing b with
  | last hplain =>
    rw [fill_of_isPlain hplain]
    exact refers_ok (.last hplain)
  | @next t p name r ns hfirst _ ih =>
    obtain ⟨b', hpieces⟩ := hfirst.piecesFrom_eq b
    rw [hpieces, fill_plain, fill]
    cases hx : Fields.get? name environment with
    | none =>
      have hn : firstUnset environment (name :: ns) = some name := List.find?_cons_of_pos (by simp [hx])
      rw [Refers, hn]
      rfl
    | some x =>
      have hn : firstUnset environment (name :: ns) = firstUnset environment ns :=
        List.find?_cons_of_neg (by simp [hx])
      have hrest := ((ih b').map (f := (x ++ ·)) (Q := fun u => ∃ u', Filled environment r u' ∧ u = x ++ u')
        fun u hu => ⟨u, hu, rfl⟩).map (f := (p ++ ·)) (Q := Filled environment t)
        (by rintro - ⟨u, hu, rfl⟩; exact .next hfirst hx hu)
      rw [Refers, hn]
      exact hrest

theorem refers_text (h : Names t ns) : Refers environment ns (text environment t) (Filled environment t) :=
  refers_fill h none

end Runbook.Substitution
