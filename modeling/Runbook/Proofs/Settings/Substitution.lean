import Runbook.Proofs.Settings.Reference
import Runbook.Settings.Reading

/-!
References to variables in a value. One walk fills in its texts and leaves its shape as it is; of the references without
a variable, the first one on the way is the fault.
-/
namespace Runbook.Substitution

variable {environment : Fields Text} {t : Text} {ns ts us : List Text} {v : Value}

mutual

/-- The texts of a value in the order of a walk through it; keys are not walked through. -/
def leaves : Value → List Text
  | .text t => [t]
  | .list xs => leavesAll xs
  | .map es => leavesEntries es
  | _ => []

def leavesAll : List Value → List Text
  | [] => []
  | x :: xs => leaves x ++ leavesAll xs

def leavesEntries : List (Value × Value) → List Text
  | [] => []
  | (_, v) :: es => leaves v ++ leavesEntries es

end

/-- The names in the references of several texts, one text after the other. -/
inductive NamesAll : List Text → List Text → Prop
  | nil : NamesAll [] []
  | cons {t : Text} {ts ns ms : List Text} (h : Names t ns) (rest : NamesAll ts ms) : NamesAll (t :: ts) (ns ++ ms)

/-- Whether a value is none that is walked through, nor a text. -/
def isOther : Value → Bool
  | .text _ | .list _ | .map _ => false
  | _ => true

mutual

/-- The value with all its texts filled in; its shape, its keys and all that is no text stay. -/
inductive Becomes (environment : Fields Text) : Value → Value → Prop
  | text {t u : Text} (h : Filled environment t u) : Becomes environment (.text t) (.text u)
  | list {xs ys : List Value} (h : BecomesAll environment xs ys) : Becomes environment (.list xs) (.list ys)
  | map {es fs : List (Value × Value)} (h : BecomesEntries environment es fs) : Becomes environment (.map es) (.map fs)
  | other {v : Value} (h : isOther v = true) : Becomes environment v v

inductive BecomesAll (environment : Fields Text) : List Value → List Value → Prop
  | nil : BecomesAll environment [] []
  | cons {x y : Value} {xs ys : List Value} (h : Becomes environment x y) (rest : BecomesAll environment xs ys) :
    BecomesAll environment (x :: xs) (y :: ys)

inductive BecomesEntries (environment : Fields Text) : List (Value × Value) → List (Value × Value) → Prop
  | nil : BecomesEntries environment [] []
  | cons {k v w : Value} {es fs : List (Value × Value)} (h : Becomes environment v w)
    (rest : BecomesEntries environment es fs) : BecomesEntries environment ((k, v) :: es) ((k, w) :: fs)

end

theorem exists_namesAll (ts : List Text) : ∃ ns, NamesAll ts ns := by
  induction ts with
  | nil => exact ⟨[], .nil⟩
  | cons t ts ih =>
    obtain ⟨ns, hns⟩ := exists_names t
    obtain ⟨ms, hms⟩ := ih
    exact ⟨ns ++ ms, .cons hns hms⟩

theorem exists_of_namesAll_append (h : NamesAll (ts ++ us) ns) :
    ∃ ns₁ ns₂, ns = ns₁ ++ ns₂ ∧ NamesAll ts ns₁ ∧ NamesAll us ns₂ := by
  induction ts generalizing ns with
  | nil => exact ⟨[], ns, rfl, .nil, h⟩
  | cons t ts ih =>
    cases h with
    | cons ht hrest =>
      obtain ⟨ns₁, ns₂, rfl, h₁, h₂⟩ := ih hrest
      exact ⟨_, ns₂, (List.append_assoc ..).symm, .cons ht h₁, h₂⟩

theorem refers_leaf (h : NamesAll [t] ns) : Refers environment ns (text environment t) (Filled environment t) := by
  cases h with
  | cons ht hrest =>
    cases hrest with
    | nil =>
      rw [List.append_nil]
      exact refers_text ht

theorem refers_other (hv : isOther v = true) (hvalue : value environment v = .ok v) (h : NamesAll [] ns) :
    Refers environment ns (value environment v) (Becomes environment v) := by
  cases h
  rw [hvalue]
  exact refers_ok (.other hv)

mutual

/-- One walk through a value refers to the names in its texts and fills these in. -/
theorem refers_value (environment : Fields Text) (v : Value) (ns : List Text) (h : NamesAll (leaves v) ns) :
    Refers environment ns (value environment v) (Becomes environment v) := by
  cases v with
  | text t =>
    rw [leaves] at h
    rw [value]
    exact (refers_leaf h).map fun _ => .text
  | list xs =>
    rw [leaves] at h
    rw [value]
    exact (refers_values environment xs ns h).map fun _ => .list
  | map es =>
    rw [leaves] at h
    rw [value]
    exact (refers_entries environment es ns h).map fun _ => .map
  | null | bool | int | float | bytes | date | moment | tuple | set =>
    exact refers_other rfl (by rw [value] <;> nofun) (by simpa [leaves] using h)

theorem refers_values (environment : Fields Text) (xs : List Value) (ns : List Text) (h : NamesAll (leavesAll xs) ns) :
    Refers environment ns (values environment xs) (BecomesAll environment xs) := by
  cases xs with
  | nil =>
    rw [leavesAll] at h
    cases h
    rw [values]
    exact refers_ok .nil
  | cons x xs =>
    rw [leavesAll] at h
    obtain ⟨ns₁, ns₂, rfl, hx, hxs⟩ := exists_of_namesAll_append h
    rw [values]
    refine (refers_value environment x ns₁ hx).bind fun y hy => ?_
    exact (refers_values environment xs ns₂ hxs).map fun ys hys => .cons hy hys

theorem refers_entries (environment : Fields Text) (es : List (Value × Value)) (ns : List Text)
    (h : NamesAll (leavesEntries es) ns) :
    Refers environment ns (entries environment es) (BecomesEntries environment es) := by
  cases es with
  | nil =>
    rw [leavesEntries] at h
    cases h
    rw [entries]
    exact refers_ok .nil
  | cons e es =>
    obtain ⟨k, v⟩ := e
    rw [leavesEntries] at h
    obtain ⟨ns₁, ns₂, rfl, hv, hes⟩ := exists_of_namesAll_append h
    rw [entries]
    refine (refers_value environment v ns₁ hv).bind fun w hw => ?_
    exact (refers_entries environment es ns₂ hes).map fun fs hfs => .cons hw hfs

end

mutual

theorem value_of_isPlain (environment : Fields Text) (v : Value) (h : ∀ t ∈ leaves v, IsPlain t) :
    value environment v = .ok v := by
  cases v with
  | text t =>
    rw [leaves, List.forall_mem_singleton] at h
    rw [value, text, Text.pieces, fill_of_isPlain h]
    rfl
  | list xs =>
    rw [leaves] at h
    rw [value, values_of_isPlain environment xs h]
    rfl
  | map es =>
    rw [leaves] at h
    rw [value, entries_of_isPlain environment es h]
    rfl
  | null | bool | int | float | bytes | date | moment | tuple | set => rw [value] <;> nofun

theorem values_of_isPlain (environment : Fields Text) (xs : List Value) (h : ∀ t ∈ leavesAll xs, IsPlain t) :
    values environment xs = .ok xs := by
  cases xs with
  | nil => rw [values]
  | cons x xs =>
    rw [leavesAll, List.forall_mem_append] at h
    rw [values, value_of_isPlain environment x h.1, values_of_isPlain environment xs h.2]
    rfl

theorem entries_of_isPlain (environment : Fields Text) (es : List (Value × Value))
    (h : ∀ t ∈ leavesEntries es, IsPlain t) : entries environment es = .ok es := by
  cases es with
  | nil => rw [entries]
  | cons e es =>
    obtain ⟨k, v⟩ := e
    rw [leavesEntries, List.forall_mem_append] at h
    rw [entries, value_of_isPlain environment v h.1, entries_of_isPlain environment es h.2]
    rfl

end

/-- One pass over a value replaces each reference in its texts, if all of them have a variable, and changes nothing else.
If not, the first reference of the walk without a variable is the fault, also where settings are read from the value. -/
theorem value_in_one_pass (environment : Fields Text) (v : Value) :
    (∃ ns, NamesAll (leaves v) ns) ∧
    (∀ ns, NamesAll (leaves v) ns →
      ((∀ name ∈ ns, ∃ x, Fields.get? name environment = some x) →
        ∃ w, value environment v = .ok w ∧ Becomes environment v w) ∧
      ∀ before name after, ns = before ++ name :: after → (∀ n ∈ before, ∃ x, Fields.get? n environment = some x) →
        Fields.get? name environment = none →
        value environment v = .error name ∧ Settings.ofValue environment v = .error (.unset name)) ∧
    ((∀ t ∈ leaves v, IsPlain t) → value environment v = .ok v) := by
  refine ⟨exists_namesAll _, fun ns hns => ?_, value_of_isPlain environment v⟩
  have hwalk := refers_value environment v ns hns
  unfold Refers at hwalk
  refine ⟨fun hset => ?_, ?_⟩
  · rwa [firstUnset_eq_none_iff.mpr hset] at hwalk
  · rintro before name after rfl hbefore hname
    rw [firstUnset_append_cons hbefore hname] at hwalk
    refine ⟨hwalk, ?_⟩
    rw [Settings.ofValue, hwalk]

/-- A value is not read again, a key not at all. -/
example : value [("A".toList, "$\x7bB\x7d".toList)]
      (.map [(.text "$\x7bA\x7d", .list [.text "$$\x7bA\x7d\x7d", .int 1])]) =
    .ok (.map [(.text "$\x7bA\x7d", .list [.text "$$\x7bB\x7d\x7d", .int 1])]) := rfl

end Runbook.Substitution
