import Mathlib.Data.List.Induction
import Mathlib.Data.List.Nodup
import Runbook.Value.Basic

/-! Records read by key. Of the entries that are put into a record under one key the last holds. -/
namespace Runbook

theorem Value.textEntries_map (es : Fields Value) : textEntries (es.map fun (k, v) => (.text k, v)) = es := by
  induction es with
  | nil => rfl
  | cons e es ih => rw [List.map_cons, textEntries, ih]

namespace Fields

variable {α β : Type} {key k : Text} {es es' new new' base : Fields α}

theorem get?_append (key : Text) (es es' : Fields α) : get? key (es ++ es') = (get? key es).or (get? key es') := by
  induction es with
  | nil => rfl
  | cons e es ih =>
    by_cases hkey : e.1 = key
    · simp [get?, hkey]
    · simp [get?, hkey, ih]

theorem get?_eq_none_iff : get? key es = none ↔ key ∉ keys es := by
  induction es with
  | nil => simp [get?, keys]
  | cons e es ih =>
    rw [keys] at ih
    by_cases hkey : e.1 = key
    · simp [get?, keys, hkey]
    · simp [get?, keys, hkey, Ne.symm hkey, ih]

/-- Where no key stands twice every entry is found. -/
theorem get?_of_mem {e : Text × α} (h : (keys es).Nodup) (he : e ∈ es) : get? e.1 es = some e.2 := by
  induction es with
  | nil => cases he
  | cons first es ih =>
    rw [keys, List.map_cons, List.nodup_cons] at h
    rw [get?]
    rcases List.mem_cons.mp he with rfl | he
    · exact if_pos rfl
    · have hkey : first.1 ≠ e.1 := fun hsame => h.1 (hsame ▸ List.mem_map_of_mem he)
      rw [if_neg hkey]
      exact ih h.2 he

/-- What the last entry under a key holds. -/
def last? (key : Text) (es : Fields α) : Option α := get? key es.reverse

theorem last?_append (key : Text) (es es' : Fields α) : last? key (es ++ es') = (last? key es').or (last? key es) := by
  rw [last?, List.reverse_append, get?_append, last?, last?]

theorem last?_eq_none_iff : last? key es = none ↔ key ∉ keys es := by
  rw [last?, get?_eq_none_iff]
  simp [keys]

/-- Where no key stands twice the first entry is the last. -/
theorem last?_eq_get? (h : (keys es).Nodup) (key : Text) : last? key es = get? key es := by
  induction es with
  | nil => rfl
  | cons e es ih =>
    obtain ⟨k, v⟩ := e
    rw [keys, List.map_cons, List.nodup_cons] at h
    have hcons : last? key ((k, v) :: es) = (last? key es).or (if k = key then some v else none) :=
      last?_append key [(k, v)] es
    rw [hcons, ih h.2, get?]
    split
    · rename_i hkey
      subst hkey
      rw [get?_eq_none_iff.mpr h.1, Option.none_or]
    · rw [Option.or_none]

/-! One entry put, and all the others -/

/-- The entries under all other keys. -/
def without (key : Text) (es : Fields α) : Fields α := es.filter (·.1 ≠ key)

theorem without_put (key : Text) (v : α) (es : Fields α) : without key (put key v es) = without key es := by
  induction es with
  | nil => simp [put, without]
  | cons e es ih =>
    unfold without at ih ⊢
    by_cases hkey : e.1 = key
    · simp [put, hkey]
    · rw [put, if_neg hkey, List.filter_cons, List.filter_cons, ih]

theorem put_put (key : Text) (v w : α) (es : Fields α) : put key v (put key w es) = put key v es := by
  induction es with
  | nil => simp [put]
  | cons e es ih => by_cases hkey : e.1 = key <;> simp [put, hkey, ih]

theorem put_append_of_not_mem (h : k ∉ keys es) (v : α) (es' : Fields α) : put k v (es ++ es') = es ++ put k v es' := by
  induction es with
  | nil => rfl
  | cons e es ih =>
    rw [keys, List.map_cons, List.mem_cons, not_or] at h
    rw [List.cons_append, put, if_neg (Ne.symm h.1), ih h.2, List.cons_append]

/-! Merged records -/

theorem merge_cons (es : Fields α) (e : Text × α) (new : Fields α) :
    merge es (e :: new) = merge (put e.1 e.2 es) new := rfl

theorem merge_append (es new new' : Fields α) : merge es (new ++ new') = merge (merge es new) new' :=
  List.foldl_append

theorem get?_merge (key : Text) (es new : Fields α) : get? key (merge es new) = (last? key new).or (get? key es) := by
  induction new using List.reverseRecOn generalizing es with
  | nil => rfl
  | append_singleton new e ih =>
    obtain ⟨k, v⟩ := e
    have hput : merge es (new ++ [(k, v)]) = put k v (merge es new) := merge_append es new [(k, v)]
    have hlast : last? key [(k, v)] = if k = key then some v else none := rfl
    rw [hput, get?_put, ih, last?_append, hlast]
    split <;> rfl

theorem get?_merge_of_not_mem (h : key ∉ keys new) (es : Fields α) : get? key (merge es new) = get? key es := by
  rw [get?_merge, last?_eq_none_iff.mpr h, Option.none_or]

theorem nodup_keys_merge (h : (keys es).Nodup) (new : Fields α) : (keys (merge es new)).Nodup := by
  induction new generalizing es with
  | nil => exact h
  | cons e new ih =>
    refine ih ?_
    rw [keys_put]
    split
    · exact h
    · rename_i hnew
      exact List.nodup_append'.mpr ⟨h, List.nodup_singleton _, by simpa using hnew⟩

theorem keys_prefix_merge (es new : Fields α) : keys es <+: keys (merge es new) := by
  induction new generalizing es with
  | nil => exact List.prefix_refl _
  | cons e new ih =>
    refine List.IsPrefix.trans ?_ (ih (put e.1 e.2 es))
    rw [keys_put]
    split
    · exact List.prefix_refl _
    · exact List.prefix_append _ _

theorem merge_of_prefix (h : keys es <+: keys new) (hnew : (keys (base ++ new)).Nodup) :
    merge (base ++ es) new = base ++ new := by
  induction new generalizing base es with
  | nil =>
    have hnil : es = [] := List.map_eq_nil_iff.mp (List.prefix_nil.mp h)
    rw [hnil]
    rfl
  | cons e new ih =>
    obtain ⟨k, v⟩ := e
    have hk : k ∉ keys base := by
      intro hmem
      rw [keys, List.map_append] at hnew
      exact List.disjoint_of_nodup_append hnew hmem (by simp)
    have hrest : (keys (base ++ [(k, v)] ++ new)).Nodup := by rwa [← List.append_cons]
    rw [merge_cons, put_append_of_not_mem hk, List.append_cons base (k, v) new]
    cases es with
    | nil =>
      have hstep : merge (base ++ [(k, v)] ++ []) new = base ++ [(k, v)] ++ new := ih List.nil_prefix hrest
      rwa [List.append_nil] at hstep
    | cons e es =>
      obtain ⟨k', w⟩ := e
      obtain ⟨rfl, hes⟩ := List.cons_prefix_cons.mp h
      rw [put, if_pos rfl, List.append_cons]
      exact ih hes hrest

/-- What a merge gives is not changed by the same merge. -/
theorem merge_merge (h : (keys es).Nodup) (new : Fields α) : merge es (merge es new) = merge es new := by
  have hall : (keys ([] ++ merge es new)).Nodup := nodup_keys_merge h new
  exact merge_of_prefix (keys_prefix_merge es new) hall

theorem put_comm {v w : α} (h : key ≠ k) (hkey : key ∈ keys es) : put key v (put k w es) = put k w (put key v es) := by
  induction es with
  | nil => cases hkey
  | cons e es ih =>
    rw [keys, List.map_cons, List.mem_cons] at hkey
    by_cases hfirst : e.1 = key
    · simp [put, hfirst, h]
    · by_cases hk : e.1 = k
      · simp [put, hk, Ne.symm h]
      · have hrest := ih (hkey.resolve_left (Ne.symm hfirst))
        simp [put, hfirst, hk, hrest]

/-- An entry that is known already may be put before others or after them. -/
theorem put_merge {v : α} (hkey : key ∈ keys es) (hnew : key ∉ keys new) :
    put key v (merge es new) = merge (put key v es) new := by
  induction new generalizing es with
  | nil => rfl
  | cons e new ih =>
    rw [keys, List.map_cons, List.mem_cons, not_or] at hnew
    have hmem : key ∈ keys (put e.1 e.2 es) := by
      rw [keys_put]
      split
      · exact hkey
      · exact List.mem_append_left _ hkey
    rw [merge_cons, merge_cons, ih hmem hnew.2, put_comm hnew.1 hkey]

theorem merge_put {v : α} (h : (keys new).Nodup) (es : Fields α) :
    merge es (put key v new) = put key v (merge es new) := by
  induction new generalizing es with
  | nil => rfl
  | cons e new ih =>
    obtain ⟨k, w⟩ := e
    rw [keys, List.map_cons, List.nodup_cons] at h
    rw [put]
    split
    · rename_i hkey
      subst hkey
      have hmem : k ∈ keys (put k w es) := by
        rw [keys_put]
        split <;> simp_all
      rw [merge_cons, merge_cons, put_merge hmem h.1, put_put]
    · rw [merge_cons, ih h.2, merge_cons]

/-- To merge what was merged is to merge one after the other. -/
theorem merge_assoc (h : (keys new).Nodup) (es new' : Fields α) :
    merge es (merge new new') = merge (merge es new) new' := by
  induction new' generalizing new with
  | nil => rfl
  | cons e new' ih =>
    have hput : (keys (put e.1 e.2 new)).Nodup := nodup_keys_merge h [e]
    rw [merge_cons, ih hput, merge_put h, merge_cons]

theorem map_put (f : α → β) (k : Text) (v : α) (es : Fields α) :
    (put k v es).map (fun (k, v) => (k, f v)) = put k (f v) (es.map fun (k, v) => (k, f v)) := by
  induction es with
  | nil => rfl
  | cons e es ih =>
    rw [put, List.map_cons, put]
    split
    · rfl
    · rw [List.map_cons, ih]

theorem map_merge (f : α → β) (es new : Fields α) :
    (merge es new).map (fun (k, v) => (k, f v)) =
      merge (es.map fun (k, v) => (k, f v)) (new.map fun (k, v) => (k, f v)) := by
  induction new generalizing es with
  | nil => rfl
  | cons e new ih => rw [merge_cons, ih, List.map_cons, merge_cons, map_put]

/-- A record with the last of the new entries under each of their keys, and the rest as it is in the base. -/
structure Overlays (es base new : Fields α) : Prop where
  get? : ∀ key, get? key es = (last? key new).or (Fields.get? key base)
  nodup : (keys base).Nodup → (keys es).Nodup

theorem overlays_merge (es new : Fields α) : (merge es new).Overlays es new :=
  ⟨fun key => get?_merge key es new, fun h => nodup_keys_merge h new⟩

/-- A record may be made of its own entries first. -/
theorem Overlays.merge (h : new.Overlays [] new') (base : Fields α) : (merge base new).Overlays base new' := by
  refine ⟨fun key => ?_, fun hbase => nodup_keys_merge hbase new⟩
  rw [get?_merge, last?_eq_get? (h.nodup List.nodup_nil), h.get?, Fields.get?, Option.or_none]

end Fields
end Runbook
