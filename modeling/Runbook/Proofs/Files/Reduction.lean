import Mathlib.Logic.Relation
import Runbook.Proofs.Files.Directory
import Runbook.Proofs.Text.Lines

/-!
Written paths and what is left of them. The components of a path can be cut in any order, and the same names are left in
the end. A relative path whose steps never take it out of where it starts leads below it, and no other does unless it is
written with the names of the place itself.
-/
namespace Runbook

open Relation (ReflTransGen)
open Text (splitAt)

variable {t c rel : Text} {cs cs' left : List Text} {root place : Place}

namespace Place

/-- What can stand in a directory: a component that is no step and has no slash in it. -/
def IsName (t : Text) : Prop := t ≠ [] ∧ t ≠ ['.'] ∧ t ≠ ".." ∧ '/' ∉ t

instance : DecidablePred IsName := fun _ => inferInstanceAs (Decidable (_ ∧ _))

/-- A place with a step left in it would not be one. -/
def IsNormal (place : Place) : Prop := ∀ t ∈ place, IsName t

instance : DecidablePred IsNormal := fun place => inferInstanceAs (Decidable (∀ t ∈ place, _))

theorem IsNormal.append (h : IsNormal root) (h' : IsNormal place) : IsNormal (root ++ place) :=
  List.forall_mem_append.mpr ⟨h, h'⟩

theorem IsNormal.not_mem (h : IsNormal place) : "..".toList ∉ place := fun hm => (h _ hm).2.2.1 rfl

theorem IsNormal.dropLast (h : IsNormal place) : IsNormal place.dropLast := fun t ht => h t (List.mem_of_mem_dropLast ht)

/-! Cuts -/

/-- One cut of the components of a path: one that stays where it is goes, or a step back with the name before it. -/
inductive Cuts : List Text → List Text → Prop
  | empty (before after : List Text) : Cuts (before ++ [] :: after) (before ++ after)
  | dot (before after : List Text) : Cuts (before ++ ['.'] :: after) (before ++ after)
  | back (before after : List Text) {name : Text} (hname : IsName name) :
    Cuts (before ++ name :: "..".toList :: after) (before ++ after)

/-- From the root of all files a step back leads nowhere, so it goes too. -/
inductive CutsAtRoot : List Text → List Text → Prop
  | cut {cs cs' : List Text} (h : Cuts cs cs') : CutsAtRoot cs cs'
  | top (after : List Text) : CutsAtRoot ("..".toList :: after) after

/-- Only names are left, and they are what is left after some cuts. -/
def Reduces (cs left : List Text) : Prop := ReflTransGen Cuts cs left ∧ IsNormal left

/-- The place that is left of the components of an absolute path. -/
def LeadsTo (cs : List Text) (place : Place) : Prop := ReflTransGen CutsAtRoot cs place ∧ IsNormal place

theorem Cuts.append_right (h : Cuts cs cs') (after : List Text) : Cuts (cs ++ after) (cs' ++ after) := by
  cases h with
  | empty before a => simpa using Cuts.empty before (a ++ after)
  | dot before a => simpa using Cuts.dot before (a ++ after)
  | back before a hname => simpa using Cuts.back before (a ++ after) hname

theorem cuts_append_right (h : ReflTransGen Cuts cs cs') (after : List Text) :
    ReflTransGen Cuts (cs ++ after) (cs' ++ after) :=
  h.lift (· ++ after) fun _ _ hcut => hcut.append_right after

theorem CutsAtRoot.append_right (h : CutsAtRoot cs cs') (after : List Text) :
    CutsAtRoot (cs ++ after) (cs' ++ after) := by
  cases h with
  | cut h => exact .cut (h.append_right after)
  | top => exact .top _

theorem cutsAtRoot_append_right (h : ReflTransGen CutsAtRoot cs cs') (after : List Text) :
    ReflTransGen CutsAtRoot (cs ++ after) (cs' ++ after) :=
  h.lift (· ++ after) fun _ _ hcut => hcut.append_right after

theorem cutsAtRoot_of_cuts (h : ReflTransGen Cuts cs cs') : ReflTransGen CutsAtRoot cs cs' :=
  h.lift id fun _ _ => .cut

/-! The place that is left -/

/-- Where the components lead from a place, one after the other. -/
def reduce (place : Place) (cs : List Text) : Place := (cs.filter Path.isName).foldl step place

theorem reduce_append (place : Place) (cs cs' : List Text) : reduce place (cs ++ cs') = reduce (reduce place cs) cs' := by
  rw [reduce, List.filter_append, List.foldl_append]
  rfl

theorem IsName.isName (h : IsName t) : Path.isName t = true := by simp [Path.isName, h.1, h.2.1]

theorem reduce_of_isNormal (h : IsNormal left) (place : Place) : reduce place left = place ++ left := by
  rw [reduce, List.filter_eq_self.mpr fun t ht => (h t ht).isName, foldl_step h.not_mem]

/-- A cut does not change where the components lead. -/
theorem reduce_of_cut (h : Cuts cs cs') (place : Place) : reduce place cs = reduce place cs' := by
  cases h with
  | empty before after | dot before after =>
    rw [reduce_append, reduce_append]
    rfl
  | @back before after name hname =>
    have hback (q : Place) : reduce q (name :: "..".toList :: after) = reduce q after := by
      have hstep : step (step q name) ".." = q := by
        rw [step, if_pos rfl, step, if_neg hname.2.2.1, List.dropLast_concat]
      rw [reduce, List.filter_cons_of_pos hname.isName, List.filter_cons_of_pos rfl, List.foldl_cons, List.foldl_cons,
        hstep]
      rfl
    rw [reduce_append, hback, reduce_append]

theorem reduce_of_cutAtRoot (h : CutsAtRoot cs cs') : reduce [] cs = reduce [] cs' := by
  cases h with
  | cut h => exact reduce_of_cut h []
  | top after => rfl

theorem Reduces.reduce_eq (h : Reduces cs left) (place : Place) : reduce place cs = place ++ left := by
  obtain ⟨hcuts, hnormal⟩ := h
  induction hcuts using ReflTransGen.head_induction_on with
  | refl => exact reduce_of_isNormal hnormal place
  | head hcut _ ih => exact (reduce_of_cut hcut place).trans ih

theorem LeadsTo.reduce_eq (h : LeadsTo cs place) : reduce [] cs = place := by
  obtain ⟨hcuts, hnormal⟩ := h
  induction hcuts using ReflTransGen.head_induction_on with
  | refl => exact reduce_of_isNormal hnormal []
  | head hcut _ ih => exact (reduce_of_cutAtRoot hcut).trans ih

/-! Depth -/

/-- How much deeper a component leads. -/
def rise (c : Text) : Int := if c = [] ∨ c = ['.'] then 0 else if c = ".." then -1 else 1

/-- How deep the components lead. -/
def depth : List Text → Int
  | [] => 0
  | c :: cs => rise c + depth cs

theorem depth_concat (cs : List Text) (c : Text) : depth (cs ++ [c]) = depth cs + rise c := by
  induction cs with
  | nil => exact Int.add_comm (rise c) 0
  | cons c' cs ih => rw [List.cons_append, depth, depth, ih, Int.add_assoc]

/-- The components never lead out of where they start, and end below it. -/
def StaysBelow (cs : List Text) : Prop := (∀ before, before <+: cs → 0 ≤ depth before) ∧ 0 < depth cs

/-- One more component can be cut against the names before it, unless it steps back and there is none. -/
theorem exists_cuts_concat (h : IsNormal left) (hc : '/' ∉ c) (hback : c = ".." → left ≠ []) :
    ∃ left', ReflTransGen Cuts (left ++ [c]) left' ∧ IsNormal left' ∧ (left'.length : Int) = left.length + rise c := by
  by_cases hempty : c = []
  · subst hempty
    exact ⟨left, .single (by simpa using Cuts.empty left []), h, by simp [rise]⟩
  by_cases hdot : c = ['.']
  · subst hdot
    exact ⟨left, .single (by simpa using Cuts.dot left []), h, by simp [rise]⟩
  by_cases hdots : c = ".."
  · have hne := hback hdots
    have hlast := List.dropLast_concat_getLast hne
    have hcut := Cuts.back left.dropLast [] (h _ (List.getLast_mem hne))
    refine ⟨left.dropLast, .single ?_, h.dropLast, ?_⟩
    · rw [← hdots, List.append_nil, List.append_cons, hlast] at hcut
      exact hcut
    · have hpos := List.length_pos_iff.mpr hne
      rw [List.length_dropLast, rise, if_neg (not_or.mpr ⟨hempty, hdot⟩), if_pos hdots]
      omega
  · refine ⟨left ++ [c], .refl, h.append ?_, ?_⟩
    · exact List.forall_mem_singleton.mpr ⟨hempty, hdot, hdots, hc⟩
    · rw [List.length_append, rise, if_neg (not_or.mpr ⟨hempty, hdot⟩), if_neg hdots]
      rfl

/-- What never leads out of where it starts reduces to as many names as it is deep. -/
theorem exists_reduces (hcs : ∀ c ∈ cs, '/' ∉ c) (h : ∀ before, before <+: cs → 0 ≤ depth before) :
    ∃ left, Reduces cs left ∧ (left.length : Int) = depth cs := by
  induction cs using List.reverseRecOn with
  | nil => exact ⟨[], ⟨.refl, nofun⟩, rfl⟩
  | append_singleton cs c ih =>
    rw [List.forall_mem_append, List.forall_mem_singleton] at hcs
    obtain ⟨left, ⟨hcuts, hnormal⟩, hlength⟩ := ih hcs.1 fun before hb => h before (hb.trans (List.prefix_append _ _))
    have hend := h _ List.prefix_rfl
    rw [depth_concat] at hend ⊢
    have hback : c = ".." → left ≠ [] := by
      rintro rfl rfl
      rw [← hlength] at hend
      exact absurd hend (by decide)
    obtain ⟨left', hcuts', hnormal', hlength'⟩ := exists_cuts_concat hnormal hcs.2 hback
    exact ⟨left', ⟨(cuts_append_right hcuts [c]).trans hcuts', hnormal'⟩, by rw [hlength', hlength]⟩

/-- From the root of all files every path leads somewhere. -/
theorem exists_leadsTo (hcs : ∀ c ∈ cs, '/' ∉ c) : ∃ place, LeadsTo cs place := by
  induction cs using List.reverseRecOn with
  | nil => exact ⟨[], .refl, nofun⟩
  | append_singleton cs c ih =>
    rw [List.forall_mem_append, List.forall_mem_singleton] at hcs
    obtain ⟨place, hcuts, hnormal⟩ := ih hcs.1
    have hcuts' := cutsAtRoot_append_right hcuts [c]
    by_cases htop : c = ".." ∧ place = []
    · obtain ⟨rfl, rfl⟩ := htop
      exact ⟨[], hcuts'.tail (.top []), nofun⟩
    · obtain ⟨place', hcut, hnormal', -⟩ := exists_cuts_concat hnormal hcs.2 fun hc hnil => htop ⟨hc, hnil⟩
      exact ⟨place', hcuts'.trans (cutsAtRoot_of_cuts hcut), hnormal'⟩

/-- In whatever order the components are cut, the same names are left. -/
theorem reduces_iff_of_reduces (h : Reduces cs left) : Reduces cs place ↔ place = left := by
  constructor
  · exact fun h' => (h'.reduce_eq []).symm.trans (h.reduce_eq [])
  · rintro rfl
    exact h

theorem leadsTo_iff (hcs : ∀ c ∈ cs, '/' ∉ c) : LeadsTo cs place ↔ place = reduce [] cs := by
  constructor
  · exact fun h => h.reduce_eq.symm
  · rintro rfl
    obtain ⟨place, h⟩ := exists_leadsTo hcs
    rwa [h.reduce_eq]

/-! Paths below a root -/

/-- The components of a path that is read from a root, from the root of all files on. -/
def components (root : Place) (rel : Text) : List Text :=
  if rel.head? = some '/' then splitAt '/' rel else root ++ splitAt '/' rel

theorem not_mem_of_mem_splitAt (h : c ∈ splitAt '/' rel) : '/' ∉ c := by
  obtain ⟨-, -, -, hno, -⟩ := Text.mem_splitAt_iff.mp h
  exact hno

theorem not_mem_of_mem_components (hroot : IsNormal root) (h : c ∈ components root rel) : '/' ∉ c := by
  unfold components at h
  split at h
  · exact not_mem_of_mem_splitAt h
  · rcases List.mem_append.mp h with hc | hc
    · exact (hroot c hc).2.2.2
    · exact not_mem_of_mem_splitAt hc

theorem isAbsolute_ofText (rel : Text) : (Path.ofText rel).isAbsolute = true ↔ rel.head? = some '/' := by
  cases rel with
  | nil => simp [Path.isAbsolute, Path.ofText]
  | cons d rel =>
    by_cases hd : d = '/'
    · subst hd
      simp only [Path.isAbsolute, Path.ofText]
      split <;> simp
    · simp [Path.isAbsolute, Path.ofText, hd]

theorem follow_ofText (hroot : IsNormal root) (rel : Text) :
    follow root (.ofText rel) = reduce [] (components root rel) := by
  rw [follow, components]
  split
  · rename_i habs
    rw [if_pos ((isAbsolute_ofText rel).mp habs)]
    rfl
  · rename_i hrel
    rw [if_neg fun habs => hrel ((isAbsolute_ofText rel).mpr habs), reduce_append, reduce_of_isNormal hroot]
    rfl

theorem leadsTo_components_iff (hroot : IsNormal root) :
    LeadsTo (components root rel) place ↔ place = follow root (.ofText rel) := by
  rw [leadsTo_iff fun _ => not_mem_of_mem_components hroot, follow_ofText hroot]

theorem isNormal_follow (hroot : IsNormal root) (rel : Text) : IsNormal (follow root (.ofText rel)) :=
  ((leadsTo_components_iff hroot).mpr rfl).2

/-- A path below a root is found below it, and no other is found. -/
structure IsConfined (root : Place) (rel : Text) : Prop where
  below : ∀ place, inside? root (.ofText rel) = some place → root <+: place ∧ place ≠ root ∧ IsNormal place
  nested : rel.head? ≠ some '/' → StaysBelow (splitAt '/' rel) →
    ∃ left, (∀ q, Reduces (splitAt '/' rel) q ↔ q = left) ∧ inside? root (.ofText rel) = some (root ++ left)
  none_iff : ∃ place, (∀ q, LeadsTo (components root rel) q ↔ q = place) ∧
    (inside? root (.ofText rel) = none ↔ place = root ∨ ¬ root <+: place)

theorem inside?_of_staysBelow (hrel : rel.head? ≠ some '/') (h : StaysBelow (splitAt '/' rel)) (root : Place) :
    ∃ left, Reduces (splitAt '/' rel) left ∧ inside? root (.ofText rel) = some (root ++ left) := by
  obtain ⟨left, hleft, hlength⟩ := exists_reduces (fun _ => not_mem_of_mem_splitAt) h.1
  have hne : left ≠ [] := by
    rintro rfl
    exact absurd h.2 (by simp [← hlength])
  have hfollow : follow root (.ofText rel) = root ++ left := by
    rw [← hleft.reduce_eq root, follow, if_neg fun habs => hrel ((isAbsolute_ofText rel).mp habs)]
    rfl
  exact ⟨left, hleft, inside?_eq_some_iff.mpr ⟨hfollow.symm, by simpa using hne, List.prefix_append _ _⟩⟩

theorem inside?_eq_none_iff : inside? root (.ofText rel) = none ↔
    follow root (.ofText rel) = root ∨ ¬ root <+: follow root (.ofText rel) := by
  rw [Option.eq_none_iff_forall_ne_some]
  constructor
  · intro hnone
    by_contra hin
    rw [not_or, not_not] at hin
    exact hnone _ (inside?_eq_some_iff.mpr ⟨rfl, hin⟩)
  · intro hout place hplace
    obtain ⟨rfl, hne, hin⟩ := inside?_eq_some_iff.mp hplace
    exact hout.elim hne fun hnot => hnot hin

theorem isConfined (hroot : IsNormal root) (rel : Text) : IsConfined root rel where
  below := by
    intro place hplace
    obtain ⟨rfl, hne, hin⟩ := inside?_eq_some_iff.mp hplace
    exact ⟨hin, hne, isNormal_follow hroot rel⟩
  nested := by
    intro hrel hbelow
    obtain ⟨left, hleft, hplace⟩ := inside?_of_staysBelow hrel hbelow root
    exact ⟨left, fun _ => reduces_iff_of_reduces hleft, hplace⟩
  none_iff := ⟨_, fun _ => leadsTo_components_iff hroot, inside?_eq_none_iff⟩

example : inside? ["srv".toList, "docs".toList] (.ofText "./a//../b/c/..".toList) =
    some ["srv".toList, "docs".toList, "b".toList] := by
  decide

end Place
end Runbook
