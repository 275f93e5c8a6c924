import Runbook.Files.Tree
import Runbook.Proofs.Value.Fault

/-! What a change of the files leaves as it was, and what is read where something was written. -/
namespace Runbook.FileTree

variable {tree tree' tree'' : FileTree} {place q cwd : Place} {e : FileEntry} {p p' : Path} {names : List Text}
  {content content' : List UInt8}

theorem entry?_put (hplace : place ≠ []) (e : FileEntry) (tree : FileTree) (q : Place) :
    FileTree.entry? (tree.put place e) q = if q = place then some e else tree.entry? q := by
  by_cases hq : q = []
  · subst hq
    simp [ entry?, Ne.symm hplace]
  · simp only [ entry?, if_neg hq]
    induction tree with
    | nil => grind [put]
    | cons entry tree ih => grind [put]

/-- A directory stays one. -/
def KeepsDirectories (tree tree' : FileTree) : Prop :=
  ∀ q, tree.entry? q = some .directory → tree'.entry? q = some .directory

/-- Every entry stays what it is. -/
def Grows (tree tree' : FileTree) : Prop := ∀ q e, tree.entry? q = some e → tree'.entry? q = some e

theorem Grows.refl (tree : FileTree) : Grows tree tree := fun _ _ h => h

theorem Grows.trans (h : Grows tree tree') (h' : Grows tree' tree'') : Grows tree tree'' :=
  fun q e he => h' q e (h q e he)

theorem Grows.keepsDirectories (h : Grows tree tree') : KeepsDirectories tree tree' := fun q => h q .directory

/-- A walk that gets somewhere gets where the names lead. -/
theorem eq_foldl_of_walk (h : tree.walk place names = .ok q) : q = names.foldl Place.step place := by
  fun_induction walk tree place names with
  | case1 place =>
    cases h
    rfl
  | case2 | case3 | case4 => cases h
  | case5 place name names _ _ ih => exact ih h

theorem KeepsDirectories.walk (hk : KeepsDirectories tree tree') (h : tree.walk place names = .ok q) :
    tree'.walk place names = .ok q := by
  fun_induction FileTree.walk tree place names with
  | case1 place => exact h
  | case2 | case3 | case4 => cases h
  | case5 place name names hdir hlen ih =>
    rw [FileTree.walk, hk place hdir]
    dsimp only
    rw [if_neg hlen]
    exact ih h

theorem eq_follow_of_locate (h : tree.locate cwd p = .ok q) : q = Place.follow cwd p := by
  unfold locate at h
  split at h
  · cases h
  · exact eq_foldl_of_walk h

theorem KeepsDirectories.locate (hk : KeepsDirectories tree tree') (h : tree.locate cwd p = .ok q) :
    tree'.locate cwd p = .ok q := by
  unfold FileTree.locate at h ⊢
  split at h
  · cases h
  · rename_i hlen
    rw [if_neg hlen]
    exact hk.walk h

theorem stat_eq_ok_iff : tree.stat cwd p = .ok e ↔
    tree.locate cwd p = .ok (Place.follow cwd p) ∧ tree.entry? (Place.follow cwd p) = some e := by
  rw [stat, bind_eq_ok_iff]
  constructor
  · rintro ⟨place, hplace, he⟩
    obtain rfl := eq_follow_of_locate hplace
    refine ⟨hplace, ?_⟩
    split at he
    · rename_i entry hentry
      cases he
      exact hentry
    · cases he
  · rintro ⟨hplace, he⟩
    exact ⟨_, hplace, by simp only [he]⟩

/-- A file is read where its path leads, and as it stands there. -/
theorem read_eq_ok_iff : tree.read cwd p = .ok content ↔
    tree.locate cwd p = .ok (Place.follow cwd p) ∧ tree.entry? (Place.follow cwd p) = some (.file content) := by
  rw [← stat_eq_ok_iff, read]
  split
  · rename_i found hfound
    rw [hfound]
    constructor
    · rintro ⟨⟩
      rfl
    · rintro ⟨⟩
      rfl
  · rename_i hfound
    rw [hfound]
    constructor <;> rintro ⟨⟩
  · rename_i hfound
    rw [hfound]
    constructor <;> rintro ⟨⟩

theorem Grows.read (h : Grows tree tree') (hr : tree.read cwd p = .ok content) : tree'.read cwd p = .ok content := by
  obtain ⟨hplace, he⟩ := read_eq_ok_iff.mp hr
  exact read_eq_ok_iff.mpr ⟨h.keepsDirectories.locate hplace, h _ _ he⟩

/-! Directories -/

theorem grows_makeDirectory (h : tree.makeDirectory cwd p = .ok tree') : Grows tree tree' := by
  unfold makeDirectory at h
  split at h
  · cases h
  · rename_i place hplace
    split at h
    · cases h
    · rename_i hnew
      cases h
      -- the root is always there, so it is not what is made
      have hroot : place ≠ [] := by
        rintro rfl
        exact hnew rfl
      intro q e he
      rw [entry?_put hroot, if_neg, he]
      rintro rfl
      exact hnew (by rw [he]; rfl)

/-- Directories are made one after the other. -/
inductive Makes (cwd : Place) : FileTree → FileTree → Prop
  | refl (tree : FileTree) : Makes cwd tree tree
  | tail {tree tree' tree'' : FileTree} {p : Path} (first : Makes cwd tree tree')
    (last : tree'.makeDirectory cwd p = .ok tree'') : Makes cwd tree tree''

theorem Makes.trans (h : Makes cwd tree tree') (h' : Makes cwd tree' tree'') : Makes cwd tree tree'' := by
  induction h' with
  | refl => exact h
  | tail _ last ih => exact ih.tail last

theorem makes_ensureDirectory (h : tree.ensureDirectory cwd p = .ok tree') : Makes cwd tree tree' := by
  unfold ensureDirectory at h
  split at h
  · rename_i made hmade
    cases h
    exact (Makes.refl tree).tail hmade
  · split at h
    · cases h
      exact .refl tree
    · cases h

theorem makes_ensureAbove {levels : Nat} (h : tree.ensureAbove cwd p levels = .ok tree') : Makes cwd tree tree' := by
  induction levels generalizing p tree' with
  | zero => exact makes_ensureDirectory h
  | succ levels ih =>
    unfold ensureAbove at h
    split at h
    · obtain ⟨made, hmade, h⟩ := bind_eq_ok_iff.mp h
      exact (ih hmade).trans (makes_ensureDirectory h)
    · exact makes_ensureDirectory h

theorem makes_leftAbove (tree : FileTree) (cwd : Place) (p : Path) (levels : Nat) :
    Makes cwd tree (tree.leftAbove cwd p levels) := by
  induction levels generalizing p with
  | zero => exact .refl tree
  | succ levels ih =>
    unfold leftAbove
    split
    · split
      · rename_i made hmade
        exact makes_ensureAbove hmade
      · exact ih p.parent
    · exact .refl tree

theorem Makes.grows (h : Makes cwd tree tree') : Grows tree tree' := by
  induction h with
  | refl => exact .refl tree
  | tail _ last ih => exact ih.trans (grows_makeDirectory last)

theorem grows_ensureDirectories (h : tree.ensureDirectories cwd p = .ok tree') : Grows tree tree' :=
  (makes_ensureAbove h).grows

/-! Files -/

/-- What is written stands where the path leads, in place of a file or of nothing. -/
theorem exists_of_write (h : tree.write cwd p content = .ok tree') :
    tree.locate cwd p = .ok (Place.follow cwd p) ∧ tree.entry? (Place.follow cwd p) ≠ some .directory ∧
      tree' = tree.put (Place.follow cwd p) (.file content) := by
  unfold write at h
  split at h
  · cases h
  · rename_i place hplace
    obtain rfl := eq_follow_of_locate hplace
    split at h
    · cases h
    · rename_i hfree
      cases h
      exact ⟨hplace, hfree, rfl⟩

/-- Nothing is written where the path is too long. -/
theorem write_of_long (hlong : maxPath < (Text.utf8 p.toText).length) :
    tree.write cwd p content = .error ⟨.nameTooLong, p⟩ := by
  rw [write, locate, if_pos hlong]

theorem ne_nil_of_entry?_ne (h : tree.entry? place ≠ some .directory) : place ≠ [] := by
  rintro rfl
  exact h rfl

theorem keepsDirectories_of_write (h : tree.write cwd p content = .ok tree') : KeepsDirectories tree tree' := by
  obtain ⟨-, hfree, rfl⟩ := exists_of_write h
  intro q hq
  rw [entry?_put (ne_nil_of_entry?_ne hfree), if_neg, hq]
  rintro rfl
  exact hfree hq

theorem read_of_write (h : tree.write cwd p content = .ok tree') : tree'.read cwd p = .ok content := by
  have hkept := keepsDirectories_of_write h
  obtain ⟨hplace, hfree, rfl⟩ := exists_of_write h
  refine read_eq_ok_iff.mpr ⟨hkept.locate hplace, ?_⟩
  rw [entry?_put (ne_nil_of_entry?_ne hfree), if_pos rfl]

theorem read_of_write_of_ne (h : tree.write cwd p content = .ok tree') (hne : Place.follow cwd p' ≠ Place.follow cwd p)
    (hr : tree.read cwd p' = .ok content') : tree'.read cwd p' = .ok content' := by
  have hkept := keepsDirectories_of_write h
  obtain ⟨-, hfree, rfl⟩ := exists_of_write h
  obtain ⟨hplace, he⟩ := read_eq_ok_iff.mp hr
  refine read_eq_ok_iff.mpr ⟨hkept.locate hplace, ?_⟩
  rw [entry?_put (ne_nil_of_entry?_ne hfree), if_neg hne, he]

end Runbook.FileTree
