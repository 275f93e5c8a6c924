import Mathlib.Data.List.Infix
import Mathlib.Data.List.Nodup
import Runbook.Proofs.Files.Tree

/-!
Trees in which every entry stands in a directory. Making directories only adds some on the way to a path, and there is
nothing in the way of it but a file or a name that is too long.
-/
namespace Runbook

variable {tree tree' tree'' : FileTree} {place root q cwd : Place} {name : Text} {names : List Text} {e : FileEntry}
  {p : Path} {content : List UInt8} {cause : FileCause} {levels : Nat} {way way' : Place → Prop}

namespace Place

theorem isWithin_iff : isWithin place root = true ↔ root <+: place := List.isPrefixOf_iff_prefix

theorem not_mem_dropLast (hplace : "..".toList ∉ place) : "..".toList ∉ place.dropLast :=
  fun hm => hplace (List.mem_of_mem_dropLast hm)

/-- What leads to a place without being it leads to the directory of the place. -/
theorem prefix_dropLast (hin : root <+: place) (hne : root ≠ place) : root <+: place.dropLast := by
  obtain ⟨rest, rfl⟩ := hin
  have hrest : rest ≠ [] := fun hnil => hne (by rw [hnil, List.append_nil])
  rw [List.dropLast_append_of_ne_nil hrest]
  exact List.prefix_append _ _

theorem inside?_eq_some_iff : inside? root p = some place ↔ place = follow root p ∧ place ≠ root ∧ root <+: place := by
  rw [inside?, ← isWithin_iff]
  split
  · rename_i hin
    constructor
    · rintro ⟨⟩
      exact ⟨rfl, hin⟩
    · rintro ⟨rfl, -⟩
      rfl
  · rename_i hout
    constructor
    · rintro ⟨⟩
    · rintro ⟨rfl, hin⟩
      exact (hout hin).elim

/-- Names without a step back lead to where they say. -/
theorem foldl_step (h : "..".toList ∉ names) (place : Place) : names.foldl step place = place ++ names := by
  induction names generalizing place with
  | nil => exact (List.append_nil place).symm
  | cons name names ih =>
    rw [List.mem_cons, not_or] at h
    rw [List.foldl_cons, ih h.2, step, if_neg (Ne.symm h.1), List.append_assoc]
    rfl

theorem follow_ofPlace (h : "..".toList ∉ place) (cwd : Place) : follow cwd (.ofPlace place) = place := foldl_step h []

/-- No step back is left in a place. -/
theorem not_mem_foldl_step (h : "..".toList ∉ place) (names : List Text) : "..".toList ∉ names.foldl step place := by
  induction names generalizing place with
  | nil => exact h
  | cons name names ih =>
    refine ih ?_
    rw [step]
    split
    · exact fun hm => h (List.mem_of_mem_dropLast hm)
    · rename_i hname
      rw [List.mem_append, List.mem_singleton]
      rintro (hm | rfl)
      · exact h hm
      · exact hname rfl

theorem not_mem_follow (h : "..".toList ∉ cwd) (p : Path) : "..".toList ∉ follow cwd p := by
  refine not_mem_foldl_step ?_ _
  split
  · exact List.not_mem_nil
  · exact h

theorem follow_child (h : name ≠ "..") (cwd : Place) (p : Path) : follow cwd (p.child name) = follow cwd p ++ [name] := by
  rw [Path.child, follow, List.foldl_concat, step, if_neg h]
  rfl

end Place

namespace FileTree

/-- Every place has one entry, which stands in a directory. -/
structure IsTree (tree : FileTree) : Prop where
  nodup : (tree.map Prod.fst).Nodup
  proper : ∀ entry ∈ tree, entry.1 ≠ []
  names : ∀ q e, tree.entry? q = some e → "..".toList ∉ q
  above : ∀ q name e, tree.entry? (q ++ [name]) = some e → tree.entry? q = some .directory

namespace IsTree

theorem nil : IsTree [] := by
  have hentry : ∀ q e, FileTree.entry? [] q = some e → q = [] := by
    intro q e he
    by_contra hq
    rw [ entry?, if_neg hq] at he
    cases he
  refine ⟨List.nodup_nil, fun entry hentry => absurd hentry List.not_mem_nil, fun q e he => ?_, fun q name e he => ?_⟩
  · rw [hentry q e he]
    exact List.not_mem_nil
  · simpa using hentry _ e he

/-- Above a place where something stands there are directories only. -/
theorem directory_of_prefix (ht : tree.IsTree) (hq : q <+: place) (hne : q ≠ place) (he : tree.entry? place = some e) :
    tree.entry? q = some .directory := by
  obtain ⟨rest, rfl⟩ := hq
  induction rest using List.reverseRecOn generalizing e with
  | nil => exact (hne (List.append_nil q).symm).elim
  | append_singleton rest name ih =>
    rw [← List.append_assoc] at he
    have hdir := ht.above _ _ _ he
    by_cases hrest : rest = []
    · rwa [hrest, List.append_nil] at hdir
    · exact ih (by simpa using hrest) hdir

theorem directory_of_directory (ht : tree.IsTree) (hq : q <+: place) (he : tree.entry? place = some .directory) :
    tree.entry? q = some .directory := by
  by_cases hne : q = place
  · rwa [hne]
  · exact ht.directory_of_prefix hq hne he

theorem mem_iff (ht : tree.IsTree) : (q, e) ∈ tree ↔ q ≠ [] ∧ tree.entry? q = some e := by
  constructor
  · intro hm
    have hne := ht.proper _ hm
    refine ⟨hne, ?_⟩
    rw [ entry?, if_neg hne]
    cases hfound : tree.find? (·.1 = q) with
    | none => simpa using List.find?_eq_none.mp hfound _ hm
    | some entry =>
      have hkey : entry.1 = q := by simpa using List.find?_some hfound
      have hsame := List.inj_on_of_nodup_map ht.nodup (List.mem_of_find?_eq_some hfound) hm hkey
      rw [hsame]
      rfl
  · rintro ⟨hne, he⟩
    rw [ entry?, if_neg hne] at he
    obtain ⟨entry, hfound, rfl⟩ := Option.map_eq_some_iff.mp he
    have hkey : entry.1 = q := by simpa using List.find?_some hfound
    have hm := List.mem_of_find?_eq_some hfound
    rwa [← hkey]

theorem put (ht : tree.IsTree) (habove : tree.entry? q = some .directory) (hname : name ≠ "..")
    (hfree : tree.entry? (q ++ [name]) ≠ some .directory) (e : FileEntry) : (tree.put (q ++ [name]) e).IsTree := by
  have hplace : q ++ [name] ≠ [] := by simp
  have hkeys : (tree.put (q ++ [name]) e).map Prod.fst =
      if q ++ [name] ∈ tree.map Prod.fst then tree.map Prod.fst else tree.map Prod.fst ++ [q ++ [name]] := by
    clear ht habove hname hfree hplace
    induction tree with
    | nil => simp [FileTree.put]
    | cons entry tree ih => grind [FileTree.put]
  constructor
  · rw [hkeys]
    split
    · exact ht.nodup
    · rename_i hnew
      exact List.nodup_append'.mpr ⟨ht.nodup, List.nodup_singleton _, by simpa using hnew⟩
  · intro entry hm
    have hkey := List.mem_map_of_mem (f := Prod.fst) hm
    rw [hkeys] at hkey
    have hold : entry.1 ∈ tree.map Prod.fst ∨ entry.1 = q ++ [name] := by
      split at hkey
      · exact .inl hkey
      · simpa using hkey
    rcases hold with hold | hnew
    · obtain ⟨old, hm, hsame⟩ := List.mem_map.mp hold
      rw [← hsame]
      exact ht.proper old hm
    · rw [hnew]
      exact hplace
  · intro place e' he'
    rw [entry?_put hplace] at he'
    split at he'
    · rename_i hsame
      rw [hsame, List.mem_append, List.mem_singleton, not_or]
      exact ⟨ht.names q _ habove, Ne.symm hname⟩
    · exact ht.names place e' he'
  · intro place name' e' he'
    rw [entry?_put hplace] at he' ⊢
    split at he'
    · rename_i hsame
      obtain ⟨rfl, -⟩ := List.append_inj' hsame rfl
      rw [if_neg (by simp), habove]
    · have hdir := ht.above _ _ _ he'
      rw [if_neg, hdir]
      rintro rfl
      exact hfree hdir

end IsTree

theorem entry?_remove (hplace : place ≠ []) (tree : FileTree) (q : Place) :
    FileTree.entry? (tree.remove place) q = if place <+: q then none else tree.entry? q := by
  have hkeep : ∀ entry : Place × FileEntry, (!Place.isWithin entry.1 place) = true ↔ ¬ place <+: entry.1 := by
    intro entry
    rw [Bool.not_eq_true', Bool.eq_false_iff, Ne, Place.isWithin_iff]
  by_cases hq : q = []
  · subst hq
    rw [if_neg (by simpa using hplace)]
    rfl
  · rw [ entry?, entry?, if_neg hq, if_neg hq, remove, List.find?_filter]
    split
    · rename_i hin
      rw [Option.map_eq_none_iff, List.find?_eq_none]
      intro entry _ hboth
      simp only [hkeep, decide_eq_true_eq] at hboth
      exact hboth.1 (hboth.2 ▸ hin)
    · rename_i hout
      congr 2
      funext entry
      by_cases hkey : entry.1 = q
      · simpa [hkey] using (hkeep (q, .directory)).mpr hout
      · simp [hkey]

theorem IsTree.remove (ht : tree.IsTree) (hplace : place ≠ []) : (tree.remove place).IsTree := by
  have hold : ∀ q e, FileTree.entry? (tree.remove place) q = some e → ¬ place <+: q ∧ tree.entry? q = some e := by
    intro q e he
    rw [entry?_remove hplace] at he
    split at he
    · cases he
    · exact ⟨‹_›, he⟩
  constructor
  · exact ht.nodup.sublist (List.filter_sublist.map _)
  · exact fun entry hm => ht.proper entry (List.mem_of_mem_filter hm)
  · exact fun q e he => ht.names q e (hold q e he).2
  · intro q name e he
    obtain ⟨hout, he⟩ := hold _ _ he
    rw [entry?_remove hplace, if_neg, ht.above q name e he]
    exact fun hin => hout (hin.trans (List.prefix_append q [name]))

/-- The files below a place are listed, each under the names that lead there. -/
theorem mem_listing_iff (ht : tree.IsTree) {path : Text} : (path, content) ∈ tree.listing place ↔
    ∃ names, place ++ names ≠ [] ∧ path = Text.join "/" names ∧ tree.entry? (place ++ names) = some (.file content) := by
  rw [listing, List.mem_filterMap]
  constructor
  · rintro ⟨⟨q, e⟩, hm, hlisted⟩
    obtain ⟨hq, he⟩ := ht.mem_iff.mp hm
    cases e with
    | directory => cases hlisted
    | file content' =>
      dsimp only at hlisted
      split at hlisted
      · rename_i hin
        obtain ⟨names, rfl⟩ := Place.isWithin_iff.mp hin
        cases hlisted
        exact ⟨names, hq, by rw [List.drop_left], he⟩
      · cases hlisted
  · rintro ⟨names, hne, rfl, he⟩
    refine ⟨(place ++ names, .file content), ht.mem_iff.mpr ⟨hne, he⟩, ?_⟩
    dsimp only
    rw [if_pos (Place.isWithin_iff.mpr (List.prefix_append _ _)), List.drop_left]

/-! Where a path can lead -/

/-- A directory, or a name in one. -/
inductive Stands (tree : FileTree) : Place → Prop
  | directory {place : Place} (hdir : tree.entry? place = some .directory) : Stands tree place
  | named {above : Place} {name : Text} (hname : name ≠ "..") (hdir : tree.entry? above = some .directory) :
    Stands tree (above ++ [name])

theorem stands_step (ht : tree.IsTree) (hdir : tree.entry? place = some .directory) (name : Text) :
    tree.Stands (Place.step place name) := by
  rw [Place.step]
  split
  · exact .directory (ht.directory_of_directory (List.dropLast_prefix place) hdir)
  · rename_i hname
    exact .named hname hdir

theorem stands_of_walk (ht : tree.IsTree) (hstart : tree.Stands place) (h : tree.walk place names = .ok q) :
    tree.Stands q := by
  fun_induction walk tree place names with
  | case1 place =>
    cases h
    exact hstart
  | case2 | case3 | case4 => cases h
  | case5 place name names hdir _ ih => exact ih (stands_step ht hdir name) h

theorem stands_of_locate (ht : tree.IsTree) (hcwd : tree.entry? cwd = some .directory) (h : tree.locate cwd p = .ok q) :
    tree.Stands q := by
  unfold locate at h
  split at h
  · cases h
  · refine stands_of_walk ht (.directory ?_) h
    split
    · rfl
    · exact hcwd

theorem IsTree.put_of_stands (ht : tree.IsTree) (hstands : tree.Stands place) (hfree : tree.entry? place ≠ some .directory)
    (e : FileEntry) : (tree.put place e).IsTree := by
  cases hstands with
  | directory hdir => exact (hfree hdir).elim
  | named hname hdir => exact ht.put hdir hname hfree e

theorem IsTree.write (ht : tree.IsTree) (hcwd : tree.entry? cwd = some .directory)
    (h : tree.write cwd p content = .ok tree') : tree'.IsTree := by
  obtain ⟨hplace, hfree, rfl⟩ := exists_of_write h
  exact ht.put_of_stands (stands_of_locate ht hcwd hplace) hfree _

/-! Making directories -/

/-- Nothing is lost, and what is new are directories of the kind. -/
structure Extends (tree tree' : FileTree) (way : Place → Prop) : Prop where
  isTree : tree'.IsTree
  grows : Grows tree tree'
  new : ∀ q e, tree'.entry? q = some e → tree.entry? q = some e ∨ (e = .directory ∧ way q)

namespace Extends

theorem refl (ht : tree.IsTree) (way : Place → Prop) : Extends tree tree way := ⟨ht, .refl tree, fun _ _ => .inl⟩

theorem mono (h : Extends tree tree' way) (hway : ∀ q, way q → way' q) : Extends tree tree' way' :=
  ⟨h.isTree, h.grows, fun q e he => (h.new q e he).imp_right fun hnew => ⟨hnew.1, hway q hnew.2⟩⟩

theorem trans (h : Extends tree tree' way) (h' : Extends tree' tree'' way) : Extends tree tree'' way := by
  refine ⟨h'.isTree, h.grows.trans h'.grows, fun q e he => ?_⟩
  rcases h'.new q e he with he | hnew
  · exact h.new q e he
  · exact .inr hnew

/-- Files are neither made nor lost. -/
theorem file_iff (h : Extends tree tree' way) :
    tree'.entry? q = some (.file content) ↔ tree.entry? q = some (.file content) := by
  constructor
  · intro he
    rcases h.new q _ he with he | ⟨⟨⟩, -⟩
    exact he
  · exact h.grows q _

end Extends

/-- Where the first names of a path lead. -/
def OnWay (cwd : Place) (p : Path) (q : Place) : Prop :=
  ∃ names, names <+: p.names ∧ q = Place.follow cwd { p with names }

theorem OnWay.self (cwd : Place) (p : Path) : OnWay cwd p (Place.follow cwd p) := ⟨p.names, List.prefix_rfl, rfl⟩

theorem OnWay.of_parent (h : OnWay cwd p.parent q) : OnWay cwd p q := by
  obtain ⟨names, hnames, rfl⟩ := h
  exact ⟨names, hnames.trans (List.dropLast_prefix _), rfl⟩

theorem OnWay.prefix_of_ofPlace (hplace : "..".toList ∉ place) (h : OnWay cwd (.ofPlace place) q) : q <+: place := by
  obtain ⟨names, hnames, rfl⟩ := h
  rwa [Place.follow, Place.foldl_step fun hm => hplace (hnames.subset hm)]

theorem exists_of_makeDirectory (h : tree.makeDirectory cwd p = .ok tree') :
    tree.locate cwd p = .ok (Place.follow cwd p) ∧ tree.entry? (Place.follow cwd p) = none ∧
      tree' = tree.put (Place.follow cwd p) .directory := by
  unfold makeDirectory at h
  split at h
  · cases h
  · rename_i place hplace
    obtain rfl := eq_follow_of_locate hplace
    split at h
    · cases h
    · rename_i hfree
      cases h
      exact ⟨hplace, by simpa using hfree, rfl⟩

theorem entry?_of_makeDirectory (h : tree.makeDirectory cwd p = .ok tree') (q : Place) :
    tree'.entry? q = if q = Place.follow cwd p then some .directory else tree.entry? q := by
  obtain ⟨-, hfree, rfl⟩ := exists_of_makeDirectory h
  have hroot : tree.entry? (Place.follow cwd p) ≠ some .directory := by simp [hfree]
  exact entry?_put (ne_nil_of_entry?_ne hroot) _ _ _

theorem extends_makeDirectory (ht : tree.IsTree) (hcwd : tree.entry? cwd = some .directory)
    (h : tree.makeDirectory cwd p = .ok tree') : Extends tree tree' (OnWay cwd p) := by
  have hentry := entry?_of_makeDirectory h
  have hgrows := grows_makeDirectory h
  obtain ⟨hplace, hfree, rfl⟩ := exists_of_makeDirectory h
  refine ⟨ht.put_of_stands (stands_of_locate ht hcwd hplace) (by simp [hfree]) _, hgrows, fun q e he => ?_⟩
  rw [hentry] at he
  split at he
  · rename_i hq
    cases he
    exact .inr ⟨rfl, hq ▸ .self cwd p⟩
  · exact .inl he

theorem extends_ensureDirectory (ht : tree.IsTree) (hcwd : tree.entry? cwd = some .directory)
    (h : tree.ensureDirectory cwd p = .ok tree') : Extends tree tree' (OnWay cwd p) := by
  unfold ensureDirectory at h
  split at h
  · rename_i made hmade
    cases h
    exact extends_makeDirectory ht hcwd hmade
  · split at h
    · cases h
      exact .refl ht _
    · cases h

theorem extends_ensureAbove (ht : tree.IsTree) (hcwd : tree.entry? cwd = some .directory)
    (h : tree.ensureAbove cwd p levels = .ok tree') : Extends tree tree' (OnWay cwd p) := by
  induction levels generalizing p tree' with
  | zero => exact extends_ensureDirectory ht hcwd h
  | succ levels ih =>
    unfold ensureAbove at h
    split at h
    · obtain ⟨made, hmade, h⟩ := bind_eq_ok_iff.mp h
      have habove := (ih hmade).mono fun _ => OnWay.of_parent
      exact habove.trans (extends_ensureDirectory habove.isTree (habove.grows _ _ hcwd) h)
    · exact extends_ensureDirectory ht hcwd h

theorem extends_leftAbove (ht : tree.IsTree) (hcwd : tree.entry? cwd = some .directory) (p : Path) (levels : Nat) :
    Extends tree (tree.leftAbove cwd p levels) (OnWay cwd p) := by
  induction levels generalizing p with
  | zero => exact .refl ht _
  | succ levels ih =>
    unfold leftAbove
    split
    · split
      · rename_i made hmade
        exact (extends_ensureAbove ht hcwd hmade).mono fun _ => OnWay.of_parent
      · exact (ih p.parent).mono fun _ => OnWay.of_parent
    · exact .refl ht _

/-- Where directories are made, files are neither made nor lost. -/
theorem Makes.file_iff (h : Makes cwd tree tree') :
    tree'.entry? q = some (.file content) ↔ tree.entry? q = some (.file content) := by
  induction h with
  | refl => exact Iff.rfl
  | @tail tree' tree'' p _ last ih =>
    obtain ⟨-, hfree, -⟩ := exists_of_makeDirectory last
    rw [entry?_of_makeDirectory last, ← ih]
    split
    · rename_i hq
      rw [hq, hfree]
      constructor <;> rintro ⟨⟩
    · exact Iff.rfl

/-- What has been ensured is there. -/
theorem directory_of_ensureDirectory (h : tree.ensureDirectory cwd p = .ok tree') :
    tree'.entry? (Place.follow cwd p) = some .directory := by
  unfold ensureDirectory at h
  split at h
  · rename_i made hmade
    cases h
    rw [entry?_of_makeDirectory hmade, if_pos rfl]
  · split at h
    · rename_i hthere
      cases h
      have hdir := hthere.2
      unfold isDirectory at hdir
      split at hdir
      · rename_i hstat
        exact (stat_eq_ok_iff.mp hstat).2
      · cases hdir
    · cases h

theorem directory_of_ensureDirectories (h : tree.ensureDirectories cwd p = .ok tree') :
    tree'.entry? (Place.follow cwd p) = some .directory := by
  unfold ensureDirectories at h
  cases hlevels : p.names.length with
  | zero =>
    rw [hlevels] at h
    exact directory_of_ensureDirectory h
  | succ levels =>
    rw [hlevels] at h
    unfold ensureAbove at h
    split at h
    · obtain ⟨made, -, h⟩ := bind_eq_ok_iff.mp h
      exact directory_of_ensureDirectory h
    · exact directory_of_ensureDirectory h

end FileTree
end Runbook
