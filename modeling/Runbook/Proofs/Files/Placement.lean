import Runbook.Proofs.Files.Directory

/-!
Where a file can be put with the directories above it: anywhere, unless a file is above the place, a directory at it, or
the place too long for the limits of names and paths.
-/
namespace Runbook

variable {tree tree' made : FileTree} {place q cwd : Place} {name : Text} {names : List Text} {content content' : List UInt8}
  {cause : FileCause}

theorem Text.exists_join_append (sep : Text) (ts us : List Text) :
    ∃ rest, Text.join sep (ts ++ us) = Text.join sep ts ++ rest := by
  induction ts with
  | nil => exact ⟨_, rfl⟩
  | cons t ts ih =>
    obtain ⟨rest, hrest⟩ := ih
    cases ts with
    | nil =>
      cases us with
      | nil => exact ⟨[], (List.append_nil t).symm⟩
      | cons u us => exact ⟨sep ++ Text.join sep (u :: us), List.append_assoc ..⟩
    | cons t' ts =>
      refine ⟨rest, ?_⟩
      rw [List.cons_append] at hrest
      rw [List.cons_append, List.cons_append, Text.join, Text.join, hrest, List.append_assoc _ _ rest]

/-- A place within the limits of names and paths. -/
structure Place.IsShort (place : Place) : Prop where
  path : (Text.utf8 place.toText).length ≤ FileTree.maxPath
  names : ∀ name ∈ place, (Text.utf8 name).length ≤ FileTree.maxName

theorem Place.toText_eq (place : Place) : place.toText = '/' :: Text.join "/" place := rfl

theorem Place.IsShort.of_prefix (h : place.IsShort) (hq : q <+: place) : q.IsShort := by
  refine ⟨le_trans ?_ h.path, fun name hname => h.names name (hq.subset hname)⟩
  obtain ⟨rest, rfl⟩ := hq
  obtain ⟨more, hmore⟩ := Text.exists_join_append "/" q rest
  rw [toText_eq, toText_eq, hmore, ← List.cons_append]
  simp [Text.utf8]

namespace FileTree

/-- A file can stand there: no file is above it, no directory at it, and the place is within the limits. -/
structure Admits (tree : FileTree) (place : Place) : Prop where
  above : ∀ q, q <+: place → q ≠ place → ∀ content, tree.entry? q ≠ some (.file content)
  free : tree.entry? place ≠ some .directory
  short : place.IsShort

/-! Walks without a step back -/

/-- What a walk comes by: the place from which it goes and all further ones but the last. -/
def Passes (place : Place) (names : List Text) (q : Place) : Prop :=
  place <+: q ∧ q <+: place ++ names ∧ q ≠ place ++ names

theorem passes_cons {place : Place} {name : Text} {names : List Text} (h : Passes (place ++ [name]) names q) :
    Passes place (name :: names) q := by
  obtain ⟨hfrom, hto, hne⟩ := h
  rw [List.append_assoc] at hto hne
  exact ⟨(List.prefix_append _ _).trans hfrom, hto, hne⟩

theorem passes_start (place : Place) (name : Text) (names : List Text) : Passes place (name :: names) place :=
  ⟨List.prefix_rfl, List.prefix_append _ _, by simp⟩

/-- Unless a file is on its way, a walk gets to its end or finds nothing. -/
theorem walk_of_no_file (hnames : "..".toList ∉ names) (hshort : ∀ name ∈ names, (Text.utf8 name).length ≤ maxName)
    (hfiles : ∀ q, Passes place names q → ∀ content, tree.entry? q ≠ some (.file content)) :
    tree.walk place names = .ok (place ++ names) ∨
      (tree.walk place names = .error .notFound ∧ ∃ q, Passes place names q ∧ tree.entry? q = none) := by
  induction names generalizing place with
  | nil => exact .inl (congrArg Except.ok (List.append_nil place).symm)
  | cons name names ih =>
    rw [List.mem_cons, not_or] at hnames
    rw [List.forall_mem_cons] at hshort
    have hstart := passes_start place name names
    cases he : tree.entry? place with
    | none => exact .inr ⟨by rw [walk, he], place, hstart, he⟩
    | some entry =>
      cases entry with
      | file content => exact (hfiles place hstart content he).elim
      | directory =>
        have hstep : tree.walk place (name :: names) = tree.walk (place ++ [name]) names := by
          rw [walk, he]
          dsimp only
          rw [if_neg (Nat.not_lt.mpr hshort.1), Place.step, if_neg (Ne.symm hnames.1)]
        have hend : place ++ name :: names = place ++ [name] ++ names := List.append_cons ..
        rw [hstep, hend]
        rcases ih hnames.2 hshort.2 fun q hq => hfiles q (passes_cons hq) with hend | ⟨hnone, q, hq, he⟩
        · exact .inl hend
        · exact .inr ⟨hnone, q, passes_cons hq, he⟩

theorem walk_of_directories (hnames : "..".toList ∉ names) (hshort : ∀ name ∈ names, (Text.utf8 name).length ≤ maxName)
    (hdirs : ∀ q, Passes place names q → tree.entry? q = some .directory) :
    tree.walk place names = .ok (place ++ names) := by
  have hfiles : ∀ q, Passes place names q → ∀ content, tree.entry? q ≠ some (.file content) := by
    intro q hq content
    rw [hdirs q hq]
    nofun
  rcases walk_of_no_file hnames hshort hfiles with hend | ⟨-, q, hq, he⟩
  · exact hend
  · rw [hdirs q hq] at he
    cases he

/-- A walk that gets to its end has come by directories only, and by no name that is too long. -/
theorem directories_of_walk (hnames : "..".toList ∉ names) (h : tree.walk place names = .ok q) :
    (∀ name ∈ names, (Text.utf8 name).length ≤ maxName) ∧
      ∀ q, Passes place names q → tree.entry? q = some .directory := by
  induction names generalizing place with
  | nil =>
    refine ⟨nofun, ?_⟩
    rintro q ⟨hfrom, hto, hne⟩
    rw [List.append_nil] at hto hne
    exact (hne (hto.eq_of_length_le hfrom.length_le)).elim
  | cons name names ih =>
    rw [List.mem_cons, not_or] at hnames
    rw [walk] at h
    split at h
    · cases h
    · cases h
    · rename_i hdir
      split at h
      · cases h
      · rename_i hlong
        rw [Place.step, if_neg (Ne.symm hnames.1)] at h
        obtain ⟨hshort, hdirs⟩ := ih hnames.2 h
        refine ⟨List.forall_mem_cons.mpr ⟨Nat.not_lt.mp hlong, hshort⟩, ?_⟩
        rintro q ⟨hfrom, hto, hne⟩
        obtain ⟨rest, rfl⟩ := hfrom
        cases rest with
        | nil => rwa [List.append_nil]
        | cons name' rest =>
          obtain ⟨rfl, hrest⟩ := List.cons_prefix_cons.mp ((List.prefix_append_right_inj place).mp hto)
          refine hdirs _ ⟨⟨rest, ?_⟩, ?_, ?_⟩
          · simp
          · rw [List.append_cons, List.append_cons place]
            exact (List.prefix_append_right_inj _).mpr hrest
          · rwa [List.append_cons place name' names] at hne

/-! Places -/

theorem locate_ofPlace (hshort : place.IsShort) (tree : FileTree) (cwd : Place) :
    tree.locate cwd (.ofPlace place) = tree.walk [] place := by
  have hpath : ¬ maxPath < (Text.utf8 (Path.ofPlace place).toText).length := Nat.not_lt.mpr hshort.path
  rw [locate, if_neg hpath]
  rfl

theorem passes_nil_iff {names : Place} : Passes [] names q ↔ q <+: names ∧ q ≠ names := by
  simp [Passes]

theorem locate_ofPlace_eq_ok_iff (hplace : "..".toList ∉ place) :
    tree.locate cwd (.ofPlace place) = .ok place ↔
      place.IsShort ∧ ∀ q, q <+: place → q ≠ place → tree.entry? q = some .directory := by
  constructor
  · intro h
    unfold locate at h
    split at h
    · cases h
    · rename_i hlong
      obtain ⟨hshort, hdirs⟩ := directories_of_walk hplace h
      exact ⟨⟨Nat.not_lt.mp hlong, hshort⟩, fun q hq hne => hdirs q (passes_nil_iff.mpr ⟨hq, hne⟩)⟩
  · rintro ⟨hshort, hdirs⟩
    rw [locate_ofPlace hshort]
    refine walk_of_directories hplace hshort.names fun q hq => ?_
    obtain ⟨hq, hne⟩ := passes_nil_iff.mp hq
    exact hdirs q hq hne

/-- A directory can be made below one that is there. -/
theorem exists_ensureDirectory (hplace : "..".toList ∉ place) (hshort : place.IsShort)
    (hdirs : ∀ q, q <+: place → q ≠ place → tree.entry? q = some .directory)
    (hfile : ∀ content, tree.entry? place ≠ some (.file content)) (cwd : Place) :
    ∃ made, tree.ensureDirectory cwd (.ofPlace place) = .ok made := by
  have hlocate : tree.locate cwd (.ofPlace place) = .ok place := (locate_ofPlace_eq_ok_iff hplace).mpr ⟨hshort, hdirs⟩
  unfold ensureDirectory makeDirectory
  rw [hlocate]
  dsimp only
  cases he : tree.entry? place with
  | none => exact ⟨_, rfl⟩
  | some entry =>
    cases entry with
    | file content => exact (hfile content he).elim
    | directory =>
      have hstat : tree.stat cwd (.ofPlace place) = .ok .directory := by
        rw [stat_eq_ok_iff, Place.follow_ofPlace hplace]
        exact ⟨hlocate, he⟩
      have hthere : tree.isDirectory cwd (.ofPlace place) = true := by rw [isDirectory, hstat]
      exact ⟨tree, by simp [hthere]⟩

/-- Nothing but a file or a length is in the way of a directory. -/
theorem exists_ensureAbove (ht : tree.IsTree) (hcwd : tree.entry? cwd = some .directory) (hplace : "..".toList ∉ place)
    (hshort : place.IsShort) (hfiles : ∀ q, q <+: place → ∀ content, tree.entry? q ≠ some (.file content)) :
    ∃ made, tree.ensureAbove cwd (.ofPlace place) place.length = .ok made := by
  induction place using List.reverseRecOn with
  | nil => exact exists_ensureDirectory hplace hshort (fun q hq hne => (hne (List.prefix_nil.mp hq)).elim) nofun cwd
  | append_singleton place name ih =>
    have habove : place <+: place ++ [name] := List.prefix_append place [name]
    have hplace' : "..".toList ∉ place := fun hm => hplace (List.mem_append_left _ hm)
    have hparent : (Path.ofPlace (place ++ [name])).parent = .ofPlace place := by
      rw [Path.parent, Path.ofPlace, List.dropLast_concat]
      rfl
    rw [List.length_append, List.length_singleton, ensureAbove, hparent]
    rcases walk_of_no_file hplace hshort.names fun q hq => hfiles q (passes_nil_iff.mp hq).1 with hend | ⟨hnone, -⟩
    · have hlocate := (locate_ofPlace hshort tree cwd).trans hend
      have hdirs := ((locate_ofPlace_eq_ok_iff hplace).mp hlocate).2
      -- nothing above is missing, so this is the one directory to make
      have hmake : tree.makeDirectory cwd (.ofPlace (place ++ [name])) ≠ .error .notFound := by
        rw [makeDirectory, hlocate]
        dsimp only
        split <;> simp
      split
      · rename_i hnone
        exact (hmake hnone).elim
      · exact exists_ensureDirectory hplace hshort hdirs (hfiles _ List.prefix_rfl) cwd
    · have hmake : tree.makeDirectory cwd (.ofPlace (place ++ [name])) = .error .notFound := by
        rw [makeDirectory, locate_ofPlace hshort, hnone]
      rw [hmake]
      dsimp only
      obtain ⟨made, hmade⟩ := ih hplace' (hshort.of_prefix habove) fun q hq => hfiles q (hq.trans habove)
      have hextends := extends_ensureAbove ht hcwd hmade
      have hdir : made.entry? place = some .directory := by
        have hdir := directory_of_ensureDirectories (p := .ofPlace place) hmade
        rwa [Place.follow_ofPlace hplace'] at hdir
      have hdirs : ∀ q, q <+: place ++ [name] → q ≠ place ++ [name] → made.entry? q = some .directory := by
        intro q hq hne
        rcases List.prefix_concat_iff.mp hq with hsame | hq
        · exact (hne hsame).elim
        · exact hextends.isTree.directory_of_directory hq hdir
      obtain ⟨made', hmade'⟩ := exists_ensureDirectory hplace hshort hdirs
        (fun content he => hfiles _ List.prefix_rfl content (hextends.file_iff.mp he)) cwd
      exact ⟨made', bind_eq_ok_iff.mpr ⟨made, hmade, hmade'⟩⟩

/-! Files with the directories above them -/

/-- The files after one has been put at a place, with the directories above it. -/
def Puts (cwd place : Place) (content : List UInt8) (tree tree' : FileTree) : Prop :=
  ∃ made, tree.ensureDirectories cwd (Path.ofPlace place).parent = .ok made ∧
    made.write cwd (.ofPlace place) content = .ok tree'

/-- What a file that has been put changes. -/
structure Placed (place : Place) (content : List UInt8) (tree tree' : FileTree) : Prop where
  isTree : tree'.IsTree
  admits : tree.Admits place
  file_iff : ∀ q content', tree'.entry? q = some (.file content') ↔
    if q = place then content' = content else tree.entry? q = some (.file content')
  other : ∀ q, ¬ q <+: place → tree'.entry? q = tree.entry? q
  keeps : KeepsDirectories tree tree'

theorem placed_of_puts (ht : tree.IsTree) (hcwd : tree.entry? cwd = some .directory) (hplace : "..".toList ∉ place)
    (h : Puts cwd place content tree tree') : Placed place content tree tree' := by
  obtain ⟨made, hmade, hwrite⟩ := h
  have hextends := extends_ensureAbove ht hcwd hmade
  have hisTree := hextends.isTree.write (hextends.grows _ _ hcwd) hwrite
  have hkeeps : KeepsDirectories tree tree' := fun q hq =>
    keepsDirectories_of_write hwrite q (hextends.grows.keepsDirectories q hq)
  obtain ⟨hlocate, hfree, rfl⟩ := exists_of_write hwrite
  rw [Place.follow_ofPlace hplace] at hlocate hfree hisTree hkeeps ⊢
  obtain ⟨hshort, hdirs⟩ := (locate_ofPlace_eq_ok_iff hplace).mp hlocate
  have hentry := entry?_put (ne_nil_of_entry?_ne hfree) (.file content) made
  refine ⟨hisTree, ⟨?_, fun hdir => hfree (hextends.grows _ _ hdir), hshort⟩, ?_, ?_, hkeeps⟩
  · intro q hq hne content' he
    simpa [hdirs q hq hne] using hextends.grows _ _ he
  · intro q content'
    rw [hentry]
    split
    · simp [eq_comm]
    · exact hextends.file_iff
  · intro q hq
    rw [hentry, if_neg fun hsame : q = place => hq (by rw [hsame])]
    cases he : made.entry? q with
    | none =>
      cases he' : tree.entry? q with
      | none => rfl
      | some e => simpa [he] using hextends.grows q e he'
    | some e =>
      rcases hextends.new q e he with he' | ⟨-, hway⟩
      · exact he'.symm
      · refine (hq ?_).elim
        exact (OnWay.prefix_of_ofPlace (Place.not_mem_dropLast hplace) hway).trans (List.dropLast_prefix place)

theorem exists_puts (ht : tree.IsTree) (hcwd : tree.entry? cwd = some .directory) (hplace : "..".toList ∉ place)
    (hne : place ≠ []) (h : tree.Admits place) (content : List UInt8) : ∃ tree', Puts cwd place content tree tree' := by
  have hlast : ∀ q, q <+: place.dropLast → q <+: place ∧ q ≠ place := by
    intro q hq
    refine ⟨hq.trans (List.dropLast_prefix place), ?_⟩
    rintro rfl
    have hlength := hq.length_le
    rw [List.length_dropLast] at hlength
    have hpos := List.length_pos_iff.mpr hne
    omega
  obtain ⟨made, hmade⟩ := exists_ensureAbove ht hcwd (Place.not_mem_dropLast hplace)
    (h.short.of_prefix (List.dropLast_prefix place)) fun q hq => h.above q (hlast q hq).1 (hlast q hq).2
  have hextends := extends_ensureAbove ht hcwd hmade
  have hdir := directory_of_ensureDirectories (p := .ofPlace place.dropLast) hmade
  rw [Place.follow_ofPlace (Place.not_mem_dropLast hplace)] at hdir
  have hlocate : made.locate cwd (.ofPlace place) = .ok place := by
    refine (locate_ofPlace_eq_ok_iff hplace).mpr ⟨h.short, fun q hq hne => ?_⟩
    exact hextends.isTree.directory_of_directory (Place.prefix_dropLast hq hne) hdir
  have hfree : made.entry? place ≠ some .directory := by
    intro hdir
    rcases hextends.new _ _ hdir with hold | ⟨-, hway⟩
    · exact h.free hold
    · exact (hlast _ (OnWay.prefix_of_ofPlace (Place.not_mem_dropLast hplace) hway)).2 rfl
  refine ⟨made.put place (.file content), made, hmade, ?_⟩
  rw [write, hlocate]
  dsimp only
  rw [if_neg hfree]

/-! One file in a directory -/

theorem walk_concat (h : tree.walk place names = .ok q) (hdir : tree.entry? q = some .directory)
    (hname : (Text.utf8 name).length ≤ maxName) : tree.walk place (names ++ [name]) = .ok (Place.step q name) := by
  fun_induction walk tree place names with
  | case1 place =>
    cases h
    rw [List.nil_append, walk, hdir]
    dsimp only
    rw [if_neg (Nat.not_lt.mpr hname), walk]
  | case2 | case3 | case4 => cases h
  | case5 place name' names hdir' hshort ih =>
    rw [List.cons_append, walk, hdir']
    dsimp only
    rw [if_neg hshort]
    exact ih h

theorem locate_child {p : Path} (h : tree.locate cwd p = .ok q) (hdir : tree.entry? q = some .directory)
    (hname : (Text.utf8 name).length ≤ maxName) (hfits : (Text.utf8 (p.child name).toText).length ≤ maxPath) :
    tree.locate cwd (p.child name) = .ok (Place.step q name) := by
  unfold locate at h ⊢
  rw [if_neg (Nat.not_lt.mpr hfits)]
  split at h
  · cases h
  · exact walk_concat h hdir hname

theorem put_of_entry?_eq_none (h : tree.entry? place = none) (e : FileEntry) : tree.put place e = tree ++ [(place, e)] := by
  have hplace : place ≠ [] := by
    rintro rfl
    cases h
  rw [ entry?, if_neg hplace, Option.map_eq_none_iff] at h
  induction tree with
  | nil => rfl
  | cons entry tree ih =>
    rw [List.find?_eq_none, List.forall_mem_cons] at h
    rw [put, if_neg (by simpa using h.1), ih (List.find?_eq_none.mpr h.2), List.cons_append]

/-- A new file is written below a directory where its name is free. -/
theorem write_child {p : Path} (h : tree.locate cwd p = .ok q) (hdir : tree.entry? q = some .directory)
    (hdots : name ≠ "..") (hname : (Text.utf8 name).length ≤ maxName)
    (hfits : (Text.utf8 (p.child name).toText).length ≤ maxPath) (hfree : tree.entry? (q ++ [name]) = none)
    (content : List UInt8) : tree.write cwd (p.child name) content = .ok (tree ++ [(q ++ [name], .file content)]) := by
  have hlocate := locate_child h hdir hname hfits
  rw [Place.step, if_neg hdots] at hlocate
  rw [write, hlocate]
  dsimp only
  rw [if_neg (by simp [hfree]), put_of_entry?_eq_none hfree]

theorem listing_eq_nil (ht : tree.IsTree) (hdir : tree.entry? place = some .directory)
    (hempty : ∀ q, place <+: q → q ≠ place → tree.entry? q = none) : tree.listing place = [] := by
  refine List.eq_nil_iff_forall_not_mem.mpr fun ⟨path, content⟩ hlisted => ?_
  obtain ⟨names, -, -, he⟩ := (mem_listing_iff ht).mp hlisted
  by_cases hnames : names = []
  · rw [hnames, List.append_nil, hdir] at he
    cases he
  · rw [hempty _ (List.prefix_append _ _) (by simpa using hnames)] at he
    cases he

theorem listing_concat_child (tree : FileTree) (place : Place) (name : Text) (content : List UInt8) :
    FileTree.listing (tree ++ [(place ++ [name], .file content)]) place = tree.listing place ++ [(name, content)] := by
  have hin : Place.isWithin (place ++ [name]) place = true := Place.isWithin_iff.mpr (List.prefix_append _ _)
  rw [listing, listing, List.filterMap_append]
  simp [hin, Text.join]

end FileTree
end Runbook
