import Runbook.Proofs.Files.Denotation
import Runbook.Proofs.Files.Directory
import Runbook.Proofs.Pipeline.JsonSink
import Runbook.Proofs.Text.Digit
import Runbook.Proofs.Text.Runs

/-!
Where the outcome of a document is stored. Its file has a plain name and stands right in the directory of the results,
whatever the id of the document is; no id leads elsewhere, and no other file is touched.
-/
namespace Runbook

variable {tree tree' tree'' : FileTree} {cwd place : Place} {directory p : Path} {name id : Text} {c : Char}
  {content : List UInt8}

namespace FileTree

/-- No file is made, changed or lost but the one at the place. -/
def KeepsOthers (place : Place) (tree tree' : FileTree) : Prop :=
  ∀ q content, q ≠ place → (tree'.entry? q = some (.file content) ↔ tree.entry? q = some (.file content))

theorem KeepsOthers.trans (h : KeepsOthers place tree tree') (h' : KeepsOthers place tree' tree'') :
    KeepsOthers place tree tree'' :=
  fun q content hq => (h' q content hq).trans (h q content hq)

theorem Makes.keepsOthers (h : Makes cwd tree tree') (place : Place) : KeepsOthers place tree tree' :=
  fun _ _ _ => h.file_iff

theorem keepsOthers_write (h : tree.write cwd p content = .ok tree') : KeepsOthers (Place.follow cwd p) tree tree' := by
  obtain ⟨-, hfree, rfl⟩ := exists_of_write h
  intro q content' hq
  rw [entry?_put (ne_nil_of_entry?_ne hfree), if_neg hq]

end FileTree

namespace Sink

/-! The characters of a file name -/

/-- Characters that stay in a file name wherever they stand in an id. -/
def isCore (c : Char) : Bool := c.isAlphanum || c = '-'

/-- Characters that a file name may have, but not at its start. -/
def isEdge (c : Char) : Bool := c = '.' || c = '_'

def core (t : Text) : Text := t.filter isCore

theorem isSafe_eq (c : Char) : isSafe c = (isCore c || isEdge c) := by
  simp only [isSafe, isCore, isEdge, Bool.or_assoc, Bool.or_comm, Bool.or_left_comm]

theorem isEdge_eq_false_of_isCore (h : isCore c = true) : isEdge c = false := by
  rw [Bool.eq_false_iff]
  intro hedge
  simp only [isEdge, Bool.or_eq_true, decide_eq_true_eq] at hedge
  rcases hedge with rfl | rfl <;> cases h

/-- All that a file name may be written with. -/
def nameLetters : Text := "abcdefghijklmnopqrstuvwxyzABCDEFGHIJKLMNOPQRSTUVWXYZ0123456789._-"

theorem toNat_lt_of_isSafe (h : isSafe c = true) : c.toNat < 128 := by
  simp only [isSafe, Bool.or_eq_true, decide_eq_true_eq] at h
  rcases h with ((h | rfl) | rfl) | rfl
  · have := Text.toNat_of_isAlphanum h
    omega
  all_goals decide

theorem mem_nameLetters_of_isSafe (h : isSafe c = true) : c ∈ nameLetters := by
  have hall : ∀ n : Fin 128, isSafe (Char.ofNat n) = true → Char.ofNat n ∈ nameLetters := by decide +kernel
  have hc := hall ⟨c.toNat, toNat_lt_of_isSafe h⟩
  simp only [Char.ofNat_toNat] at hc
  exact hc h

/-! From an id to a file name -/

theorem collapses_safeName (id : Text) : Text.Collapses (!isSafe ·) (fun _ => "_") id (safeName id) :=
  Text.collapses_substitute _ _ id

theorem isSafe_of_mem_safeName (hc : c ∈ safeName id) : isSafe c = true := by
  rcases (collapses_safeName id).mem hc with hsafe | ⟨_, hmark⟩
  · simpa using hsafe
  · obtain rfl : c = '_' := by simpa using hmark
    rfl

theorem core_safeName (id : Text) : core (safeName id) = core id := by
  refine (collapses_safeName id).filter_eq (fun c hc => ?_) fun _ => rfl
  rw [isSafe_eq, hc]
  rfl

/-- What is left of an id between the dots and underscores at its ends. -/
def inside (id : Text) : Text := Text.trim isEdge (safeName id)

theorem fileName_eq (id : Text) :
    fileName id = (if (inside id).isEmpty then "document".toList else inside id) ++ ".json" := rfl

theorem isSafe_of_mem_inside (hc : c ∈ inside id) : isSafe c = true :=
  isSafe_of_mem_safeName ((Text.trim_infix isEdge _).subset hc)

theorem core_eq_nil_of_isEdge {t : Text} (h : ∀ c ∈ t, isEdge c = true) : core t = [] := by
  refine List.filter_eq_nil_iff.mpr fun c hc hcore => ?_
  have hedge := h c hc
  rw [isEdge_eq_false_of_isCore hcore] at hedge
  cases hedge

theorem core_inside (id : Text) : core (inside id) = core id := by
  obtain ⟨b, e, hname, hb, he⟩ := Text.exists_trim isEdge (safeName id)
  have hsafe := core_safeName id
  rw [hname, core, List.filter_append, List.filter_append, ← core, ← core, ← core, core_eq_nil_of_isEdge hb,
    core_eq_nil_of_isEdge he, List.nil_append, List.append_nil] at hsafe
  exact hsafe

/-- An inside starts with a character that stays, so it is empty only where no character of the id does. -/
theorem inside_eq_nil_iff : inside id = [] ↔ core id = [] := by
  rw [← core_inside]
  constructor
  · intro hnil
    rw [hnil]
    rfl
  · intro hcore
    cases hinside : inside id with
    | nil => rfl
    | cons c t =>
      have hin : c ∈ inside id := hinside ▸ List.mem_cons_self
      have hedge : isEdge c = false := Text.head_trim isEdge (safeName id) c (by rw [← inside, hinside]; rfl)
      have hsafe := isSafe_of_mem_inside hin
      rw [isSafe_eq, hedge, Bool.or_false] at hsafe
      exact (List.filter_eq_nil_iff.mp hcore c hin hsafe).elim

/-- The letters, digits and hyphens of the id are all in the file name, in order. Where there are none, a word of its own
stands in for them. -/
theorem core_fileName (id : Text) :
    core (fileName id) = (if core id = [] then "document".toList else core id) ++ "json" := by
  have hending : core ".json" = "json" := rfl
  rw [fileName_eq, core, List.filter_append, ← core, ← core, hending]
  by_cases hnil : inside id = []
  · rw [if_pos (inside_eq_nil_iff.mp hnil), hnil]
    rfl
  · rw [if_neg (mt inside_eq_nil_iff.mpr hnil), if_neg (by simpa using hnil), core_inside]

/-- A name that stands for a file in any directory, and for one that is not hidden there. -/
structure IsResultName (name : Text) : Prop where
  letters : ∀ c ∈ name, c ∈ nameLetters
  ending : ∃ stem : Text, stem ≠ [] ∧ name = stem ++ ".json"
  visible : ∀ c ∈ name.head?, c ≠ '.' ∧ c ≠ '_'

theorem isResultName_append {stem : Text} (hne : stem ≠ []) (hletters : ∀ c ∈ stem, isSafe c = true)
    (hhead : ∀ c ∈ stem.head?, isEdge c = false) : IsResultName (stem ++ ".json") := by
  refine ⟨fun c hc => ?_, ⟨stem, hne, rfl⟩, fun c hc => ?_⟩
  · rcases List.mem_append.mp hc with hc | hc
    · exact mem_nameLetters_of_isSafe (hletters c hc)
    · have hending : (".json" : Text).all (· ∈ nameLetters) = true := by decide
      simpa using List.all_eq_true.mp hending c hc
  · rw [List.head?_append_of_ne_nil stem hne] at hc
    simpa [isEdge] using hhead c hc

theorem isResultName_fileName (id : Text) : IsResultName (fileName id) := by
  rw [fileName_eq]
  by_cases hnil : inside id = []
  · have hsafe : "document".toList.all isSafe = true := by decide
    rw [hnil]
    refine isResultName_append (by decide) (List.all_eq_true.mp hsafe) ?_
    rintro c ⟨⟩
    rfl
  · rw [if_neg (by simpa using hnil)]
    exact isResultName_append hnil (fun _ => isSafe_of_mem_inside) (Text.head_trim isEdge (safeName id))

theorem IsResultName.isName (h : IsResultName name) : Place.IsName name := by
  obtain ⟨stem, hne, rfl⟩ := h.ending
  refine ⟨by simp, ?_, ?_, fun hslash => ?_⟩
  · intro hdot
    exact (h.visible '.' (by rw [hdot]; rfl)).1 rfl
  · intro hdots
    exact (h.visible '.' (by rw [hdots]; rfl)).1 rfl
  · exact absurd (h.letters '/' hslash) (by decide)

/-! The file in its directory -/

/-- The path stands in the directory under the name, as it is written and wherever it is followed from. -/
structure IsChild (directory : Path) (name : Text) (p : Path) : Prop where
  parent : p.parent = directory
  joined : directory.below (.ofText name) = p
  leads : ∀ cwd, Place.follow cwd p = Place.follow cwd directory ++ [name]

theorem isChild_child (hname : Place.IsName name) : IsChild directory name (directory.child name) := by
  refine ⟨?_, ?_, fun cwd => Place.follow_child hname.2.2.1 cwd directory⟩
  · rw [Path.parent, Path.child, List.dropLast_concat]
  · rw [Path.ofText_name hname]
    rfl

/-- However it ends, a store touches no file but that of its document. -/
theorem keepsOthers_store (directory : Path) (id : Text) (o : Outcome) (h : Host) :
    FileTree.KeepsOthers (Place.follow h.cwd directory ++ [fileName id]) h.files
      ((Sink.json directory).store id o h).2.files := by
  have hstore : ((Sink.json directory).store id o h).2 = (writeJson directory id o h).2 := by
    rw [run_store_json]
    rcases writeJson directory id o h with ⟨stop | ⟨⟩, h₁⟩
    · cases stop <;> rfl
    · rfl
  rw [hstore, ← follow_fileFor, writeJson, Action.run_bind, Action.run_makeDirectories]
  cases hmade : h.files.ensureDirectories h.cwd directory with
  | error fault => exact (FileTree.makes_leftAbove _ _ _ _).keepsOthers _
  | ok made =>
    have hfirst := (FileTree.makes_ensureAbove hmade).keepsOthers (Place.follow h.cwd (fileFor directory id))
    dsimp only
    rw [Action.run_changeFiles]
    dsimp only
    cases hwrite : made.writeText h.cwd (fileFor directory id) (payload id o) with
    | error fault => exact hfirst
    | ok files => exact hfirst.trans (FileTree.keepsOthers_write hwrite)

/-- The file of any document is right in the directory of the results, under a name of plain characters that is neither
hidden nor empty before its ending and that keeps what it can of the id. To store an outcome touches no other file. -/
theorem result_file_stays (directory : Path) (id : Text) :
    IsChild directory (fileName id) (fileFor directory id) ∧ IsResultName (fileName id) ∧
      core (fileName id) = (if core id = [] then "document".toList else core id) ++ "json" ∧
      ∀ o h, FileTree.KeepsOthers (Place.follow h.cwd directory ++ [fileName id]) h.files
        ((Sink.json directory).store id o h).2.files := by
  have hname := isResultName_fileName id
  exact ⟨isChild_child hname.isName, hname, core_fileName id, keepsOthers_store directory id⟩

example : fileName "../../etc/.pass wd_" = "etc_.pass_wd.json" := by decide +kernel

end Sink
end Runbook
