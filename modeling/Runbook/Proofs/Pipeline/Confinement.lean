import Runbook.Pipeline.Provider
import Runbook.Proofs.Files.Reduction
import Runbook.Proofs.Host.Action

/-!
What documents a directory gives away. They are all files below it, unless what should be the directory is a file itself,
which is then given for every id that leads nowhere else.
-/
namespace Runbook.Provider

open Place (IsConfined IsNormal LeadsTo components)

variable {root place : Place} {id t : Text} {h h' : Host}

/-- A regular file at the place holds the text. -/
def HoldsAt (h : Host) (place : Place) (t : Text) : Prop :=
  ∃ content, h.files.entry? place = some (.file content) ∧ (Text.ofUtf8? content).map Text.anyLines = some t

/-- The file at the place holds the text, and neither a name nor the whole path of it is too long to find it. -/
def FindsAt (h : Host) (place : Place) (t : Text) : Prop :=
  h.files.locate h.cwd (.ofPlace place) = .ok place ∧ HoldsAt h place t

theorem findsAt_iff (hplace : IsNormal place) : FindsAt h place t ↔ ∃ content,
    h.files.stat h.cwd (.ofPlace place) = .ok (.file content) ∧ (Text.ofUtf8? content).map Text.anyLines = some t := by
  simp only [FileTree.stat_eq_ok_iff, Place.follow_ofPlace hplace.not_mem, FindsAt, HoldsAt, and_assoc, exists_and_left]

/-- An id names the file to which it leads, and there is no text of any other. -/
theorem get_files_eq_ok_iff (hroot : IsNormal root) (hid : '\x00' ∉ id) :
    get id (.files root) h = (.ok (some t), h') ↔ h' = h ∧ ∃ place, LeadsTo (components root id) place ∧ root <+: place ∧ FindsAt h place t := by
  have hhost : Action.host h = (.ok h, h) := rfl
  simp only [Place.leadsTo_components_iff hroot, exists_eq_left, findsAt_iff (Place.isNormal_follow hroot id)]
  simp only [get, readFile, if_neg hid, Place.isWithin_iff]
  by_cases hin : root <+: Place.follow root (.ofText id)
  · rw [if_pos hin, Action.run_bind, hhost, and_iff_right hin]
    dsimp only
    cases h.files.stat h.cwd (.ofPlace (Place.follow root (.ofText id))) with
    | error cause =>
      refine iff_of_false ?_ (by simp)
      cases cause <;> rintro ⟨⟩
    | ok e =>
      cases e with
      | directory => exact iff_of_false nofun (by simp)
      | file content =>
        constructor
        · intro hget
          obtain ⟨htold, hsame⟩ := Prod.ext_iff.mp hget
          exact ⟨hsame.symm, content, rfl, Except.ok.inj htold⟩
        · rintro ⟨rfl, _, ⟨⟩, htold⟩
          rw [← htold]
          rfl
  · rw [if_neg hin]
    exact iff_of_false nofun fun hthere => hin hthere.2.1

/-- Every text that is given for an id is held by a regular file below the root, to which the id leads. -/
def OnlyBelow (root : Place) (h : Host) : Prop :=
  ∀ id t h', '\x00' ∉ id → get id (.files root) h = (.ok (some t), h') →
    ∃ place, LeadsTo (components root id) place ∧ root <+: place ∧ place ≠ root ∧ HoldsAt h place t

/-- The document of no name is what the root itself holds. -/
theorem get_nil_iff (hroot : IsNormal root) : get [] (.files root) h = (.ok (some t), h) ↔ FindsAt h root t := by
  have hcut : LeadsTo (components root []) root := (Place.leadsTo_components_iff hroot).mpr rfl
  rw [get_files_eq_ok_iff hroot List.not_mem_nil]
  constructor
  · rintro ⟨-, place, hplace, -, hfound⟩
    rwa [hcut.reduce_eq.symm.trans hplace.reduce_eq]
  · exact fun hfound => ⟨rfl, root, hcut, List.prefix_rfl, hfound⟩

theorem onlyBelow_iff (hroot : IsNormal root) : OnlyBelow root h ↔ ∀ t, ¬ FindsAt h root t := by
  constructor
  · intro hbelow t hfound
    obtain ⟨place, hplace, -, hne, -⟩ := hbelow [] t h List.not_mem_nil ((get_nil_iff hroot).mpr hfound)
    rw [Place.leadsTo_components_iff hroot] at hplace
    exact hne hplace
  · intro hroot' id t h' hid hget
    obtain ⟨-, place, hplace, hin, hfound⟩ := (get_files_eq_ok_iff hroot hid).mp hget
    refine ⟨place, hplace, hin, ?_, hfound.2⟩
    rintro rfl
    exact hroot' t hfound

/-- Where the root is a directory, as it should be, all documents are below it. -/
theorem onlyBelow_of_directory (hroot : IsNormal root) (hdir : h.files.entry? root = some .directory) :
    OnlyBelow root h := by
  rw [onlyBelow_iff hroot]
  rintro t ⟨-, content, hfile, -⟩
  cases hdir.symm.trans hfile

/-- Paths are confined to the root from which they are read. So are the documents of a provider, but for the root itself:
a text is given for an id exactly where the id leads to a file at the root or below it, and all texts are from below
exactly where the root is no file that can be read. -/
theorem paths_are_confined (hroot : IsNormal root) : (∀ rel, IsConfined root rel) ∧
    (∀ h id t h', '\x00' ∉ id → (get id (.files root) h = (.ok (some t), h') ↔
      h' = h ∧ ∃ place, LeadsTo (components root id) place ∧ root <+: place ∧ FindsAt h place t)) ∧
    ∀ h, OnlyBelow root h ↔ ∀ t, ¬ FindsAt h root t :=
  ⟨Place.isConfined hroot, fun _ _ _ _ => get_files_eq_ok_iff hroot, fun _ => onlyBelow_iff hroot⟩

def docs : Place := ["srv".toList, "docs".toList]

/-- A root, and a path that leads below it by way of a step back. -/
theorem paths_are_confined_docs : IsNormal docs ∧ (∀ h, OnlyBelow docs h ↔ ∀ t, ¬ FindsAt h docs t) ∧
    ∃ left, (∀ q, Place.Reduces [".".toList, "a".toList, [], "..".toList, "b".toList] q ↔ q = left) ∧
      Place.inside? docs (.ofText "./a//../b".toList) = some (docs ++ left) := by
  have hroot : IsNormal docs := by decide
  obtain ⟨hrel, -, hprovider⟩ := paths_are_confined hroot
  refine ⟨hroot, hprovider, (hrel "./a//../b".toList).nested (by decide) ⟨fun before hbefore => ?_, by decide⟩⟩
  rw [← List.mem_inits] at hbefore
  revert before
  decide

/-- A host with one file. -/
def oneFile : Host := { files := [(["a.md".toList], .file (Text.utf8 "x"))], clock := default }

theorem not_onlyBelow_oneFile : IsNormal ["a.md".toList] ∧ '\x00' ∉ ".".toList ∧
    get ".".toList (.files ["a.md".toList]) oneFile = (.ok (some "x".toList), oneFile) ∧
    ¬ OnlyBelow ["a.md".toList] oneFile := by
  have hroot : IsNormal ["a.md".toList] := by decide
  have hfound : FindsAt oneFile ["a.md".toList] "x" := ⟨by decide, Text.utf8 "x", by decide, by decide +kernel⟩
  refine ⟨hroot, by decide, ?_, fun hbelow => (onlyBelow_iff hroot).mp hbelow _ hfound⟩
  refine (get_files_eq_ok_iff hroot (by decide)).mpr ⟨rfl, _, ?_, List.prefix_rfl, hfound⟩
  exact (Place.leadsTo_components_iff hroot).mpr (by decide)

end Runbook.Provider
