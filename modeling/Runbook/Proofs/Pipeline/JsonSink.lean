import Mathlib.Data.List.Nodup
import Runbook.Pipeline.Sink
import Runbook.Proofs.Files.Directory
import Runbook.Proofs.Host.Action
import Runbook.Proofs.Json.Written
import Runbook.Proofs.Text.Search
import Runbook.Proofs.Text.Substitution
import Runbook.Proofs.Text.Utf8

/-!
A directory of JSON files keeps the outcome of every document as long as no two documents share a file name. Where two do,
the one that was stored first is lost.
-/
namespace Runbook.Sink

variable {id a b : Text} {o o' : Outcome} {directory : Path} {sink sink' : Sink} {h h' h₀ h₁ : Host} {cwd : Place}
  {records : List (Text × Outcome)} {content : List UInt8}

/-! File names -/

theorem follow_fileFor (cwd : Place) (directory : Path) (id : Text) :
    Place.follow cwd (fileFor directory id) = Place.follow cwd directory ++ [fileName id] := by
  have hname : fileName id ≠ ".." := by
    intro hup
    have hlast := congrArg List.getLast? hup
    rw [fileName, List.getLast?_append] at hlast
    cases hlast
  exact Place.follow_child hname cwd directory

/-- An id that is a file name as it stands: of characters that a name may have, with no dot or underscore at its ends. -/
structure IsFileWord (id : Text) : Prop where
  ne_nil : id ≠ []
  safe : ∀ c ∈ id, isSafe c = true
  head : ∀ c ∈ id.head?, c ≠ '.' ∧ c ≠ '_'
  last : ∀ c ∈ id.getLast?, c ≠ '.' ∧ c ≠ '_'

theorem IsFileWord.fileName_eq (hid : IsFileWord id) : fileName id = id ++ ".json" := by
  have hsafe : safeName id = id := by
    refine Text.substitute_of_silent (Text.silent_runOf_iff.mpr fun c hc => ?_)
    simp [hid.safe c hc]
  have htrim := Text.trim_run (b := []) (t := id) (q := []) (f := fun c => c = '.' || c = '_') (by simp) (by simp)
    (by simpa using hid.head) (by simpa using hid.last)
  rw [List.nil_append, List.append_nil] at htrim
  have hne : id.isEmpty = false := by simpa using hid.ne_nil
  simp [fileName, hsafe, htrim, hne]

/-! What a file tells -/

theorem exists_merge {α : Type} {key : Text} {v : α} {new : Fields α} (h : key ∉ Fields.keys new) (es : Fields α) :
    ∃ rest, Fields.merge ((key, v) :: es) new = (key, v) :: rest := by
  induction new generalizing es with
  | nil => exact ⟨es, rfl⟩
  | cons e new ih =>
    obtain ⟨k, w⟩ := e
    rw [Fields.keys, List.map_cons, List.mem_cons, not_or] at h
    obtain ⟨rest, hrest⟩ := ih h.2 (Fields.put k w es)
    have hput : Fields.put k w ((key, v) :: es) = (key, v) :: Fields.put k w es := by rw [Fields.put, if_neg h.1]
    have hfirst : Fields.merge ((key, v) :: es) ((k, w) :: new) = Fields.merge (Fields.put k w ((key, v) :: es)) new := rfl
    exact ⟨rest, by rw [hfirst, hput, hrest]⟩

theorem exists_join (sep t : Text) (ts : List Text) : ∃ rest, Text.join sep (t :: ts) = t ++ rest := by
  cases ts with
  | nil => exact ⟨[], (List.append_nil t).symm⟩
  | cons u ts => exact ⟨sep ++ Text.join sep (u :: ts), List.append_assoc ..⟩

/-- What stands before the id in every file. -/
def opening : Text := '\x7b' :: Json.lineAt 2 1 ++ Json.string true "document_id" ++ ": "

theorem exists_payload (id : Text) (o : Outcome) :
    ∃ rest, payload id o = opening ++ ('"' :: (id.flatMap (Json.escape true) ++ '"' :: rest)) := by
  have hnew : ("document_id" : Text) ∉ Fields.keys o.toFields := by
    cases he : o.error <;> simp [Outcome.toFields, he, Fields.keys, Fields.one, Fields.opt]
  obtain ⟨es, hes⟩ := exists_merge (v := Value.text id) hnew []
  obtain ⟨members, hmembers⟩ : ∃ members, payload id o = '\x7b' :: Json.lineAt 2 1 ++
      Text.join (',' :: Json.lineAt 2 1)
        ((Json.string true "document_id" ++ ": " ++ Json.string true id) :: members) ++ Json.lineAt 2 0 ++ ['\x7d'] := by
    refine ⟨Json.writeEntries ⟨true, some 2⟩ 1 (es.map fun e => (.text e.1, e.2)), ?_⟩
    rw [payload, Fields.one, hes, Json.print, Value.ofFields, List.map_cons, Json.write, Json.writeEntries, Json.write]
    rfl
  obtain ⟨rest, hrest⟩ := exists_join (',' :: Json.lineAt 2 1)
    (Json.string true "document_id" ++ ": " ++ Json.string true id) members
  refine ⟨rest ++ Json.lineAt 2 0 ++ ['\x7d'], ?_⟩
  rw [hmembers, hrest, opening, Json.string, Json.string]
  simp

/-- The file of a document tells its id. -/
theorem id_eq_of_payload (h : Text.utf8 (payload a o) = Text.utf8 (payload b o')) : a = b := by
  have hpayload := Text.utf8_injective h
  obtain ⟨r, hr⟩ := exists_payload a o
  obtain ⟨r', hr'⟩ := exists_payload b o'
  rw [hr, hr'] at hpayload
  -- both files begin alike up to the id, which is then read back from either
  have hrest := (List.cons.inj (List.append_cancel_left hpayload)).2
  have hread := Json.string?_string true a r
  rw [hrest, Json.string?_string] at hread
  exact (congrArg Prod.fst (Option.some.inj hread)).symm

/-! One document after the other -/

/-- Only a failure that is not one of the files stops a store. -/
theorem run_store_json : (Sink.json directory).store id o h =
    match writeJson directory id o h with
    | (.ok (), h₁) => (.ok (.ok true, .json directory), h₁)
    | (.error (.file _), h₁) => (.ok (.ok false, .json directory), h₁)
    | (.error stop, h₁) => (.error stop, h₁) := by
  rw [store]
  refine (Action.run_bind _ _ h).trans ?_
  rw [Action.run_tryCatch, Action.run_bind]
  rcases writeJson directory id o h with ⟨stop | ⟨⟩, h₁⟩
  · cases stop <;> rfl
  · rfl

/-- What a successful store does: the directory is there, and the file of the document in it. -/
theorem store_json_eq_ok_iff : (Sink.json directory).store id o h = (.ok (.ok true, sink'), h') ↔
    sink' = .json directory ∧ ∃ made files, h.files.ensureDirectories h.cwd directory = .ok made ∧
      made.writeText h.cwd (fileFor directory id) (payload id o) = .ok files ∧ h' = { h with files } := by
  have hwrite : writeJson directory id o h = (.ok (), h') ↔ ∃ made files,
      h.files.ensureDirectories h.cwd directory = .ok made ∧
      made.writeText h.cwd (fileFor directory id) (payload id o) = .ok files ∧ h' = { h with files } := by
    rw [writeJson, Action.bind_eq_ok_iff]
    constructor
    · rintro ⟨⟨⟩, h₁, hdirs, hfile⟩
      obtain ⟨made, hmade, rfl⟩ := Action.makeDirectories_eq_ok_iff.mp hdirs
      obtain ⟨files, hfiles, rfl⟩ := Action.changeFiles_eq_ok_iff.mp hfile
      exact ⟨made, files, hmade, hfiles, rfl⟩
    · rintro ⟨made, files, hmade, hfiles, rfl⟩
      exact ⟨(), _, Action.makeDirectories_eq_ok_iff.mpr ⟨made, hmade, rfl⟩,
        Action.changeFiles_eq_ok_iff.mpr ⟨files, hfiles, rfl⟩⟩
  rw [← hwrite, run_store_json]
  rcases writeJson directory id o h with ⟨stop | ⟨⟩, h₁⟩
  · constructor
    · intro hstored
      cases stop <;> cases hstored
    · rintro ⟨-, ⟨⟩⟩
  · constructor
    · rintro ⟨⟩
      exact ⟨rfl, rfl⟩
    · rintro ⟨rfl, ⟨⟩⟩
      rfl

/-- The file of the document holds the outcome. -/
def Holds (directory : Path) (h : Host) (r : Text × Outcome) : Prop :=
  h.files.read h.cwd (fileFor directory r.1) = .ok (Text.utf8 (payload r.1 r.2))

theorem holds_store (h : (Sink.json directory).store id o h₀ = (.ok (.ok true, sink'), h')) :
    Holds directory h' (id, o) := by
  obtain ⟨-, made, files, -, hfiles, rfl⟩ := store_json_eq_ok_iff.mp h
  exact FileTree.read_of_write hfiles

/-- A store leaves the files of all other names as they are. -/
theorem Holds.store {r : Text × Outcome} (hr : Holds directory h₀ r) (hne : fileName r.1 ≠ fileName id)
    (h : (Sink.json directory).store id o h₀ = (.ok (.ok true, sink'), h')) : Holds directory h' r := by
  obtain ⟨-, made, files, hmade, hfiles, rfl⟩ := store_json_eq_ok_iff.mp h
  refine FileTree.read_of_write_of_ne hfiles ?_ ((FileTree.grows_ensureDirectories hmade).read hr)
  rw [follow_fileFor, follow_fileFor]
  exact fun hsame => hne (List.cons.inj (List.append_cancel_left hsame)).1

/-- The outcomes are stored one after the other, each with success. -/
inductive StoresAll : Sink → Host → List (Text × Outcome) → Sink → Host → Prop
  | nil (sink : Sink) (h : Host) : StoresAll sink h [] sink h
  | cons {sink sink₁ sink' : Sink} {h h₁ h' : Host} {id : Text} {o : Outcome} {records : List (Text × Outcome)}
      (first : sink.store id o h = (.ok (.ok true, sink₁), h₁)) (rest : StoresAll sink₁ h₁ records sink' h') :
      StoresAll sink h ((id, o) :: records) sink' h'

/-- A file stays as it is until a document of the same file name comes. -/
theorem Holds.storesAll {r : Text × Outcome} (hrun : StoresAll (.json directory) h₀ records sink' h')
    (hr : Holds directory h₀ r) (hne : ∀ r' ∈ records, fileName r.1 ≠ fileName r'.1) : Holds directory h' r := by
  generalize hsink : Sink.json directory = sink at hrun
  induction hrun with
  | nil => exact hr
  | cons first rest ih =>
    subst hsink
    rw [List.forall_mem_cons] at hne
    obtain ⟨rfl, -⟩ := store_json_eq_ok_iff.mp first
    exact ih (hr.store hne.1 first) hne.2 rfl

/-- At the end every file holds the outcome that was stored last under its name. -/
theorem holds_of_storesAll {r : Text × Outcome} (before later : List (Text × Outcome))
    (hrun : StoresAll (.json directory) h₀ (before ++ r :: later) sink' h')
    (hlater : ∀ r' ∈ later, fileName r.1 ≠ fileName r'.1) : Holds directory h' r := by
  induction before generalizing h₀ with
  | nil =>
    cases hrun with
    | cons first rest =>
      obtain ⟨rfl, -⟩ := store_json_eq_ok_iff.mp first
      exact (holds_store first).storesAll rest hlater
  | cons _ before ih =>
    cases hrun with
    | cons first rest =>
      obtain ⟨rfl, -⟩ := store_json_eq_ok_iff.mp first
      exact ih rest

theorem id_eq_of_holds {r r' : Text × Outcome} (hr : Holds directory h r) (hr' : Holds directory h r')
    (hname : fileName r.1 = fileName r'.1) : r.1 = r'.1 := by
  rw [Holds, fileFor, hname, ← fileFor, hr'] at hr
  exact (id_eq_of_payload (Except.ok.inj hr)).symm

/-- The outcomes of distinct documents are all there at the end exactly when no two of the documents share a file name,
as is so where every id is a file name as it stands. -/
theorem holds_all_iff_nodup_fileName (hids : (records.map Prod.fst).Nodup)
    (hrun : StoresAll (.json directory) h records sink' h') :
    ((∀ r ∈ records, Holds directory h' r) ↔ (records.map fun r => fileName r.1).Nodup) ∧
      ((∀ r ∈ records, IsFileWord r.1) → ∀ r ∈ records, Holds directory h' r) := by
  -- with distinct names, each outcome is the last one of its name
  have hall (hnames : (records.map fun r => fileName r.1).Nodup) : ∀ r ∈ records, Holds directory h' r := by
    intro r hr
    obtain ⟨before, later, rfl⟩ := List.append_of_mem hr
    refine holds_of_storesAll before later hrun fun r' hr' hname => ?_
    rw [List.map_append, List.map_cons] at hnames
    exact (List.nodup_cons.mp hnames.of_append_right).1 (hname ▸ List.mem_map_of_mem hr')
  have hinj (hname : ∀ r ∈ records, ∀ r' ∈ records, fileName r.1 = fileName r'.1 → r.1 = r'.1) :
      (records.map fun r => fileName r.1).Nodup :=
    hids.of_map.map_on fun r hr r' hr' hsame => List.inj_on_of_nodup_map hids hr hr' (hname r hr r' hr' hsame)
  refine ⟨⟨fun hholds => hinj fun r hr r' hr' => id_eq_of_holds (hholds r hr) (hholds r' hr'), hall⟩, fun hwords => ?_⟩
  refine hall (hinj fun r hr r' hr' hname => ?_)
  rw [(hwords r hr).fileName_eq, (hwords r' hr').fileName_eq] at hname
  exact List.append_cancel_right hname

/-- A store into the working directory. -/
theorem store_json_here (hcwd : h.cwd = []) (hplace : h.files.locate [] (fileFor {} id) = .ok [fileName id])
    (hfree : h.files.entry? [fileName id] ≠ some .directory) : (Sink.json {}).store id o h =
      (.ok (.ok true, .json {}), { h with files := h.files.put [fileName id] (.file (Text.utf8 (payload id o))) }) := by
  refine store_json_eq_ok_iff.mpr ⟨rfl, h.files, _, ?_, ?_, rfl⟩
  · rw [hcwd]
    rfl
  · rw [FileTree.writeText, FileTree.write, hcwd, hplace]
    dsimp only
    rw [if_neg hfree]

theorem holds_all_buildDeploy :
    let h : Host := { clock := default }
    let records := [("build.md".toList, Outcome.success "docker" false [] default),
      ("deploy.md".toList, Outcome.success "kubernetes" true [] default)]
    ∃ sink' h', StoresAll (.json {}) h records sink' h' ∧ ∀ r ∈ records, Holds {} h' r := by
  intro h records
  have hrun : StoresAll (.json {}) h records _ _ :=
    .cons (store_json_here rfl rfl (by decide))
      (.cons (store_json_here rfl rfl (by simp only [h]; decide +kernel)) (.nil _ _))
  refine ⟨_, _, hrun, ?_⟩
  exact (holds_all_iff_nodup_fileName (by decide) hrun).1.mpr (by decide +kernel)

/-- Of two documents whose names differ in a slash and an underscore, only the second is left. -/
theorem not_holds_slashUnderscore :
    let h : Host := { clock := default }
    let slash := ("a/b".toList, Outcome.success "noop" false [] default)
    let underscore := ("a_b".toList, Outcome.success "noop" true [] default)
    ([slash, underscore].map Prod.fst).Nodup ∧
      ∃ sink' h', StoresAll (.json {}) h [slash, underscore] sink' h' ∧ ¬ Holds {} h' slash := by
  intro h slash underscore
  have hrun : StoresAll (.json {}) h [slash, underscore] _ _ :=
    .cons (store_json_here rfl rfl (by decide))
      (.cons (store_json_here rfl rfl (by simp only [h]; decide +kernel)) (.nil _ _))
  refine ⟨by decide, _, _, hrun, fun hslash => ?_⟩
  have hunderscore := holds_of_storesAll [slash] [] hrun (by simp)
  have hids : slash.1 = underscore.1 := id_eq_of_holds hslash hunderscore (by decide +kernel)
  exact absurd hids (by decide)

end Runbook.Sink
