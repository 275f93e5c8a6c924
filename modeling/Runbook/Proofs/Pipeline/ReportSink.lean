import Runbook.Pipeline.Sink
import Runbook.Proofs.Files.Directory
import Runbook.Proofs.Host.Action
import Runbook.Proofs.Report.Rendered
import Runbook.Proofs.Value.Fields

/-!
One report of all documents keeps the last outcome of each of them, also of those that could not be written when they
came. A call that does not write the report leaves all files as they were.
-/
namespace Runbook

variable {path : Path} {most : Int} {es : List ReportEntry} {h h' : Host} {id key : Text} {o : Outcome}
  {records : List (Text × Outcome)} {entries : Fields ReportEntry} {sink sink' : Sink}

namespace Report

/-- The report can be made, and so can the directory of its file and the file. -/
def CanBeWritten (path : Path) (most : Int) (es : List ReportEntry) (h : Host) : Prop :=
  ∃ t made files, render most h.clock es = .ok t ∧ h.files.ensureDirectories h.cwd path.parent = .ok made ∧
    made.writeText h.cwd path t = .ok files

/-- The report stands in its file where it can be written. Else it is refused before anything is done, or there are new
directories at the most. -/
theorem writeTo_cases (path : Path) (most : Int) (es : List ReportEntry) (h : Host) :
    (CanBeWritten path most es h ∧ ∃ t h', render most h.clock es = .ok t ∧
      writeTo path most es h = (.ok (.ok ()), h') ∧ h'.files.read h'.cwd path = .ok (Text.utf8 t)) ∨
    (¬ CanBeWritten path most es h ∧ ((∃ f, writeTo path most es h = (.ok (.error f), h)) ∨
      ∃ fault h', writeTo path most es h = (.error (.file fault), h') ∧ FileTree.Makes h.cwd h.files h'.files)) := by
  have hnow : Action.now h = (.ok h.clock, h) := rfl
  have hlog (level : LogLevel) (message : Text) (h : Host) : Action.log level "templates.renderer" message h =
      (.ok (), { h with journal := h.journal ++ [.of level "templates.renderer" message] }) := rfl
  rw [writeTo, Action.run_bind, hnow, CanBeWritten]
  dsimp only
  cases render most h.clock es with
  | error f =>
    refine .inr ⟨?_, .inl ⟨f, rfl⟩⟩
    rintro ⟨_, _, _, ⟨⟩, -⟩
  | ok t =>
    dsimp only
    rw [Action.run_bind, hlog]
    dsimp only
    rw [Action.run_bind, Action.run_makeDirectories]
    dsimp only
    cases hmade : h.files.ensureDirectories h.cwd path.parent with
    | error fault =>
      refine .inr ⟨?_, .inr ⟨fault, _, rfl, FileTree.makes_leftAbove ..⟩⟩
      rintro ⟨_, _, _, -, ⟨⟩, -⟩
    | ok made =>
      dsimp only
      rw [Action.run_bind, Action.run_changeFiles]
      dsimp only
      cases hfiles : made.writeText h.cwd path t with
      | error fault =>
        refine .inr ⟨?_, .inr ⟨fault, _, rfl, FileTree.makes_ensureAbove hmade⟩⟩
        rintro ⟨_, _, files, ⟨⟩, ⟨⟩, hwritten⟩
        rw [hfiles] at hwritten
        cases hwritten
      | ok files => exact .inl ⟨⟨t, made, files, rfl, rfl, hfiles⟩, t, _, rfl, rfl, FileTree.read_of_write hfiles⟩

end Report

namespace Sink

/-! One call -/

/-- What a call does to the host. With success the report of the entries stands in its file, else no file has changed. -/
structure Leaves (path : Path) (most : Int) (es : List ReportEntry) (h : Host) (answer : Except ReportFault Bool)
    (h' : Host) : Prop where
  succeeds : answer = .ok true ↔ Report.CanBeWritten path most es h
  written : answer = .ok true → ∃ t, Report.render most h.clock es = .ok t ∧ h'.files.read h'.cwd path = .ok (Text.utf8 t)
  kept : answer ≠ .ok true → ∀ q content,
    h'.files.entry? q = some (.file content) ↔ h.files.entry? q = some (.file content)

theorem leaves_of_not {answer : Except ReportFault Bool} (hcan : ¬ Report.CanBeWritten path most es h)
    (hanswer : answer ≠ .ok true) (hmakes : FileTree.Makes h.cwd h.files h'.files) : Leaves path most es h answer h' :=
  ⟨iff_of_false hanswer hcan, fun htrue => (hanswer htrue).elim, fun _ _ _ => hmakes.file_iff⟩

/-- The entries after a call, however it ends. -/
def added (id : Text) (o : Outcome) (entries : Fields ReportEntry) : Fields ReportEntry :=
  Fields.put id { document := id, outcome := o } entries

theorem run_store_report : (Sink.report path most entries).store id o h =
    match Report.writeTo path most ((added id o entries).map (·.2)) h with
    | (.ok (.ok ()), h₁) => (.ok (.ok true, .report path most (added id o entries)), h₁)
    | (.ok (.error (.unknownTemplate _)), h₁) => (.ok (.ok false, .report path most (added id o entries)), h₁)
    | (.ok (.error f), h₁) => (.ok (.error f, .report path most (added id o entries)), h₁)
    | (.error (.file _), h₁) => (.ok (.ok false, .report path most (added id o entries)), h₁)
    | (.error stop, h₁) => (.error stop, h₁) := by
  rw [store]
  refine (Action.run_bind _ _ h).trans ?_
  rw [Action.run_tryCatch, Action.run_bind, added]
  generalize Report.writeTo path most (Fields.put id _ entries |>.map (·.2)) h = ending
  rcases ending with ⟨stop | f | ⟨⟩, h₁⟩
  · cases stop <;> rfl
  · cases f <;> rfl
  · rfl

/-- A call always ends, and the outcome is among the entries in any case. -/
theorem exists_store_report (path : Path) (most : Int) (entries : Fields ReportEntry) (id : Text) (o : Outcome) (h : Host) :
    ∃ answer h', (Sink.report path most entries).store id o h =
        (.ok (answer, .report path most (added id o entries)), h') ∧
      Leaves path most ((added id o entries).map (·.2)) h answer h' := by
  rw [run_store_report]
  rcases Report.writeTo_cases path most ((added id o entries).map (·.2)) h with
    ⟨hcan, t, h', ht, hrun, hread⟩ | ⟨hcan, ⟨f, hrun⟩ | ⟨fault, h', hrun, hmakes⟩⟩
  · rw [hrun]
    exact ⟨.ok true, h', rfl, iff_of_true rfl hcan, fun _ => ⟨t, ht, hread⟩, fun hne => (hne rfl).elim⟩
  · rw [hrun]
    cases f with
    | unknownTemplate name => exact ⟨.ok false, h, rfl, leaves_of_not hcan nofun (.refl _)⟩
    | outOfRange => exact ⟨.error .outOfRange, h, rfl, leaves_of_not hcan nofun (.refl _)⟩
    | noSequence => exact ⟨.error .noSequence, h, rfl, leaves_of_not hcan nofun (.refl _)⟩
    | noText => exact ⟨.error .noText, h, rfl, leaves_of_not hcan nofun (.refl _)⟩
  · rw [hrun]
    exact ⟨.ok false, h', rfl, leaves_of_not hcan nofun hmakes⟩

theorem answer_of_run {answer : Except ReportFault Bool} {b : Bool} (hrun : sink.store id o h = (.ok (answer, sink'), h'))
    (hb : (sink.store id o h).1.toOption.bind (·.1.toOption) = some b) : answer = .ok b := by
  rw [hrun] at hb
  cases answer with
  | error f => cases hb
  | ok _ =>
    cases hb
    rfl

/-! Calls in a row -/

/-- The outcomes are stored one after the other. Each call finds a host of its own and may end in any way. -/
inductive Calls : Sink → List (Text × Outcome) → Sink → Prop
  | nil (sink : Sink) : Calls sink [] sink
  | concat {sink sink₁ sink' : Sink} {h h' : Host} {id : Text} {o : Outcome} {records : List (Text × Outcome)}
      {answer : Except ReportFault Bool} (before : Calls sink records sink₁)
      (last : sink₁.store id o h = (.ok (answer, sink'), h')) : Calls sink (records ++ [(id, o)]) sink'

/-- One entry for each document that was stored, in the order of its first outcome, with its last one. -/
structure IsLatest (records : List (Text × Outcome)) (es : List ReportEntry) : Prop where
  documents : es.map (·.document) = (Fields.keys records).eraseDups
  outcomes : ∀ e ∈ es, Fields.last? e.document records = some e.outcome
  languages : ∀ e ∈ es, e.language = none

/-- The entries that a sink has after some calls. -/
structure Collects (records : List (Text × Outcome)) (entries : Fields ReportEntry) : Prop where
  keys : Fields.keys entries = (Fields.keys records).eraseDups
  nodup : (Fields.keys entries).Nodup
  get? : ∀ key, Fields.get? key entries =
    (Fields.last? key records).map fun o => { document := key, outcome := o }

theorem collects_nil : Collects [] [] := ⟨rfl, List.nodup_nil, fun _ => rfl⟩

theorem Collects.put (hc : Collects records entries) (id : Text) (o : Outcome) :
    Collects (records ++ [(id, o)]) (added id o entries) := by
  refine ⟨?_, Fields.nodup_keys_merge hc.nodup [(id, _)], fun key => ?_⟩
  · have hkeys : Fields.keys (records ++ [(id, o)]) = Fields.keys records ++ [id] := List.map_append
    rw [added, Fields.keys_put, hkeys, List.eraseDups_append, hc.keys]
    by_cases hid : id ∈ Fields.keys records
    · simp [hid, List.removeAll]
    · simp [hid, List.removeAll, List.eraseDups_cons]
  · have hlast : Fields.last? key [(id, o)] = if id = key then some o else none := rfl
    rw [added, Fields.get?_put, hc.get?, Fields.last?_append, hlast]
    split
    · rename_i hkey
      subst hkey
      rfl
    · rfl

theorem exists_of_calls (hcalls : Calls (.report path most []) records sink) :
    ∃ entries, sink = .report path most entries ∧ Collects records entries := by
  generalize hfirst : Sink.report path most [] = first at hcalls
  induction hcalls with
  | nil => exact ⟨[], hfirst.symm, collects_nil⟩
  | @concat _ _ h _ id o _ _ _ last ih =>
    obtain ⟨entries, rfl, hc⟩ := ih
    obtain ⟨answer, h', hrun, -⟩ := exists_store_report path most entries id o h
    -- a call has one ending, so the one that is given is the one that is known
    cases last.symm.trans hrun
    exact ⟨_, rfl, hc.put id o⟩

theorem Collects.isLatest (hc : Collects records entries) : IsLatest records (entries.map (·.2)) := by
  have hentry : ∀ e ∈ entries, Fields.last? e.1 records = some e.2.outcome ∧ e.2.document = e.1 ∧ e.2.language = none := by
    intro e he
    have hget := (hc.get? e.1).symm.trans (Fields.get?_of_mem hc.nodup he)
    obtain ⟨o, ho, hentry⟩ := Option.map_eq_some_iff.mp hget
    rw [← hentry]
    exact ⟨ho, rfl, rfl⟩
  refine ⟨?_, List.forall_mem_map.mpr fun e he => ?_, List.forall_mem_map.mpr fun e he => (hentry e he).2.2⟩
  · rw [List.map_map, ← hc.keys]
    exact List.map_congr_left fun e he => (hentry e he).2.1
  · obtain ⟨hlast, hdocument, -⟩ := hentry e he
    rw [hdocument, hlast]

/-- Whatever calls there were before and however they ended, the sink has the last outcome of each document. When a call
says that it stored the outcome, the report in the file is of just these, and its head counts each document once. When it
does not, no file has changed. -/
theorem report_shows_latest (hcalls : Calls (.report path most []) records sink) (id : Text) (o : Outcome) (h : Host) :
    ∃ answer entries h', sink.store id o h = (.ok (answer, .report path most entries), h') ∧
      IsLatest (records ++ [(id, o)]) (entries.map (·.2)) ∧
      (answer = .ok true ↔ Report.CanBeWritten path most (entries.map (·.2)) h) ∧
      (answer = .ok true → ∃ t failed, Report.render most h.clock (entries.map (·.2)) = .ok t ∧
        h'.files.read h'.cwd path = .ok (Text.utf8 t) ∧
        Report.counts entries.length (Report.succeeded (entries.map (·.2))) failed <:+: t ∧
        Report.succeeded (entries.map (·.2)) + failed = (Fields.keys (records ++ [(id, o)])).eraseDups.length) ∧
      (answer ≠ .ok true → ∀ q content,
        h'.files.entry? q = some (.file content) ↔ h.files.entry? q = some (.file content)) := by
  obtain ⟨entries, rfl, hc⟩ := exists_of_calls hcalls
  obtain ⟨answer, h', hrun, hleaves⟩ := exists_store_report path most entries id o h
  have hlatest := (hc.put id o).isLatest
  refine ⟨answer, added id o entries, h', hrun, hlatest, hleaves.succeeds, fun hanswer => ?_, hleaves.kept⟩
  obtain ⟨t, ht, hread⟩ := hleaves.written hanswer
  obtain ⟨failed, hall, hcounts⟩ := Report.exists_counts_of_render ht
  rw [List.length_map] at hcounts
  refine ⟨t, failed, ht, hread, hcounts, ?_⟩
  rw [hall, ← hlatest.documents, List.length_map, List.length_map, List.length_map]

/-- The first outcome cannot be written, as there is a directory in the place of the file. A later call of the same document
replaces it. -/
theorem report_shows_latest_blockedFirst :
    let clock : Moment := ⟨⟨2024, 1, 2⟩, 3, 4, 5, 0, none⟩
    let path : Path := { names := ["report.md"] }
    let blocked : Host := { clock, files := [(["report.md"], .directory)] }
    let free : Host := { clock }
    let failed := Outcome.failure "docker" .toolFailed "boom" 1 [] clock
    let good := Outcome.success "docker" false [] clock
    ∃ sink₁ sink₂ h₁ h₂ entries h₃,
      (Sink.report path 40 []).store "a.md" failed blocked = (.ok (.ok false, sink₁), h₁) ∧
      sink₁.store "b.md" good free = (.ok (.ok true, sink₂), h₂) ∧
      sink₂.store "a.md" good free = (.ok (.ok true, .report path 40 entries), h₃) ∧
      entries.map (·.2.document) = ["a.md".toList, "b.md".toList] ∧
      ∃ t, Report.render 40 clock (entries.map (·.2)) = .ok t ∧ h₃.files.read h₃.cwd path = .ok (Text.utf8 t) := by
  intro clock path blocked free failed good
  obtain ⟨answer₁, h₁, hrun₁, -⟩ := exists_store_report path 40 [] "a.md" failed blocked
  obtain ⟨answer₂, h₂, hrun₂, -⟩ := exists_store_report path 40 (added "a.md" failed []) "b.md" good free
  have hcalls : Calls (.report path 40 []) [("a.md".toList, failed), ("b.md".toList, good)] _ :=
    ((Calls.nil _).concat hrun₁).concat hrun₂
  obtain ⟨answer₃, entries, h₃, hrun₃, hlatest, -, hwritten, -⟩ := report_shows_latest hcalls "a.md" good free
  obtain rfl := answer_of_run hrun₁ (b := false) (by decide +kernel)
  obtain rfl := answer_of_run hrun₂ (b := true) (by decide +kernel)
  obtain rfl := answer_of_run hrun₃ (b := true) (by decide +kernel)
  obtain ⟨t, -, ht, hread, -⟩ := hwritten rfl
  have hdocuments := hlatest.documents
  rw [List.map_map] at hdocuments
  exact ⟨_, _, h₁, h₂, entries, h₃, hrun₁, hrun₂, hrun₃, hdocuments.trans (by decide), t, ht, hread⟩

end Sink
end Runbook
