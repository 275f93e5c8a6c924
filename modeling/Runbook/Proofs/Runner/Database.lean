import Runbook.Proofs.Files.Denotation
import Runbook.Proofs.Runner.Command

/-!
The database of a batch of statements that names none. Every process gets the same argument for it, a path that was put
together for the directory of the caller, and reads it from the workspace, where it runs.
-/
namespace Runbook

open Runbook.Action (CallsOnly callsOnly_log callsOnly_ofExcept callsOnly_pure callsSince_of_eq)

variable {α : Type} {C : Call → Prop} {s : Settings} {h start : Host} {l : Language} {p : SqlBatch} {root : Path}
  {database : Text} {argv : List Text} {directory : Option Path} {a : Allocator}

theorem Call.callsOnly_run {call : Call} (hcall : ∀ files, C { call with files }) (h : Host) :
    CallsOnly C call.run h := by
  unfold Call.run
  split
  · exact callsSince_of_eq rfl
  · have htool : ∀ tool, CallsOnly C (Action.hasTool tool) h := fun _ => callsSince_of_eq rfl
    refine (htool _).bind fun there h₁ _ => ?_
    split
    · have hstart : CallsOnly C call.start h₁ := by
        refine ⟨[_], rfl, fun c hc => ?_⟩
        rw [List.mem_singleton.mp hc]
        exact hcall _
      exact hstart.bind fun _ _ _ => callsOnly_ofExcept _ _
    · exact callsOnly_pure _ _

/-- A name that starts with a stem of some length is neither empty nor a step. -/
theorem Allocator.isName_nextName (hstem : '/' ∉ a.stem) (hlong : 2 < a.stem.length) (n : Nat) :
    Place.IsName (a.nextName n) := by
  have hslash : '/'.isAlphanum = false := by decide
  have hbar : '/' ∉ ("_" : Text) := by decide
  have hlength : 2 < (a.nextName n).length := by
    simp only [nextName, List.length_append]
    omega
  have hshort : ∀ t : Text, t.length ≤ 2 → a.nextName n ≠ t := by
    rintro t ht rfl
    omega
  refine ⟨hshort _ (by decide), hshort _ (by decide), hshort _ (by decide), ?_⟩
  simp only [nextName, List.mem_append, not_or]
  exact ⟨⟨⟨⟨⟨hstem, Text.not_mem_ofNat hslash _⟩, hbar⟩, Text.not_mem_hex hslash _ _⟩, hbar⟩, Text.not_mem_ofNat hslash _⟩

namespace Runner

/-! What a batch asks for -/

theorem callsOnly_command (hcall : ∀ call : Call, call.command = argv → call.directory = directory → C call)
    (input : Option Text) (environment : Option (Fields Text)) (h : Host) :
    CallsOnly C (command s argv directory input environment) h := by
  have hrun : ∀ call : Call, call.command = argv → call.directory = directory → ∀ h₁, CallsOnly C call.run h₁ :=
    fun call hcommand hdirectory => Call.callsOnly_run fun files => hcall _ hcommand hdirectory
  refine (callsOnly_log _ _ _ _).bind fun _ h₁ _ => (hrun _ rfl rfl h₁).bind fun run h₂ _ => ?_
  dsimp only
  split
  · exact (callsOnly_log _ _ _ _).bind fun _ _ _ => callsOnly_pure _ _
  · exact callsOnly_pure _ _

theorem callsOnly_runUnits {one : Text → Text → Action ProcessRun}
    (hone : ∀ label unit h, CallsOnly C (one label unit) h) (units : List (Text × Text)) (h : Host) :
    CallsOnly C (runUnits one units) h := by
  induction units generalizing h with
  | nil => exact callsOnly_pure _ _
  | cons unit units ih =>
    exact (hone unit.1 unit.2 h).bind fun run h₁ _ => (ih h₁).bind fun _ _ _ => callsOnly_pure _ _

theorem callsOnly_mock {r : Runner} {wouldRun : Text} {onNote : Text → Moment → Outcome} (h : Host) :
    CallsOnly C (r.mock s wouldRun onNote) h := by
  have hnow : CallsOnly C Action.now h := callsSince_of_eq rfl
  refine hnow.bind fun now h₁ _ => ?_
  split <;> exact (callsOnly_log _ _ _ _).bind fun _ _ _ => callsOnly_pure _ _

/-- Without room for a workspace nothing is asked for; with room it is what the body asks for there. -/
theorem callsOnly_inWorkspace {r : Runner} {body : Path → Action α} (hsound : h.IsSound)
    (hbody : ∀ start, Starts r s h start → CallsOnly C (body ((r.allocatorOf s h).nextPath h)) start) :
    CallsOnly C (r.inWorkspace s body) h := by
  by_cases hroom : r.hasRoom s h = true
  · obtain ⟨start, hstarts, hrun⟩ := exists_inWorkspace hroom hsound
    obtain ⟨cs, hcalls, hcs⟩ := hbody start hstarts
    rw [hstarts.calls] at hcalls
    exact ⟨cs, by rw [hrun body]; exact hcalls, hcs⟩
  · have hclosed : ∀ above files, ¬ (r.allocatorOf s h).Opens { h with allocators := h.allocators + 1 } above files := by
      intro above files ho
      exact hroom (Allocator.canOpen_eq_true_iff.mpr ⟨above, files, ho.baseName, ho.pathName, ho.ensured, ho.made⟩)
    have hsound₀ : Host.IsSound { h with allocators := h.allocators + 1 } := ⟨hsound.isTree, hsound.cwd⟩
    obtain ⟨stop, files, hstop, -⟩ := Allocator.exists_of_not_opens hsound₀ hclosed
    have hcreate : Allocator.create ("polyglot_" ++ r.name ++ "_") (workspaceRoot s) h =
        (.ok (r.allocatorOf s h), { h with allocators := h.allocators + 1 }) := rfl
    refine callsSince_of_eq ?_
    rw [inWorkspace, Action.run_bind, hcreate]
    dsimp only
    rw [Allocator.run_acquire_of_error hstop]

theorem callsOnly_execute {source : Source} {plan : Plan} (hplan : (ofLanguage s l).planOf s source = .ok (.ok plan))
    (htarget : (ofLanguage s l).target = some plan.target) (hrun : CallsOnly C ((ofLanguage s l).runPlan s plan) h) :
    CallsOnly C ((ofLanguage s l).execute s source) h := by
  have hattempt : CallsOnly C ((ofLanguage s l).attempt s source) h := by
    refine (callsOnly_ofExcept _ h).bind fun planned h₁ hplanned => ?_
    rw [hplan] at hplanned
    cases hplanned
    dsimp only
    rw [if_pos htarget]
    exact hrun
  rw [execute, if_neg (by simp [htarget])]
  refine hattempt.tryCatch fun stop h₁ => (callsOnly_log _ _ _ _).bind fun _ h₂ _ => ?_
  have hnow : CallsOnly C Action.now h₂ := callsSince_of_eq rfl
  exact hnow.bind fun _ _ _ => callsOnly_pure _ _

/-! Where workspaces are -/

variable {r : Runner}

theorem stem_allocatorOf (r : Runner) (s : Settings) (h : Host) :
    (r.allocatorOf s h).stem = ("polyglot_" : Text) ++ r.name ++ ("_" : Text) := rfl

theorem isName_nextName (hname : '/' ∉ r.name) (s : Settings) (h : Host) :
    Place.IsName ((r.allocatorOf s h).nextName h.processId) := by
  refine Allocator.isName_nextName ?_ ?_ h.processId
  · have hstem : '/' ∉ ("polyglot_" : Text) := by decide
    have hbar : '/' ∉ ("_" : Text) := by decide
    simp only [stem_allocatorOf, List.mem_append, not_or]
    exact ⟨⟨hstem, hname⟩, hbar⟩
  · have hstem : ("polyglot_" : Text).length = 9 := rfl
    simp only [stem_allocatorOf, List.length_append]
    omega

theorem nextPath_eq (hname : '/' ∉ r.name) (s : Settings) (h : Host) : (r.allocatorOf s h).nextPath h =
    ((r.allocatorOf s h).base h).child ((r.allocatorOf s h).nextName h.processId) := by
  rw [Allocator.nextPath, Path.ofText_name (isName_nextName hname s h)]
  rfl

theorem nextPlace_eq (hname : '/' ∉ r.name) (s : Settings) (h : Host) : (r.allocatorOf s h).nextPlace h =
    Place.follow h.cwd ((r.allocatorOf s h).base h) ++ [(r.allocatorOf s h).nextName h.processId] := by
  rw [Allocator.nextPlace, nextPath_eq hname, Place.follow_child (isName_nextName hname s h).2.2.1]

theorem base_eq (r : Runner) (s : Settings) (h : Host) :
    (r.allocatorOf s h).base h = (workspaceRoot s).getD (Path.ofPlace h.scratch) := rfl

theorem isWritten_base (hscratch : Place.IsNormal h.scratch) (r : Runner) (s : Settings) :
    ((r.allocatorOf s h).base h).IsWritten := by
  rw [base_eq, workspaceRoot]
  split
  · exact Path.isWritten_ofPlace hscratch
  · exact Path.isWritten_ofText _

/-! The database -/

/-- The argument for the database of a batch that names none: its file in the workspace, as the directory of the caller has
it. -/
def databaseArgument (s : Settings) (h : Host) : Text :=
  ((((ofLanguage s .sql).allocatorOf s h).nextPath h).child scratchDatabase).toText

/-- A process of the batch gets the argument and runs in the workspace. -/
structure Opens (s : Settings) (h : Host) (call : Call) : Prop where
  command : call.command = Text.ofStrings ["sqlite3", "-batch", "-bail"] ++ [databaseArgument s h]
  directory : call.directory = some (((ofLanguage s .sql).allocatorOf s h).nextPath h)
  started : ∃ start, Starts (ofLanguage s .sql) s h start

theorem slash_not_mem_name (s : Settings) : '/' ∉ (ofLanguage s .sql).name := by
  change '/' ∉ ("sql" : Text)
  decide

theorem isName_scratchDatabase : Place.IsName scratchDatabase := by decide

theorem databaseArgument_ne_nil (hscratch : Place.IsNormal h.scratch) (s : Settings) : databaseArgument s h ≠ [] := by
  have hname := slash_not_mem_name s
  refine Path.IsWritten.toText_ne_nil ?_ (by simp [Path.child])
  rw [nextPath_eq hname]
  exact ((isWritten_base hscratch _ s).child (isName_nextName hname s h)).child isName_scratchDatabase

theorem sqlCommand_of_database (hdatabase : database ≠ []) (statement : Text) :
    sqlCommand "sqlite3" (some database) statement =
      (Text.ofStrings ["sqlite3", "-batch", "-bail"] ++ [database], some statement) := by
  have hgiven : (some database).filter (· ≠ []) = some database := by simp [hdatabase]
  rw [sqlCommand]
  dsimp only
  rw [hgiven]
  rfl

theorem callsOnly_runSql (hsound : h.IsSound) (hscratch : Place.IsNormal h.scratch)
    (hclient : s.sqlClient.toText = "sqlite3".toList) (hnone : p.database = none) :
    CallsOnly (Opens s h) ((ofLanguage s .sql).runSql s p) h := by
  have hhost : CallsOnly (Opens s h) Action.host h := callsSince_of_eq rfl
  refine hhost.bind fun h' h₁ hsame => ?_
  cases hsame
  dsimp only
  split
  · refine CallsOnly.bind (callsOnly_inWorkspace hsound fun start hstarts => ?_) fun _ h₂ _ => ?_
    · refine callsOnly_runUnits (fun _ statement h₂ => ?_) _ _
      refine callsOnly_command (fun call hcommand hdirectory => ⟨?_, hdirectory, start, hstarts⟩) _ _ _
      have hchosen : databaseIn "sqlite3" none (((ofLanguage s .sql).allocatorOf s h).nextPath h) =
          some (databaseArgument s h) := rfl
      rw [hcommand, hclient, hnone, hchosen, sqlCommand_of_database (databaseArgument_ne_nil hscratch s)]
    · have hnow : CallsOnly (Opens s h) Action.now h₂ := callsSince_of_eq rfl
      exact hnow.bind fun _ _ _ => callsOnly_pure _ _
  · exact callsOnly_mock _

/-- Inside the workspace the argument denotes the file of the workspace that it was meant for. -/
def FindsDatabase (s : Settings) (h start : Host) : Prop :=
  start.files.Denotes (((ofLanguage s .sql).allocatorOf s h).nextPlace h) (databaseArgument s h)
    (((ofLanguage s .sql).allocatorOf s h).nextPlace h ++ [scratchDatabase])

theorem findsDatabase_iff (hstarts : Starts (ofLanguage s .sql) s h start) (hscratch : Place.IsNormal h.scratch) :
    FindsDatabase s h start ↔ ∀ root ∈ workspaceRoot s, root.isAbsolute = false →
      start.files.walk (((ofLanguage s .sql).allocatorOf s h).nextPlace h) root.names =
        .ok (Place.follow h.cwd root) := by
  have hname := slash_not_mem_name s
  have hplace := nextPlace_eq hname s h
  have hlocated := hstarts.made.located
  rw [FindsDatabase, databaseArgument]
  rw [nextPath_eq hname] at hlocated ⊢
  rw [FileTree.denotes_child_iff (isWritten_base hscratch _ s) (isName_nextName hname s h) isName_scratchDatabase
    (by decide) hplace hlocated hstarts.made.there]
  rw [base_eq]
  cases workspaceRoot s with
  | none => exact iff_of_true (.inl rfl) nofun
  | some root =>
    simp only [Option.getD_some, Option.mem_some_iff, forall_eq']
    cases root.isAbsolute <;> simp

theorem not_findsDatabase (hstarts : Starts (ofLanguage s .sql) s h start) (hscratch : Place.IsNormal h.scratch)
    (hroot : root ∈ workspaceRoot s) (hrelative : root.isAbsolute = false)
    (hback : root.names.head? ≠ some "..".toList) : ¬ FindsDatabase s h start := by
  have hbase : ((ofLanguage s .sql).allocatorOf s h).base h = root := by
    rw [base_eq, Option.mem_def.mp hroot]
    rfl
  have hplace := nextPlace_eq (slash_not_mem_name s) s h
  rw [hbase] at hplace
  rw [findsDatabase_iff hstarts hscratch]
  intro hfinds
  exact FileTree.walk_ne_follow hplace hstarts.made.there hstarts.made.empty hback (hfinds root hroot hrelative)

/-- All processes of a batch that names no database get one argument for it, and run in one workspace. There the argument
denotes the file of the workspace for every root that is absolute and for the scratch directory. For a relative root it
does so only where the root is found from the workspace as it is from outside, which takes a step back at its start. -/
theorem execute_opens_one_database {source : Source} (hsound : h.IsSound) (hscratch : Place.IsNormal h.scratch)
    (hclient : s.sqlClient.toText = "sqlite3".toList)
    (hplan : (ofLanguage s .sql).planOf s source = .ok (.ok (.sql p))) (hnone : p.database = none) :
    ∃ calls, ((ofLanguage s .sql).execute s source h).2.calls = h.calls ++ calls ∧ (∀ call ∈ calls, Opens s h call) ∧
      ∀ start, Starts (ofLanguage s .sql) s h start →
        (FindsDatabase s h start ↔ ∀ root ∈ workspaceRoot s, root.isAbsolute = false →
          start.files.walk (((ofLanguage s .sql).allocatorOf s h).nextPlace h) root.names =
            .ok (Place.follow h.cwd root)) ∧
        ∀ root ∈ workspaceRoot s, root.isAbsolute = false → root.names.head? ≠ some "..".toList →
          ¬ FindsDatabase s h start := by
  obtain ⟨calls, hcalls, hopens⟩ :=
    callsOnly_execute (l := .sql) hplan rfl (callsOnly_runSql hsound hscratch hclient hnone)
  refine ⟨calls, hcalls, hopens, fun start hstarts => ⟨findsDatabase_iff hstarts hscratch, ?_⟩⟩
  intro root hroot hrelative hback
  exact not_findsDatabase hstarts hscratch hroot hrelative hback

/-- Two statements and no database. -/
def twoStatements : SqlBatch := { statements := Text.ofStrings ["SELECT 1;", "SELECT 2;"], database := none }

theorem execute_opens_one_database_scratch :
    let h : Host := { tools := ["sqlite3"], scratch := ["tmp"], clock := default }
    let source := Source.plan (.ok (.sql twoStatements))
    ∃ calls start, ((ofLanguage {} .sql).execute {} source h).2.calls = calls ∧ calls.length = 2 ∧
      (∀ call ∈ calls, Opens {} h call) ∧ Starts (ofLanguage {} .sql) {} h start ∧ FindsDatabase {} h start := by
  intro h source
  have hsound : h.IsSound := ⟨.nil, rfl⟩
  have hplan : (ofLanguage {} .sql).planOf {} source = .ok (.ok (.sql twoStatements)) := rfl
  obtain ⟨calls, hcalls, hopens, hfinds⟩ := execute_opens_one_database hsound (by decide) rfl hplan rfl
  have hlength : ((ofLanguage {} .sql).execute {} source h).2.calls.length = 2 := by decide +kernel
  have hnone : h.calls ++ calls = calls := rfl
  rw [hcalls, hnone] at hlength
  obtain ⟨call, hcall⟩ := List.exists_mem_of_length_pos (l := calls) (by omega)
  obtain ⟨start, hstarts⟩ := (hopens call hcall).started
  exact ⟨calls, start, hcalls, hlength, hopens, hstarts, (hfinds start hstarts).1.mpr nofun⟩

/-- With a relative root the argument starts at the directory of the caller, and the processes run somewhere else. -/
theorem execute_relativeRoot :
    let s : Settings := { workspaceRoot := .text "ws" }
    let h : Host := { tools := ["sqlite3"], scratch := ["tmp"], clock := default }
    ((ofLanguage s .sql).execute s (.plan (.ok (.sql twoStatements))) h).2.calls.length = 2 ∧
      databaseArgument s h = "ws/polyglot_sql_1_00000000_1/polyglot.db" ∧
      ∃ start, Starts (ofLanguage s .sql) s h start ∧ ¬ FindsDatabase s h start := by
  intro s h
  have hscratch : Place.IsNormal h.scratch := by decide
  have hroom : (ofLanguage s .sql).hasRoom s h = true := by decide +kernel
  obtain ⟨start, hstarts, -⟩ := exists_inWorkspace hroom ⟨.nil, rfl⟩
  have hroot : (⟨0, ["ws"]⟩ : Path) ∈ workspaceRoot s := by decide
  exact ⟨by decide +kernel, by decide +kernel, start, hstarts, not_findsDatabase hstarts hscratch hroot rfl (by decide)⟩

end Runner
end Runbook
