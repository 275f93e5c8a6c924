import Mathlib.Data.List.Forall2
import Runbook.Proofs.Host.Workspace
import Runbook.Proofs.Runner.Execution
import Runbook.Proofs.Value.Fault

/-!
A batch goes on whatever becomes of its units: every unit has its own process, in order, and the outcome tells of each of
them how it ended.
-/
namespace Runbook

open Runbook.Action (Does Spawned does_pure does_host does_now does_log does_changeFiles Ends)

variable {α : Type} {r : Runner} {s : Settings} {l : Language} {h h' : Host} {e : Ending} {es rest : List Ending}
  {labels : List Text} {outcomes : List UnitOutcome} {call : Call} {calls : List Call} {P : List Call → α → Prop}

namespace Ending

/-- The kind of failure that an ending stands for; only an exit with code 0 is none. -/
def failure? : Ending → Option FailureKind
  | .exit code _ _ => if code = 0 then none else some .toolFailed
  | .expiry _ => some .timeout
  | .refusal _ | .failure _ => some .invocationFailed
  | .crash _ => some .unhandled

def IsCrash : Ending → Prop
  | .crash _ => True
  | _ => False

end Ending

/-- The tool that a command names is there. -/
def Host.Offers (h : Host) (argv : List Text) : Prop := ∃ tool ∈ argv.head?, tool ∈ h.tools

/-- The entry of a unit tells how its process has ended. -/
structure UnitOutcome.Reports (u : UnitOutcome) (e : Ending) : Prop where
  isOk : u.isOk = e.failure?.isNone
  error : u.error = e.failure?
  code : u.isOk = false → u.code ≠ 0

/-! One process -/

theorem Call.reports_of_ended {run : ProcessRun} (hrun : call.ended e = .ok run) (label : Text) :
    (run.toUnit label).Reports e := by
  cases e with
  | exit code output errors =>
    cases hrun
    by_cases hcode : code = 0
    · subst hcode
      exact ⟨rfl, rfl, fun hfailed => by cases hfailed⟩
    · constructor
      · simp [ProcessRun.toUnit, ProcessRun.isOk, Ending.failure?, hcode]
      · simp [ProcessRun.toUnit, ProcessRun.error?, ProcessRun.isOk, Ending.failure?, hcode]
      · intro _
        exact hcode
  | expiry output | refusal message | failure message =>
    cases hrun
    exact ⟨rfl, rfl, fun _ => by simp [ProcessRun.toUnit]⟩
  | crash message => cases hrun

theorem Call.exists_ended (call : Call) (he : ¬ e.IsCrash) : ∃ run, call.ended e = .ok run := by
  cases e with
  | crash message => exact (he trivial).elim
  | _ => exact ⟨_, rfl⟩

/-- A process that is started takes the next ending. -/
theorem Call.does_start (call : Call) (hes : h.endings = e :: es) :
    ∃ files h', Does call.start h [{ call with files }] e h' := by
  have hnext : h.endings.headD .usual = e := by simp [hes]
  refine ⟨call.directory.map fun d => h.files.listing (Place.follow h.cwd d), (call.start h).2, ?_, rfl, ?_, rfl⟩
  · exact Prod.ext (congrArg Except.ok hnext) rfl
  · exact List.drop_one.symm

/-- A command whose tool is there is started, and then ends. -/
theorem Call.run_of_offers (htool : h.Offers call.command) :
    call.run h = (call.start >>= fun e => (MonadExcept.ofExcept (call.ended e) : Action ProcessRun)) h := by
  obtain ⟨tool, hhead, hmem⟩ := htool
  obtain ⟨rest, hcommand⟩ := List.head?_eq_some_iff.mp hhead
  have hthere : Action.hasTool tool h = (.ok true, h) := Prod.ext (congrArg Except.ok (decide_eq_true hmem)) rfl
  rw [Call.run, hcommand]
  dsimp only
  rw [Action.run_bind, hthere]
  dsimp only
  rw [if_pos rfl]

theorem Call.does_run {run : ProcessRun} (htool : h.Offers call.command) (hes : h.endings = e :: es)
    (hrun : call.ended e = .ok run) : ∃ files h', Does call.run h [{ call with files }] run h' := by
  obtain ⟨files, h', hstart⟩ := call.does_start hes
  have hended : Does (MonadExcept.ofExcept (call.ended e) : Action ProcessRun) h' [] run h' := by
    rw [hrun]
    exact does_pure run h'
  have hwhole := hstart.bind (f := fun ending => MonadExcept.ofExcept (call.ended ending)) hended
  exact ⟨files, h', (call.run_of_offers htool).trans hwhole.run, hwhole.spawned⟩

namespace Runner

/-- A tool that is there runs and takes the next ending. -/
theorem does_command (argv : List Text) {input : Option Text} (htool : h.Offers argv)
    (hes : h.endings = e :: es) (he : ¬ e.IsCrash) (directory : Option Path) (environment : Option (Fields Text)) :
    ∃ call run h', Does (command s argv directory input environment) h [call] run h' ∧
      call.command = argv ∧ call.input = input ∧ ∀ label, (run.toUnit label).Reports e := by
  obtain ⟨h₁, hlog⟩ := does_log .info "executors.base" ("Running " ++ spaced argv) h
  let call : Call := { command := argv, directory, input, environment, timeout := some (.whole s.timeout) }
  obtain ⟨run, hended⟩ := call.exists_ended he
  have htool₁ : h₁.Offers call.command := by rwa [Host.Offers, hlog.spawned.tools]
  have hes₁ : h₁.endings = e :: es := hlog.spawned.endings.trans hes
  obtain ⟨files, h₂, hrun⟩ := call.does_run htool₁ hes₁ hended
  have hreports := Call.reports_of_ended hended
  by_cases hok : run.isOk = true
  · refine ⟨_, run, h₂, hlog.seq (hrun.bind ?_), rfl, rfl, hreports⟩
    simpa [hok] using does_pure run h₂
  · obtain ⟨h₃, htold⟩ := does_log .error "executors.base" (argv.headD [] ++ " exited with " ++ Text.ofInt run.code ++
      " (" ++ run.outcome.name ++ ")") h₂
    refine ⟨_, run, h₃, hlog.seq (hrun.bind ?_), rfl, rfl, hreports⟩
    dsimp only
    rw [if_pos (by simpa using hok)]
    exact htold.andPure fun _ => run

/-! All processes -/

/-- One process carries the unit, and the entry of the unit tells how it has ended. -/
def RunsUnit (one : Text → Text → Action ProcessRun) (tool : Text) (Carries : Call → Text → Prop) : Prop :=
  ∀ label unit h e es, tool ∈ h.tools → h.endings = e :: es → ¬ e.IsCrash →
    Ends (one label unit) h fun cs run => ∃ call, cs = [call] ∧ Carries call unit ∧ (run.toUnit label).Reports e

/-- The processes carry the units in their order, and so the entries of the outcome stand. -/
structure Covers (Carries : Call → Text → Prop) (units : List (Text × Text)) (es : List Ending) (calls : List Call)
    (outcomes : List UnitOutcome) : Prop where
  calls : List.Forall₂ Carries calls (units.map (·.2))
  labels : outcomes.map (·.unit) = units.map (·.1)
  reports : List.Forall₂ UnitOutcome.Reports outcomes es

/-- Every unit runs, whatever became of those before it. -/
theorem ends_runUnits {one : Text → Text → Action ProcessRun} {tool : Text} {Carries : Call → Text → Prop}
    (hone : RunsUnit one tool Carries) (units : List (Text × Text)) {h : Host} {es rest : List Ending}
    (htool : tool ∈ h.tools) (hes : h.endings = es ++ rest) (hlength : es.length = units.length)
    (hcalm : ∀ e ∈ es, ¬ e.IsCrash) : Ends (runUnits one units) h (Covers Carries units es) := by
  induction units generalizing h es with
  | nil =>
    rw [List.length_nil, List.length_eq_zero_iff] at hlength
    subst hlength
    exact ⟨[], [], h, does_pure [] h, .nil, rfl, .nil⟩
  | cons u units ih =>
    obtain ⟨label, unit⟩ := u
    cases es with
    | nil => cases hlength
    | cons e es =>
      obtain ⟨cs, run, h₁, hfirst, call, rfl, hcarries, hreports⟩ :=
        hone label unit h e (es ++ rest) htool hes (hcalm e List.mem_cons_self)
      have htool₁ : tool ∈ h₁.tools := by rwa [hfirst.spawned.tools]
      have hes₁ : h₁.endings = es ++ rest := by simp [hfirst.spawned.endings, hes]
      obtain ⟨calls, outcomes, h₂, hrest, hcovers⟩ :=
        ih htool₁ hes₁ (Nat.succ.inj hlength) fun e he => hcalm e (List.mem_cons_of_mem _ he)
      refine ⟨call :: calls, run.toUnit label :: outcomes, h₂, ?_, ?_, ?_, ?_⟩
      · exact hfirst.bind (hrest.andPure (run.toUnit label :: ·))
      · exact .cons hcarries hcovers.calls
      · exact congrArg (label :: ·) hcovers.labels
      · exact .cons hreports hcovers.reports

/-! Workspaces and files -/

/-- The allocator of a run. -/
def allocatorOf (r : Runner) (s : Settings) (h : Host) : Allocator :=
  { stem := "polyglot_" ++ r.name ++ "_", root := workspaceRoot s, token := h.allocators }

/-- A workspace can be made: the directories above it, and then the workspace itself. -/
def hasRoom (r : Runner) (s : Settings) (h : Host) : Bool := (r.allocatorOf s h).canOpen h

theorem exists_of_hasRoom (hroom : r.hasRoom s h) : ∃ above files,
    (r.allocatorOf s h).Opens { h with allocators := h.allocators + 1 } above files := by
  obtain ⟨above, files, ho⟩ := Allocator.canOpen_eq_true_iff.mp hroom
  exact ⟨above, files, ho.baseName, ho.pathName, ho.ensured, ho.made⟩

theorem ends_inWorkspace {body : Path → Action α} (hroom : r.hasRoom s h)
    (hbody : ∀ path h₁, Spawned [] h h₁ → Ends (body path) h₁ P) : Ends (r.inWorkspace s body) h P := by
  obtain ⟨above, files, ho⟩ := exists_of_hasRoom hroom
  set a := r.allocatorOf s h
  set h₀ : Host := { h with allocators := h.allocators + 1 }
  have hcreated : Does (Allocator.create ("polyglot_" ++ r.name ++ "_") (workspaceRoot s)) h [] a h₀ :=
    ⟨rfl, rfl, rfl, (List.append_nil _).symm⟩
  have hentered : Does a.enter h₀ [] (a.nextPath h₀) (a.entered h₀ files) :=
    ⟨Allocator.run_enter ho, rfl, rfl, (List.append_nil _).symm⟩
  refine hcreated.ends (hentered.ends ?_)
  obtain ⟨cs, x, h₁, hdoes, hp⟩ :=
    hbody (a.nextPath h₀) (a.entered h₀ files) ⟨rfl, rfl, (List.append_nil _).symm⟩
  have hleft : Does (Allocator.leave (a.nextPath h₀)) h₁ [] () (Allocator.removed (a.nextPath h₀) h₁) :=
    ⟨Allocator.run_leave _ h₁, rfl, rfl, (List.append_nil _).symm⟩
  exact ⟨cs, x, _, hdoes.andFinally hleft, hp⟩

/-- A file whose path has no octet of zero stops nothing, whether it can be written or not. -/
theorem does_writeFile {path : Text} (hpath : '\x00' ∉ path) (root : Place) (content : Text) (h : Host) :
    ∃ error h', Does (writeFile root path content) h [] error h' := by
  unfold writeFile
  rw [if_neg hpath]
  cases hinside : Place.inside? root (Path.ofText path) with
  | none =>
    obtain ⟨h₁, hlog⟩ := does_log .error "executors.git" ("Refusing to write " ++ path ++ ": path escapes the workspace") h
    exact ⟨_, h₁, hlog.andPure fun _ => some "path escapes the workspace".toList⟩
  | some place =>
    dsimp only
    set file := Path.ofPlace place
    have hwritten : Action.Quiet (do
        Action.makeDirectories file.parent
        Action.changeFiles fun files cwd => files.writeText cwd file content
        pure (none : Option Text)) h := by
      refine (Action.quiet_makeDirectories _ h).bind fun _ h₁ => (Action.quiet_changeFiles _ h₁).bind fun _ h₂ => ?_
      exact .inl ⟨none, h₂, does_pure none h₂⟩
    refine hwritten.tryCatch fun fault h₁ => ?_
    obtain ⟨h₂, hlog⟩ := does_log .error "executors.git" ("Cannot write " ++ path ++ ": " ++ fault.message) h₁
    exact ⟨_, h₂, hlog.andPure fun _ => some fault.message⟩

theorem does_writeFiles {files : Fields Text} (hpaths : ∀ path ∈ Fields.keys files, '\x00' ∉ path) (root : Place)
    (h : Host) : ∃ errors h', Does (writeFiles root files) h [] errors h' := by
  induction files generalizing h with
  | nil => exact ⟨[], h, does_pure [] h⟩
  | cons file files ih =>
    obtain ⟨path, content⟩ := file
    rw [Fields.keys, List.map_cons, List.forall_mem_cons] at hpaths
    obtain ⟨error, h₁, hfirst⟩ := does_writeFile hpaths.1 root content h
    obtain ⟨errors, h₂, hrest⟩ := ih hpaths.2 h₁
    exact ⟨_, h₂, hfirst.seq (hrest.andPure _)⟩

end Runner

/-! The outcome -/

theorem Outcome.countP_isOk (h : List.Forall₂ UnitOutcome.Reports outcomes es) :
    (outcomes.filter (·.isOk)).length = es.countP (·.failure?.isNone) := by
  induction h with
  | nil => rfl
  | @cons u e outcomes es hu _ ih =>
    by_cases hok : u.isOk = true
    · have he : e.failure?.isNone = true := hu.isOk.symm.trans hok
      simp [hok, he, ih]
    · have he : ¬ e.failure?.isNone = true := by rwa [← hu.isOk]
      simp [hok, he, ih]

theorem Outcome.countP_add (es : List Ending) :
    es.length = es.countP (·.failure?.isNone) + es.countP (·.failure?.isSome) := by
  induction es with
  | nil => rfl
  | cons e es ih =>
    cases hfailure : e.failure? with
    | none | some kind =>
      simp [hfailure]
      omega

theorem Outcome.count_of_get? {o : Outcome} {key : Text} {n : Int}
    (h : Fields.get? key o.details = some (.int n)) : o.count key = .ok n := by
  simp [count, h, Value.toInteger]

/-- The outcome of a batch is a success that tells of each unit in order how its process has ended, and counts them. -/
structure Outcome.Tells (o : Outcome) (labels : List Text) (es : List Ending) : Prop where
  isOk : o.isOk = true
  mock : o.mock = false
  labels : o.units.map (·.unit) = labels
  reports : List.Forall₂ UnitOutcome.Reports o.units es
  results : Fields.get? "results" o.details = some (.list (o.units.map UnitOutcome.toValue))
  counts : ∃ applied failed : Nat, o.applied = .ok applied ∧ o.failed = .ok failed ∧
    applied + failed = es.length ∧ failed = es.countP (·.failure?.isSome)

/-- A batch counts its units, whatever details stand beside the counts. -/
theorem Outcome.counts_batch {details : Fields Value}
    (hd : ["applied", "failed", "results"].all fun key => key.toList ∉ Fields.keys details) (target : Text)
    (units : List UnitOutcome) (mock : Bool) (now : Moment) :
    Fields.get? "results" (batch target units mock details now).details = some (.list (units.map UnitOutcome.toValue)) ∧
      (batch target units mock details now).applied = .ok (units.filter (·.isOk)).length ∧
      (batch target units mock details now).failed = .ok (units.length - (units.filter (·.isOk)).length : Nat) := by
  have hget : ∀ key ∈ ["applied", "failed", "results"], ∀ base,
      Fields.get? key.toList (Fields.merge base details) = Fields.get? key.toList base := by
    intro key hkey base
    have hkeys := List.all_eq_true.mp hd key hkey
    exact Fields.get?_merge_of_not_mem (by simpa using hkeys) base
  exact ⟨hget "results" (by simp) _, count_of_get? (hget "applied" (by simp) _), count_of_get? (hget "failed" (by simp) _)⟩

theorem Outcome.tells_batch {details : Fields Value} (hlabels : outcomes.map (·.unit) = labels)
    (hreports : List.Forall₂ UnitOutcome.Reports outcomes es)
    (hd : ["applied", "failed", "results"].all fun key => key.toList ∉ Fields.keys details) (target : Text)
    (now : Moment) : (Outcome.batch target outcomes false details now).Tells labels es := by
  have happlied := countP_isOk hreports
  have hfailed : outcomes.length - (outcomes.filter (·.isOk)).length = es.countP (·.failure?.isSome) := by
    rw [happlied, hreports.length_eq, countP_add es]
    omega
  obtain ⟨hresults, hcount, hcount'⟩ := counts_batch hd target outcomes false now
  rw [happlied] at hcount
  rw [hfailed] at hcount'
  exact ⟨rfl, rfl, hlabels, hreports, hresults, es.countP (·.failure?.isNone), es.countP (·.failure?.isSome), hcount,
    hcount', (countP_add es).symm, rfl⟩

/-! The plans of a batch -/

/-- What runs one process each. -/
def Plan.units : Plan → List Text
  | .kubernetes p => p.manifests
  | .git p => p.initCommands
  | .sql p => p.statements
  | .docker _ | .terraform _ | .bash _ => []

namespace Runner

/-- The process hands the unit to the tool of the plan: a manifest and a statement on its input, a command of a repository
and a statement for the one client that takes it so as its last argument. -/
def Carries (s : Settings) : Plan → Call → Text → Prop
  | .kubernetes p, call, unit =>
    call.command = KubernetesApply.command p.scope (contextOf s) ∧ call.input = some unit
  | .git _, call, unit => call.command = ["sh".toList, "-c".toList, unit] ∧ call.input = none
  | .sql _, call, unit =>
    call.command.head? = some s.sqlClient.toText ∧
      if s.sqlClient.toText = "psql" then ["-c".toList, unit] <:+ call.command ∧ call.input = none
      else call.input = some unit
  | _, _, _ => False

/-- All that a batch takes before its first unit is there, and so are the labels of its units: the tool, and for a batch
that has a workspace the room for it. -/
inductive Ready (s : Settings) (h : Host) : Language → Plan → List Text → Prop
  | kubernetes {p labels} (htool : "kubectl".toList ∈ h.tools) (hlabels : manifestLabels 1 p.manifests = .ok labels) :
    Ready s h .kubernetes (.kubernetes p) labels
  | git {p} (htool : "git".toList ∈ h.tools) (hshell : "sh".toList ∈ h.tools)
    (hpaths : ∀ path ∈ Fields.keys p.files, '\x00' ∉ path) (hroom : (ofLanguage s .git).hasRoom s h) :
    Ready s h .git (.git p) p.initCommands
  | sql {p} (hclient : s.sqlClient.toText ∈ Settings.sqlClients) (htool : s.sqlClient.toText ∈ h.tools)
    (hroom : (ofLanguage s .sql).hasRoom s h) : Ready s h .sql (.sql p) (p.statements.map (Sql.label 60))

theorem length_manifestLabels {index : Nat} {ms : List Text} (h : manifestLabels index ms = .ok labels) :
    labels.length = ms.length := by
  induction ms generalizing index labels with
  | nil =>
    cases h
    rfl
  | cons m ms ih =>
    rw [manifestLabels, bind_eq_ok_iff] at h
    obtain ⟨label, -, h⟩ := h
    obtain ⟨labels, hlabels, h⟩ := bind_eq_ok_iff.mp h
    cases h
    exact congrArg (· + 1) (ih hlabels)

theorem mem_distinct {t : Text} {ts : List Text} : t ∈ distinct ts ↔ t ∈ ts := by
  induction ts with
  | nil => rfl
  | cons u ts ih =>
    by_cases htu : t = u
    · simp [distinct, htu]
    · simp [distinct, ih, htu]

theorem isAvailable_eq_true_iff : r.isAvailable h = true ↔ r.tools = [] ∨ ∃ tool ∈ r.tools, tool ∈ h.tools := by
  simp [isAvailable, tool?]

theorem isAvailable_of_mem {tool : Text} (hneeded : tool ∈ r.tools) (htool : tool ∈ h.tools) : r.isAvailable h = true :=
  isAvailable_eq_true_iff.mpr (.inr ⟨tool, hneeded, htool⟩)

/-- The run of a batch that is ready covers its units. -/
theorem ends_runKubernetes {p : KubernetesApply} (htool : "kubectl".toList ∈ h.tools)
    (hlabels : manifestLabels 1 p.manifests = .ok labels) (hes : h.endings = es ++ rest)
    (hlength : es.length = p.manifests.length) (hcalm : ∀ e ∈ es, ¬ e.IsCrash) :
    Ends ((ofLanguage s .kubernetes).runKubernetes s p) h fun calls o =>
      List.Forall₂ (Carries s (.kubernetes p)) calls p.manifests ∧ o.Tells labels es := by
  have hcount := length_manifestLabels hlabels
  have hone : RunsUnit (fun _ manifest =>
      command s (KubernetesApply.command p.scope (contextOf s)) none (some manifest) none) "kubectl"
      (Carries s (.kubernetes p)) := by
    intro label unit h e es htool hes he
    obtain ⟨call, run, h', hdoes, hcommand, hinput, hreports⟩ :=
      does_command (KubernetesApply.command p.scope (contextOf s)) ⟨_, rfl, htool⟩ hes he none none
    exact ⟨_, run, h', hdoes, call, rfl, ⟨hcommand, hinput⟩, hreports label⟩
  have hunits := ends_runUnits hone (labels.zip p.manifests) htool hes
    (by rw [hlength, List.length_zip, hcount, Nat.min_self]) hcalm
  rw [runKubernetes, hlabels]
  refine (does_host h).ends ?_
  rw [if_pos (isAvailable_of_mem List.mem_cons_self htool)]
  refine hunits.bind fun calls units h₁ hcovers => ?_
  obtain ⟨h₂, hlog⟩ := does_log .info "executors.kubernetes" ("Applied " ++
    Text.ofNat (units.filter (·.isOk)).length ++ " manifest(s), " ++
    Text.ofNat (units.length - (units.filter (·.isOk)).length) ++ " failed") h₁
  refine ⟨_, h₂, hlog.seq ((does_now h₂).andPure _), ?_, ?_⟩
  · have hcalls := hcovers.calls
    rwa [List.map_snd_zip (by omega)] at hcalls
  · refine Outcome.tells_batch ?_ hcovers.reports (by rfl) _ _
    rw [hcovers.labels, List.map_fst_zip (by omega)]

theorem ends_runGit {p : GitRepository} (htool : "git".toList ∈ h.tools) (hshell : "sh".toList ∈ h.tools)
    (hpaths : ∀ path ∈ Fields.keys p.files, '\x00' ∉ path) (hroom : (ofLanguage s .git).hasRoom s h)
    (hes : h.endings = es ++ rest) (hlength : es.length = p.initCommands.length) (hcalm : ∀ e ∈ es, ¬ e.IsCrash) :
    Ends ((ofLanguage s .git).runGit s p) h fun calls o =>
      List.Forall₂ (Carries s (.git p)) calls p.initCommands ∧ o.Tells p.initCommands es := by
  have hmaterial : ∀ path h₁, Spawned [] h h₁ → Ends (materialize s p path) h₁ fun calls result =>
      Covers (Carries s (.git p)) (p.initCommands.map fun line => (line, line)) es calls result.2 := by
    intro path h₁ hspawned
    obtain ⟨errors, h₂, hfiles⟩ := does_writeFiles hpaths (Place.follow h₁.cwd path) h₁
    have hone : RunsUnit (fun _ line => command s ["sh", "-c", line] (some path) none
        (some (authorEnvironment s h₁.environment))) "sh" (Carries s (.git p)) := by
      intro label unit h e es htool hes he
      obtain ⟨call, run, h', hdoes, hcommand, hinput, hreports⟩ :=
        does_command ["sh".toList, "-c".toList, unit] ⟨_, rfl, htool⟩ hes he (some path)
          (some (authorEnvironment s h₁.environment))
      exact ⟨_, run, h', hdoes, call, rfl, ⟨hcommand, hinput⟩, hreports label⟩
    have hspawned₂ := hspawned.trans hfiles.spawned
    have hshell₂ : "sh".toList ∈ h₂.tools := by rwa [hspawned₂.tools]
    have hes₂ : h₂.endings = es ++ rest := hspawned₂.endings.trans hes
    have hunits := ends_runUnits hone (p.initCommands.map fun line => (line, line)) hshell₂ hes₂
      (by rw [hlength, List.length_map]) hcalm
    exact (does_host h₁).ends (hfiles.ends (hunits.andPure fun _ _ hcovers => hcovers))
  refine (does_host h).ends ?_
  rw [if_pos (isAvailable_of_mem List.mem_cons_self htool)]
  refine (ends_inWorkspace hroom hmaterial).bind fun calls result h₁ hcovers => ?_
  refine ⟨_, h₁, (does_now h₁).andPure _, ?_, ?_⟩
  · simpa [Function.comp_def] using hcovers.calls
  · refine Outcome.tells_batch ?_ hcovers.reports (by rfl) _ _
    simpa [Function.comp_def] using hcovers.labels

theorem carries_sqlCommand {client : Text} (hclient : client ∈ Settings.sqlClients) (database : Option Text)
    (statement : Text) : (sqlCommand client database statement).1.head? = some client ∧
      if client = "psql".toList then
        ["-c".toList, statement] <:+ (sqlCommand client database statement).1 ∧
          (sqlCommand client database statement).2 = none
      else (sqlCommand client database statement).2 = some statement := by
  by_cases hpsql : client = "psql".toList
  · simp only [sqlCommand, if_pos hpsql]
    refine ⟨?_, List.suffix_append _ _, trivial⟩
    rw [hpsql]
    rfl
  · have hsqlite : client = "sqlite3".toList := by
      rcases List.mem_cons.mp hclient with hclient | hclient
      · exact hclient
      · exact (hpsql (List.mem_singleton.mp hclient)).elim
    simp only [sqlCommand, if_neg hpsql, and_true]
    rw [hsqlite]
    rfl

theorem ends_runSql {p : SqlBatch} (hclient : s.sqlClient.toText ∈ Settings.sqlClients)
    (htool : s.sqlClient.toText ∈ h.tools) (hroom : (ofLanguage s .sql).hasRoom s h)
    (hes : h.endings = es ++ rest) (hlength : es.length = p.statements.length) (hcalm : ∀ e ∈ es, ¬ e.IsCrash) :
    Ends ((ofLanguage s .sql).runSql s p) h fun calls o =>
      List.Forall₂ (Carries s (.sql p)) calls p.statements ∧ o.Tells (p.statements.map (Sql.label 60)) es := by
  have hstatements : ∀ path h₁, Spawned [] h h₁ → Ends
      (runUnits (fun _ statement =>
        command s (sqlCommand s.sqlClient.toText (databaseIn s.sqlClient.toText p.database path) statement).1
          (some path) (sqlCommand s.sqlClient.toText (databaseIn s.sqlClient.toText p.database path) statement).2 none)
        ((p.statements.map (Sql.label 60)).zip p.statements)) h₁
      (Covers (Carries s (.sql p)) ((p.statements.map (Sql.label 60)).zip p.statements) es) := by
    intro path h₁ hspawned
    have htool₁ : s.sqlClient.toText ∈ h₁.tools := by rwa [hspawned.tools]
    have hes₁ : h₁.endings = es ++ rest := hspawned.endings.trans hes
    refine ends_runUnits ?_ _ htool₁ hes₁ (by simp [hlength]) hcalm
    intro label unit h e es htool hes he
    obtain ⟨hhead, hinput⟩ := carries_sqlCommand hclient (databaseIn s.sqlClient.toText p.database path) unit
    obtain ⟨call, run, h', hdoes, hcommand, hgiven, hreports⟩ :=
      does_command _ ⟨_, hhead, htool⟩ hes he (some path) none
    refine ⟨_, run, h', hdoes, call, rfl, ?_, hreports label⟩
    rw [Carries, hcommand, hgiven]
    exact ⟨hhead, hinput⟩
  refine (does_host h).ends ?_
  rw [if_pos (isAvailable_of_mem List.mem_cons_self htool)]
  refine (ends_inWorkspace hroom hstatements).bind fun calls units h₁ hcovers => ?_
  refine ⟨_, h₁, (does_now h₁).andPure _, ?_, ?_⟩
  · have hcalls := hcovers.calls
    rwa [List.map_snd_zip (by simp)] at hcalls
  · refine Outcome.tells_batch ?_ hcovers.reports (by rfl) _ _
    rw [hcovers.labels, List.map_fst_zip (by simp)]

theorem ends_runPlan {plan : Plan} (hready : Ready s h l plan labels) (hes : h.endings = es ++ rest)
    (hlength : es.length = plan.units.length) (hcalm : ∀ e ∈ es, ¬ e.IsCrash) :
    Ends ((ofLanguage s l).runPlan s plan) h fun calls o =>
      List.Forall₂ (Carries s plan) calls plan.units ∧ o.Tells labels es := by
  cases hready with
  | kubernetes htool hlabels => exact ends_runKubernetes htool hlabels hes hlength hcalm
  | git htool hshell hpaths hroom => exact ends_runGit htool hshell hpaths hroom hes hlength hcalm
  | sql hclient htool hroom => exact ends_runSql hclient htool hroom hes hlength hcalm

end Runner
end Runbook
