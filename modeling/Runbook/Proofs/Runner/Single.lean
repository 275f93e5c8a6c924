import Runbook.Proofs.Files.Placement
import Runbook.Proofs.Plan.Single
import Runbook.Proofs.Runner.Command
import Runbook.Proofs.Runner.Missing

/-!
A document that is run as a whole asks for what it says and for nothing else: one image build, one script, or the
preparation of a plan and then the plan itself. The directory of each holds the one file that the document makes.
-/
namespace Runbook

open Runbook.Action (Does does_pure does_host does_changeFiles Ends notes_now notes_record notes_pure)

variable {r : Runner} {s : Settings} {h h' start : Host} {t name : Text} {c : Classification} {d : Document}
  {ds : List Directive} {directory : Path} {files : List (Text × List UInt8)} {argv : List Text} {l : Language}

namespace Runner

/-! Commands in a directory -/

theorem exists_command_in (htool : h.Offers argv) (hcalm : ¬ h.nextEnding.IsCrash)
    (hfinds : Finds h directory files) (environment : Option (Fields Text)) :
    ∃ run h', Does (command s argv (some directory) none environment) h [callIn s directory files argv environment] run h' ∧
      Finds h' directory files ∧ (run.isOk = true ↔ h.nextEnding.failure? = none) := by
  obtain ⟨run, h', hrun, hended, hasked⟩ := run_command (s := s) htool hcalm (some directory) none environment
  rw [hfinds.seenOn_callOf] at hasked
  refine ⟨run, h', ⟨hrun, hasked.spawned⟩, hfinds.congr hasked.files, ?_⟩
  have hok : run.isOk = h.nextEnding.failure?.isNone := (Call.reports_of_ended hended []).isOk
  rw [hok, Option.isNone_iff_eq_none]

/-! Workspaces with one file -/

/-- Whatever is run in a workspace asks for the same processes on the way into it and out of it. -/
theorem ends_inWorkspace_of_starts {α : Type} {body : Path → Action α} {P : List Call → α → Prop}
    (hroom : r.hasRoom s h) (hsound : h.IsSound)
    (hbody : ∀ start, Starts r s h start → Ends (body ((r.allocatorOf s h).nextPath h)) start P) :
    Ends (r.inWorkspace s body) h P := by
  obtain ⟨start, hstarts, hrun⟩ := exists_inWorkspace hroom hsound
  obtain ⟨calls, a, h₁, hdoes, hp⟩ := hbody start hstarts
  have hwhole := hrun body
  rw [hdoes.run] at hwhole
  refine ⟨calls, a, _, ⟨hwhole, ?_, ?_, ?_⟩, hp⟩
  · exact hdoes.spawned.tools.trans hstarts.tools
  · exact hdoes.spawned.endings.trans (congrArg _ hstarts.endings)
  · exact hdoes.spawned.calls.trans (congrArg (· ++ calls) hstarts.calls)

theorem Starts.finds_nothing (hstarts : Starts r s h start) : Finds start ((r.allocatorOf s h).nextPath h) [] := by
  rw [Finds, hstarts.made.cwd]
  exact FileTree.listing_eq_nil hstarts.made.isSound.isTree hstarts.made.there hstarts.made.empty

/-- A file whose path is not too long is written into a new workspace, and is then all that is in it. -/
theorem Starts.exists_writeText (hstarts : Starts r s h start) (hdots : name ≠ "..")
    (hname : (Text.utf8 name).length ≤ FileTree.maxName)
    (hfits : (Text.utf8 (((r.allocatorOf s h).nextPath h).child name).toText).length ≤ FileTree.maxPath) (content : Text) :
    ∃ ready, Does (writeText (((r.allocatorOf s h).nextPath h).child name) content) start [] () ready ∧
      Finds ready ((r.allocatorOf s h).nextPath h) [(name, Text.utf8 content)] := by
  set a := r.allocatorOf s h
  have hmade : a.Made h start := hstarts.made
  have hfree : start.files.entry? (a.nextPlace h ++ [name]) = none :=
    hmade.empty _ (List.prefix_append _ _) (by simp)
  have hlocate : start.files.locate start.cwd (a.nextPath h) = .ok (a.nextPlace h) := by
    rw [hmade.cwd]
    exact hmade.located
  have hwrite := FileTree.write_child hlocate hmade.there hdots hname hfits hfree (Text.utf8 content)
  refine ⟨_, does_changeFiles hwrite, ?_⟩
  have hnothing := hstarts.finds_nothing
  rw [Finds, hmade.cwd] at hnothing ⊢
  exact (FileTree.listing_concat_child start.files (a.nextPlace h) name _).trans (congrArg (· ++ _) hnothing)

/-! One run of each kind -/

section Runs

variable (hroom : r.hasRoom s h) (hsound : h.IsSound)

include hroom hsound

theorem ends_runDocker {p : DockerBuild} (havailable : r.isAvailable h = true) (htool : h.Offers p.command)
    (hcalm : h.IsCalm 2)
    (hfits : (Text.utf8 (((r.allocatorOf s h).nextPath h).child DockerBuild.fileName).toText).length ≤ FileTree.maxPath) :
    Ends (r.runDocker s p) h fun calls _ => calls =
      [callIn s ((r.allocatorOf s h).nextPath h) [(DockerBuild.fileName, Text.utf8 p.dockerfile)] p.command none] := by
  have hbuild : ∀ start, Starts r s h start → Ends (do
      writeText (((r.allocatorOf s h).nextPath h).child DockerBuild.fileName) p.dockerfile
      command s p.command (some ((r.allocatorOf s h).nextPath h)) none none) start fun calls _ => calls =
        [callIn s ((r.allocatorOf s h).nextPath h) [(DockerBuild.fileName, Text.utf8 p.dockerfile)] p.command none] := by
    intro start hstarts
    obtain ⟨ready, hwrite, hfinds⟩ := hstarts.exists_writeText (by decide) (by decide) hfits p.dockerfile
    have hendings : ready.endings = h.endings := hwrite.spawned.endings.trans hstarts.endings
    have htool' : ready.Offers p.command := by rwa [Host.Offers, hwrite.spawned.tools, hstarts.tools]
    obtain ⟨run, h₁, hrun, -⟩ := exists_command_in (s := s) htool' (hcalm.congr hendings).next hfinds none
    exact ⟨_, run, h₁, hwrite.seq hrun, rfl⟩
  refine (does_host h).ends ?_
  rw [if_pos havailable]
  refine (ends_inWorkspace_of_starts hroom hsound hbuild).andNotes fun run h₁ => notes_now ?_
  split
  · exact notes_record _ (notes_pure trivial _)
  · exact notes_pure trivial _

/-- The plan is asked for only where its preparation has succeeded. -/
theorem ends_runTerraform {p : TerraformPlan} (htool : "terraform".toList ∈ h.tools) (havailable : r.isAvailable h = true)
    {rest : List Text} (hplan : p.planCommand = "terraform".toList :: rest) (hcalm : h.IsCalm 2)
    (hfits : (Text.utf8 (((r.allocatorOf s h).nextPath h).child configurationFile).toText).length ≤ FileTree.maxPath) :
    let callOn (argv : List Text) :=
      callIn s ((r.allocatorOf s h).nextPath h) [(configurationFile, Text.utf8 p.configuration)] argv none
    Ends (r.runTerraform s p) h fun calls _ => calls =
      if h.nextEnding.failure? = none then [callOn initCommand, callOn (planCommand s p)] else [callOn initCommand] := by
  intro callOn
  have hsteps : ∀ start, Starts r s h start → Ends (terraformSteps s p ((r.allocatorOf s h).nextPath h)) start
      fun calls _ => calls =
        if h.nextEnding.failure? = none then [callOn initCommand, callOn (planCommand s p)] else [callOn initCommand] := by
    intro start hstarts
    obtain ⟨ready, hwrite, hfinds⟩ := hstarts.exists_writeText (by decide) (by decide) hfits p.configuration
    have hendings : ready.endings = h.endings := hwrite.spawned.endings.trans hstarts.endings
    have htool' : ready.Offers initCommand := ⟨_, rfl, by rwa [hwrite.spawned.tools, hstarts.tools]⟩
    obtain ⟨first, h₁, hfirst, hfinds₁, hok⟩ := exists_command_in (s := s) htool' (hcalm.congr hendings).next hfinds none
    rw [Host.nextEnding_congr hendings] at hok
    by_cases hprepared : h.nextEnding.failure? = none
    · -- the preparation has taken the first ending, so the plan takes the second
      have hcalm₁ : h₁.IsCalm 1 := (hcalm.congr hendings).rest hfirst.spawned.endings
      have htool₁ : h₁.Offers (planCommand s p) := by
        rw [Host.Offers, planCommand, hplan, hfirst.spawned.tools, hwrite.spawned.tools, hstarts.tools]
        exact ⟨_, rfl, htool⟩
      obtain ⟨last, h₂, hlast, -⟩ := exists_command_in (s := s) htool₁ hcalm₁.next hfinds₁ none
      refine ⟨_, (if last.isOk then none else some "plan".toList, last), h₂, hwrite.seq (hfirst.bind ?_),
        (if_pos hprepared).symm⟩
      rw [if_pos (hok.mpr hprepared)]
      exact hlast.andPure _
    · refine ⟨_, (some "init".toList, first), h₁, hwrite.seq (hfirst.bind ?_), (if_neg hprepared).symm⟩
      rw [if_neg (mt hok.mp hprepared)]
      exact does_pure _ h₁
  refine (does_host h).ends ?_
  rw [if_pos havailable]
  exact (ends_inWorkspace_of_starts hroom hsound hsteps).andNotes fun result h₁ => notes_now (notes_pure trivial _)

theorem ends_runScript {p : ShellScript} {shell : Text} (hshell : r.tool? h = some shell) (hcalm : h.IsCalm 2) :
    Ends (r.runScript s p) h fun calls _ => calls =
      [callIn s ((r.allocatorOf s h).nextPath h) [] [shell, "-c", p.script]
        (some (Fields.merge h.environment p.environment))] := by
  have htool : shell ∈ h.tools := by simpa using List.find?_some hshell
  have hscript : ∀ start, Starts r s h start → Ends (command s [shell, "-c", p.script]
      (some ((r.allocatorOf s h).nextPath h)) none (some (Fields.merge h.environment p.environment))) start
      fun calls _ => calls = [callIn s ((r.allocatorOf s h).nextPath h) [] [shell, "-c", p.script]
        (some (Fields.merge h.environment p.environment))] := by
    intro start hstarts
    have htool' : start.Offers [shell, "-c", p.script] := ⟨_, rfl, by rwa [hstarts.tools]⟩
    obtain ⟨run, h₁, hrun, -⟩ := exists_command_in (s := s) htool' (hcalm.congr hstarts.endings).next
      hstarts.finds_nothing (some (Fields.merge h.environment p.environment))
    exact ⟨_, run, h₁, hrun, rfl⟩
  refine (does_host h).ends ?_
  rw [hshell]
  exact (ends_inWorkspace_of_starts hroom hsound hscript).andNotes fun run h₁ => notes_now (notes_pure trivial _)

end Runs

/-! Documents -/

/-- A plan for the runner is what it runs. -/
theorem ends_execute {source : Source} {plan : Plan} {P : List Call → Outcome → Prop}
    (hplan : (ofLanguage s l).planOf s source = .ok (.ok plan)) (htarget : (ofLanguage s l).target = some plan.target)
    (hrun : Ends ((ofLanguage s l).runPlan s plan) h P) : Ends ((ofLanguage s l).execute s source) h P := by
  obtain ⟨calls, o, h', hdoes, hp⟩ := hrun
  refine ⟨calls, o, h', ⟨?_, hdoes.spawned⟩, hp⟩
  have hattempt : (ofLanguage s l).attempt s source h = (.ok o, h') := by
    refine Action.bind_eq_ok_iff.mpr ⟨.ok plan, h, ?_, ?_⟩
    · rw [hplan]
      rfl
    · dsimp only
      rw [if_pos htarget]
      exact hdoes.run
  rw [execute, if_neg (by simp [htarget]), Action.run_tryCatch, hattempt]

/-- What a document asks for in a directory, from its fences and directives: an image build, the preparation of a plan, which
alone is asked for where it fails, and then the plan, or a script. -/
inductive Requests (s : Settings) (h : Host) (fences : List Fence) (ds : List Directive) (directory : Path) :
    Language → List Call → Prop
  | build {f : Fence} (hfirst : fences.find? Detector.isDockerfile = some f) :
    Requests s h fences ds directory .dockerfile [
      callIn s directory [("Dockerfile", Text.utf8 f.content)]
        ["docker", "build", "-f", "Dockerfile", "-t", Classification.tagOf s.dockerTag.toText ds, "."] none]
  | prepare (hfails : h.nextEnding.failure? ≠ none) :
    Requests s h fences ds directory .terraform [
      callIn s directory [("main.tf", Text.utf8 (Classification.configurationOf fences))]
        ["terraform", "init", "-input=false", "-no-color"] none]
  | plan {vars : Fields Text} {arguments : List Text} (hprepared : h.nextEnding.failure? = none)
    (hvars : vars.Overlays [] (Classification.settings Classification.isTfvar ds))
    (harguments : arguments.Perm (vars.map fun (name, value) => "-var=" ++ name ++ "=" ++ value)) :
    Requests s h fences ds directory .terraform [
      callIn s directory [("main.tf", Text.utf8 (Classification.configurationOf fences))]
        ["terraform", "init", "-input=false", "-no-color"] none,
      callIn s directory [("main.tf", Text.utf8 (Classification.configurationOf fences))]
        (Text.ofStrings ["terraform", "plan", "-input=false"] ++ arguments ++ Text.ofStrings ["-no-color"] ++
          s.planArguments) none]
  | script {shell : Text} {environment : Fields Text}
    (hshell : [s.preferredShell.toText, "bash", "sh"].find? (· ∈ h.tools) = some shell)
    (henvironment : environment.Overlays h.environment (Classification.settings Classification.isEnv ds)) :
    Requests s h fences ds directory .executable [
      callIn s directory [] [shell, "-c", Classification.scriptOf fences] (some environment)]

theorem find?_distinct (p : Text → Bool) (ts : List Text) : (distinct ts).find? p = ts.find? p := by
  induction ts with
  | nil => rfl
  | cons t ts ih =>
    rw [distinct, List.find?_cons, List.find?_cons]
    cases ht : p t with
    | true => rfl
    | false =>
      rw [List.find?_filter, ← ih]
      dsimp only
      congr 1
      funext u
      by_cases hu : u = t
      · simp [hu, ht]
      · simp [hu]

/-- The one file that a document of the language is written to. -/
def fileOf? : Language → Option Text
  | .dockerfile => some DockerBuild.fileName
  | .terraform => some configurationFile
  | _ => none

/-- The workspace of the runner can be made, and the path of the one file in it is not too long. -/
structure HasPlace (r : Runner) (s : Settings) (h : Host) (file? : Option Text) : Prop where
  room : r.hasRoom s h
  fits : ∀ name, file? = some name →
    (Text.utf8 (((r.allocatorOf s h).nextPath h).child name).toText).length ≤ FileTree.maxPath

theorem mem_of_isAvailable {tool : Text} (htools : r.tools = [tool]) (havailable : r.isAvailable h = true) :
    tool ∈ h.tools := by
  rw [isAvailable_eq_true_iff, htools] at havailable
  simpa using havailable

theorem tool?_of_isAvailable (htools : r.tools ≠ []) (havailable : r.isAvailable h = true) :
    ∃ tool, r.tool? h = some tool := by
  rcases isAvailable_eq_true_iff.mp havailable with hnone | ⟨tool, hneeded, hthere⟩
  · exact (htools hnone).elim
  · exact Option.isSome_iff_exists.mp (List.find?_isSome.mpr ⟨tool, hneeded, by simpa using hthere⟩)

section Documents

variable (hc : Classification.ofText t = .ok c) (hds : Directive.all t = .ok ds) (hartifacts : d.artifacts = c.artifacts)
  (hmetadata : d.metadata = c.metadata) (hsound : h.IsSound) (hcalm : h.IsCalm 2)

include hc hds hartifacts hmetadata hsound hcalm

theorem ends_execute_docker (hl : c.language = .dockerfile)
    (havailable : (ofLanguage s .dockerfile).isAvailable h = true)
    (hplace : (ofLanguage s .dockerfile).HasPlace s h (fileOf? .dockerfile)) :
    Ends ((ofLanguage s .dockerfile).execute s (.document d)) h fun calls _ =>
      Requests s h (Markup.fences t) ds (((ofLanguage s .dockerfile).allocatorOf s h).nextPath h) .dockerfile calls := by
  obtain ⟨f, hfirst, hplan⟩ := Classification.draft_docker hc hds hl s.planDefaults
  rw [← hartifacts, ← hmetadata] at hplan
  refine ends_execute ((planOf_document rfl).trans (congrArg Except.ok hplan)) rfl ?_
  have htool : "docker".toList ∈ h.tools := mem_of_isAvailable rfl havailable
  refine Ends.mono (ends_runDocker hplace.room hsound havailable ⟨_, rfl, htool⟩ hcalm (hplace.fits _ rfl))
    fun calls o hcalls => ?_
  exact hcalls ▸ .build hfirst

theorem ends_execute_terraform (hl : c.language = .terraform)
    (havailable : (ofLanguage s .terraform).isAvailable h = true)
    (hplace : (ofLanguage s .terraform).HasPlace s h (fileOf? .terraform)) :
    Ends ((ofLanguage s .terraform).execute s (.document d)) h fun calls _ =>
      Requests s h (Markup.fences t) ds (((ofLanguage s .terraform).allocatorOf s h).nextPath h) .terraform calls := by
  have hplan := Classification.draft_terraform hc hds hl s.planDefaults
  rw [← hartifacts, ← hmetadata] at hplan
  refine ends_execute ((planOf_document rfl).trans (congrArg Except.ok hplan)) rfl ?_
  have htool : "terraform".toList ∈ h.tools := mem_of_isAvailable rfl havailable
  refine Ends.mono (ends_runTerraform hplace.room hsound htool havailable rfl hcalm (hplace.fits _ rfl))
    fun calls o hcalls => ?_
  by_cases hprepared : h.nextEnding.failure? = none
  · rw [if_pos hprepared] at hcalls
    exact hcalls ▸ .plan hprepared (Fields.overlays_merge [] _) (TerraformPlan.perm_varArguments _)
  · rw [if_neg hprepared] at hcalls
    exact hcalls ▸ .prepare hprepared

theorem ends_execute_shell (hl : c.language = .executable)
    (havailable : (ofLanguage s .executable).isAvailable h = true)
    (hplace : (ofLanguage s .executable).HasPlace s h (fileOf? .executable)) :
    Ends ((ofLanguage s .executable).execute s (.document d)) h fun calls _ =>
      Requests s h (Markup.fences t) ds (((ofLanguage s .executable).allocatorOf s h).nextPath h) .executable calls := by
  obtain ⟨shebang, hplan⟩ := Classification.draft_bash hc hds hl s.planDefaults
  rw [← hartifacts, ← hmetadata] at hplan
  refine ends_execute ((planOf_document rfl).trans (congrArg Except.ok hplan)) rfl ?_
  obtain ⟨shell, hshell⟩ := tool?_of_isAvailable (List.cons_ne_nil _ _) havailable
  have hfirst : [s.preferredShell.toText, "bash", "sh"].find? (· ∈ h.tools) = some shell := by
    rw [← find?_distinct]
    exact hshell
  refine Ends.mono (ends_runScript hplace.room hsound hshell hcalm) fun calls o hcalls => ?_
  exact hcalls ▸ .script hfirst ((Fields.overlays_merge [] _).merge h.environment)

end Documents

/-- What is known of a document that has been read. -/
theorem exists_classification (hd : Document.ofText t = .ok d) : ∃ c ds, Classification.ofText t = .ok c ∧
    Directive.all t = .ok ds ∧ d.language = c.language ∧ d.artifacts = c.artifacts ∧ d.metadata = c.metadata := by
  obtain ⟨c, hc, hd⟩ := bind_eq_ok_iff.mp hd
  obtain ⟨tree, -, hd⟩ := bind_eq_ok_iff.mp hd
  obtain ⟨ds, -, hds, -⟩ := Classification.ofTextWith_eq_ok_iff.mp hc
  obtain rfl := Except.ok.inj hd
  exact ⟨c, ds, hc, hds, rfl, rfl, rfl⟩

theorem exists_of_language (hread : (Document.ofText t).toOption.map (·.language) = some l) :
    ∃ d, Document.ofText t = .ok d ∧ d.language = l := by
  cases hd : Document.ofText t with
  | error f =>
    rw [hd] at hread
    cases hread
  | ok d =>
    rw [hd] at hread
    exact ⟨d, rfl, Option.some.inj hread⟩

/-- Whatever a document of one unit says, its run asks for that and for nothing more, in a new workspace that holds the one
file of the document and no other. -/
theorem execute_single (hd : Document.ofText t = .ok d) (hsingle : d.language ∈ [.dockerfile, .terraform, .executable])
    (s : Settings) (h : Host) (havailable : (ofLanguage s d.language).isAvailable h = true)
    (hplace : (ofLanguage s d.language).HasPlace s h (fileOf? d.language)) (hsound : h.IsSound) (hcalm : h.IsCalm 2) :
    ∃ ds start calls o h', Directive.all t = .ok ds ∧ Starts (ofLanguage s d.language) s h start ∧
      (ofLanguage s d.language).execute s (.document d) h = (.ok o, h') ∧ h'.calls = h.calls ++ calls ∧
      Requests s h (Markup.fences t) ds (((ofLanguage s d.language).allocatorOf s h).nextPath h) d.language calls := by
  obtain ⟨start, hstarts, -⟩ := exists_inWorkspace hplace.room hsound
  obtain ⟨c, ds, hc, hds, hl, hartifacts, hmetadata⟩ := exists_classification hd
  suffices hends : Ends ((ofLanguage s d.language).execute s (.document d)) h fun calls _ =>
      Requests s h (Markup.fences t) ds (((ofLanguage s d.language).allocatorOf s h).nextPath h) d.language calls by
    obtain ⟨calls, o, h', hdoes, hrequests⟩ := hends
    exact ⟨ds, start, calls, o, h', hds, hstarts, hdoes.run, hdoes.spawned.calls, hrequests⟩
  rw [hl] at hsingle havailable hplace ⊢
  simp only [List.mem_cons, List.not_mem_nil, or_false] at hsingle
  rcases hsingle with hlanguage | hlanguage | hlanguage
  · rw [hlanguage] at havailable hplace ⊢
    exact ends_execute_docker hc hds hartifacts hmetadata hsound hcalm hlanguage havailable hplace
  · rw [hlanguage] at havailable hplace ⊢
    exact ends_execute_terraform hc hds hartifacts hmetadata hsound hcalm hlanguage havailable hplace
  · rw [hlanguage] at havailable hplace ⊢
    exact ends_execute_shell hc hds hartifacts hmetadata hsound hcalm hlanguage havailable hplace

/-- Two blocks of one configuration, and a plan that takes too long after its preparation has succeeded. -/
theorem execute_single_twoBlocks :
    let t : Text := "<!-- polyglot:tfvar size=2 -->\n\n```hcl\na\n```\n\n```terraform\nb\n```\n"
    let h : Host := { tools := ["terraform"], endings := [.exit 0 none [], .expiry none], clock := default }
    let r := ofLanguage {} .terraform
    ∃ d ds start calls o h', Document.ofText t = .ok d ∧ Directive.all t = .ok ds ∧ Starts r {} h start ∧
      r.execute {} (.document d) h = (.ok o, h') ∧ h'.calls = h.calls ++ calls ∧
      Requests {} h (Markup.fences t) ds ((r.allocatorOf {} h).nextPath h) .terraform calls := by
  intro t h r
  obtain ⟨d, hd, hl⟩ : ∃ d, Document.ofText t = .ok d ∧ d.language = .terraform := exists_of_language (by decide +kernel)
  have hplace : r.HasPlace {} h (fileOf? .terraform) := by
    refine ⟨by decide +kernel, fun name hname => ?_⟩
    cases hname
    decide +kernel
  have hcalm : h.IsCalm 2 := by simp [Host.IsCalm, h, Ending.IsCrash]
  obtain ⟨ds, start, calls, o, h', hall⟩ := execute_single hd (by simp [hl]) {} h (by rw [hl]; decide +kernel)
    (by rw [hl]; exact hplace) ⟨.nil, rfl⟩ hcalm
  rw [hl] at hall
  exact ⟨d, ds, start, calls, o, h', hd, hall⟩

/-! Paths that are too long -/

/-- A stop of the run is the one failure that is told. -/
theorem execute_of_stop {source : Source} {plan : Plan} {stop : Stop} {h₁ : Host}
    (hplan : (ofLanguage s l).planOf s source = .ok (.ok plan)) (htarget : (ofLanguage s l).target = some plan.target)
    (hstop : (ofLanguage s l).runPlan s plan h = (.error stop, h₁)) :
    ∃ o h', (ofLanguage s l).execute s source h = (.ok o, h') ∧ o.error = some .unhandled ∧ h'.calls = h₁.calls := by
  have hattempt : (ofLanguage s l).attempt s source h = (.error stop, h₁) := by
    rw [attempt, hplan, Action.run_bind]
    dsimp only [MonadExcept.ofExcept]
    rw [show (pure (Except.ok plan) : Action (Except PlanFault Plan)) h = (.ok (.ok plan), h) from rfl]
    dsimp only
    rw [if_pos htarget, hstop]
  rw [execute, if_neg (by simp [htarget]), Action.run_tryCatch, hattempt]
  exact ⟨_, _, rfl, rfl, rfl⟩

/-- What begins with a file whose path is too long stops there. -/
theorem run_inWorkspace_of_long {α : Type} (hroom : r.hasRoom s h) (hsound : h.IsSound)
    (hlong : FileTree.maxPath < (Text.utf8 (((r.allocatorOf s h).nextPath h).child name).toText).length) (content : Text)
    (f : Path → Unit → Action α) : ∃ stop h',
      r.inWorkspace s (fun directory => writeText (directory.child name) content >>= f directory) h = (.error stop, h') ∧
        h'.calls = h.calls := by
  obtain ⟨start, hstarts, hrun⟩ := exists_inWorkspace hroom hsound
  have hwrite : writeText (((r.allocatorOf s h).nextPath h).child name) content start =
      (.error (.file ⟨.nameTooLong, ((r.allocatorOf s h).nextPath h).child name⟩), start) := by
    rw [writeText, Action.run_changeFiles, FileTree.writeText, FileTree.write_of_long hlong]
  have hwhole := hrun fun directory => writeText (directory.child name) content >>= f directory
  rw [Action.run_bind, hwrite] at hwhole
  exact ⟨_, _, hwhole, hstarts.calls⟩

/-- No image is built from a file that cannot be written. -/
theorem execute_docker_of_long (hc : Classification.ofText t = .ok c) (hds : Directive.all t = .ok ds)
    (hartifacts : d.artifacts = c.artifacts) (hmetadata : d.metadata = c.metadata) (hl : c.language = .dockerfile)
    (havailable : (ofLanguage s .dockerfile).isAvailable h = true) (hroom : (ofLanguage s .dockerfile).hasRoom s h)
    (hsound : h.IsSound) (hlong : FileTree.maxPath <
      (Text.utf8 ((((ofLanguage s .dockerfile).allocatorOf s h).nextPath h).child DockerBuild.fileName).toText).length) :
    ∃ o h', (ofLanguage s .dockerfile).execute s (.document d) h = (.ok o, h') ∧ o.error = some .unhandled ∧
      h'.calls = h.calls := by
  obtain ⟨f, -, hplan⟩ := Classification.draft_docker hc hds hl s.planDefaults
  rw [← hartifacts, ← hmetadata] at hplan
  have hsource := (planOf_document (s := s) (l := .dockerfile) rfl).trans (congrArg Except.ok hplan)
  obtain ⟨stop, h₁, hstop, hcalls⟩ := run_inWorkspace_of_long hroom hsound hlong f.content fun directory _ =>
    command s (DockerBuild.buildCommand (Classification.tagOf s.planDefaults.dockerTag ds) DockerBuild.fileName)
      (some directory) none none
  have hrun : (ofLanguage s .dockerfile).runPlan s (.docker ⟨f.content, Classification.tagOf s.planDefaults.dockerTag ds,
      DockerBuild.buildCommand (Classification.tagOf s.planDefaults.dockerTag ds) DockerBuild.fileName⟩) h =
      (.error stop, h₁) := by
    rw [runPlan, runDocker, Action.run_bind, show Action.host h = (.ok h, h) from rfl]
    dsimp only
    rw [if_pos havailable, Action.run_bind, hstop]
  obtain ⟨o, h', hexecute, herror, hcalls'⟩ := execute_of_stop hsource rfl hrun
  exact ⟨o, h', hexecute, herror, hcalls'.trans hcalls⟩

/-- A workspace whose path is all but too long can be made, and the file in it cannot. -/
theorem execute_docker_longRoot :
    let root := Text.join "/" (List.replicate 16 (Text.repeated 63 '😀') ++ ["0123456789".toList])
    let s : Settings := { workspaceRoot := .text root }
    let h : Host := { tools := ["docker"], clock := default }
    let r := ofLanguage s .dockerfile
    ∃ d o h', Document.ofText "```dockerfile\nFROM x\n```\n" = .ok d ∧ d.language = .dockerfile ∧ r.hasRoom s h = true ∧
      r.execute s (.document d) h = (.ok o, h') ∧ o.error = some .unhandled ∧ h'.calls = [] := by
  intro root s h r
  obtain ⟨d, hd, hl⟩ : ∃ d, Document.ofText "```dockerfile\nFROM x\n```\n" = .ok d ∧ d.language = .dockerfile :=
    exists_of_language (by decide +kernel)
  have hroom : r.hasRoom s h = true := by decide +kernel
  have hlong : FileTree.maxPath <
      (Text.utf8 (((r.allocatorOf s h).nextPath h).child DockerBuild.fileName).toText).length := by decide +kernel
  obtain ⟨c, ds, hc, hds, hlanguage, hartifacts, hmetadata⟩ := exists_classification hd
  obtain ⟨o, h', hrun⟩ := execute_docker_of_long hc hds hartifacts hmetadata (hlanguage.symm.trans hl) (by decide +kernel)
    hroom ⟨.nil, rfl⟩ hlong
  exact ⟨d, o, h', hd, hl, hroom, hrun⟩

end Runner
end Runbook
