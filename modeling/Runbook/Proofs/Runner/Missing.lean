import Runbook.Proofs.Plan.Draft
import Runbook.Proofs.Runner.Batch
import Runbook.Proofs.Runner.Execution

/-!
Where no tool of a runner is there, a document never fails for it, unless the settings ask for that, and nothing of the
host changes but its log.
-/
namespace Runbook

open Runbook.Action (Notes notes_pure notes_host notes_now notes_ofExcept notes_record)

variable {r : Runner} {s : Settings} {h : Host} {d : Document} {o : Outcome} {labels : List Text} {T : Target}
  {l : Language} {t : Text}

/-! Outcomes without a tool -/

namespace Outcome

/-- A success in name, or the failure that the settings ask for. -/
structure Excuses (s : Settings) (o : Outcome) : Prop where
  inName : s.mockMissingTools.isTrue = true → o.isOk = true ∧ o.mock = true
  failed : s.mockMissingTools.isTrue = false → o.isOk = false ∧ o.error = some .toolNotInstalled

/-- One unit for each label, all of them successes, and so counted. -/
structure HasUnits (o : Outcome) (labels : List Text) : Prop where
  units : o.units.map (·.unit) = labels
  isOk : ∀ u ∈ o.units, u.isOk = true ∧ u.error = none
  results : Fields.get? "results" o.details = some (.list (o.units.map UnitOutcome.toValue))
  applied : o.applied = .ok labels.length
  failed : o.failed = .ok 0

theorem hasUnits_mock {details : Fields Value}
    (hd : ["applied", "failed", "results"].all fun key => key.toList ∉ Fields.keys details) (target output : Text)
    (labels : List Text) (now : Moment) :
    (batch target (Runner.mockUnits labels output) true details now).HasUnits labels := by
  have hall : (Runner.mockUnits labels output).filter (·.isOk) = Runner.mockUnits labels output := by
    simp [Runner.mockUnits]
  obtain ⟨hresults, happlied, hfailed⟩ := counts_batch hd target (Runner.mockUnits labels output) true now
  rw [hall, Runner.mockUnits, List.length_map] at happlied
  rw [hall, Nat.sub_self] at hfailed
  exact ⟨by simp [batch, Runner.mockUnits, Function.comp_def], by simp [batch, Runner.mockUnits], hresults, happlied,
    hfailed⟩

end Outcome

namespace Manifest

variable {m : Yaml.Data} {index : Int} {kind label : Text}

/-- The kind of a mapping, and what stands for it where there is none. -/
def kindOf (m : Yaml.Data) : Except ReadFault Text :=
  match m.get? "kind" with
  | some kind => kind.toText
  | none => .ok "manifest"

/-- The label of a mapping of the kind. -/
def labelOf (index : Int) (m : Yaml.Data) (kind : Text) : Except ReadFault Text :=
  match (m.get? "metadata").bind (Yaml.Data.get? "name") with
  | some name =>
    if name.isTrue then name.toText >>= fun name => .ok (kind.lower ++ "/" ++ name)
    else .ok (kind.lower ++ "-" ++ Text.ofInt index)
  | none => .ok (kind.lower ++ "-" ++ Text.ofInt index)

theorem label_of_mapping (h : firstMapping? t = .ok (some m)) (index : Int) :
    Manifest.label index t = kindOf m >>= labelOf index m := by
  rw [Manifest.label, h, kindOf]
  cases hkind : m.get? "kind" <;> simp only [bind, Except.bind, hkind] <;> rfl

theorem exists_labelOf (h : labelOf index m kind = .ok label) (index' : Int) :
    ∃ label', labelOf index' m kind = .ok label' := by
  rw [labelOf] at h ⊢
  cases hname : (m.get? "metadata").bind (Yaml.Data.get? "name") with
  | none => exact ⟨_, rfl⟩
  | some name =>
    rw [hname] at h
    dsimp only at h ⊢
    split
    · rename_i htrue
      rw [if_pos htrue] at h
      exact ⟨label, h⟩
    · exact ⟨_, rfl⟩

/-- Whether a manifest has a label does not depend on its number. -/
theorem exists_label (h : Manifest.label index t = .ok label) (index' : Int) :
    ∃ label', Manifest.label index' t = .ok label' := by
  obtain ⟨first, hfirst, -⟩ := bind_eq_ok_iff.mp h
  cases first with
  | none => exact exists_bind_eq_ok_iff.mpr ⟨none, hfirst, _, rfl⟩
  | some m =>
    rw [label_of_mapping hfirst] at h ⊢
    obtain ⟨kind, hkind, h⟩ := bind_eq_ok_iff.mp h
    exact exists_bind_eq_ok_iff.mpr ⟨kind, hkind, exists_labelOf h index'⟩

end Manifest

namespace Runner

theorem isAvailable_eq_false (htools : r.tools ≠ []) (hmissing : ∀ tool ∈ r.tools, tool ∉ h.tools) :
    r.isAvailable h = false := by
  rw [Bool.eq_false_iff, Ne, isAvailable_eq_true_iff]
  rintro (hnone | ⟨tool, hneeded, hthere⟩)
  · exact htools hnone
  · exact hmissing tool hneeded hthere

theorem notes_mock {P : Outcome → Prop} {wouldRun : Text} {onNote : Text → Moment → Outcome}
    (hnamed : s.mockMissingTools.isTrue = true → P (onNote (r.note wouldRun) h.clock))
    (hfailed : s.mockMissingTools.isTrue = false →
      ∀ output, P (Outcome.failure r.name .toolNotInstalled output (-1) [] h.clock)) :
    Notes (r.mock s wouldRun onNote) h P := by
  refine notes_now ?_
  split
  · rename_i hmock
    exact notes_record _ (notes_pure (hnamed hmock) _)
  · rename_i hmock
    exact notes_record _ (notes_pure (hfailed (Bool.eq_false_iff.mpr hmock) _) _)

/-- The units of a plan that runs in name. -/
def UnitsInName (o : Outcome) : Plan → Prop
  | .kubernetes p => ∃ labels, manifestLabels 1 p.manifests = .ok labels ∧ o.HasUnits labels
  | .sql p => o.HasUnits (p.statements.map (Sql.label 60))
  | _ => o.units = []

/-- A plan that runs in name, or the failure that the settings ask for in its place. -/
structure Skips (s : Settings) (p : Plan) (o : Outcome) : Prop where
  excuses : o.Excuses s
  units : s.mockMissingTools.isTrue = true → UnitsInName o p

theorem skips_failure (hmock : s.mockMissingTools.isTrue = false) (p : Plan) (target output : Text) (now : Moment) :
    Skips s p (Outcome.failure target .toolNotInstalled output (-1) [] now) := by
  refine ⟨⟨fun htrue => ?_, fun _ => ⟨rfl, rfl⟩⟩, fun htrue => ?_⟩ <;> simp [hmock] at htrue

theorem skips_named {p : Plan} (hok : o.isOk = true) (hname : o.mock = true) (hunits : UnitsInName o p)
    (hmock : s.mockMissingTools.isTrue = true) : Skips s p o :=
  ⟨⟨fun _ => ⟨hok, hname⟩, fun hfalse => by simp [hmock] at hfalse⟩, fun _ => hunits⟩

/-- A plan without units of its own. -/
theorem notes_mockSuccess {p : Plan} (hunits : ∀ o : Outcome, o.units = [] → UnitsInName o p) (wouldRun : Text)
    (details : Fields Value) : Notes (r.mockSuccess s wouldRun details) h (Skips s p) :=
  notes_mock (skips_named rfl rfl (hunits _ rfl)) fun hmock _ => skips_failure hmock _ _ _ _

theorem notes_runDocker (hmissing : r.isAvailable h = false) (p : DockerBuild) :
    Notes (r.runDocker s p) h (Skips s (.docker p)) := by
  refine notes_host ?_
  rw [hmissing, if_neg Bool.false_ne_true]
  exact notes_mockSuccess (p := .docker p) (fun _ hnone => hnone) _ _

theorem notes_runTerraform (hmissing : r.isAvailable h = false) (p : TerraformPlan) :
    Notes (r.runTerraform s p) h (Skips s (.terraform p)) := by
  refine notes_host ?_
  rw [hmissing, if_neg Bool.false_ne_true]
  exact notes_mockSuccess (p := .terraform p) (fun _ hnone => hnone) _ _

theorem notes_runGit (hmissing : r.isAvailable h = false) (p : GitRepository) :
    Notes (r.runGit s p) h (Skips s (.git p)) := by
  refine notes_host ?_
  rw [hmissing, if_neg Bool.false_ne_true]
  exact notes_mockSuccess (p := .git p) (fun _ hnone => hnone) _ _

theorem notes_runScript (hmissing : r.tool? h = none) (p : ShellScript) :
    Notes (r.runScript s p) h (Skips s (.bash p)) := by
  refine notes_host ?_
  rw [hmissing]
  exact notes_mockSuccess (p := .bash p) (fun _ hnone => hnone) _ _

theorem notes_runKubernetes (hmissing : r.isAvailable h = false) {p : KubernetesApply}
    (hlabels : manifestLabels 1 p.manifests = .ok labels) : Notes (r.runKubernetes s p) h (Skips s (.kubernetes p)) := by
  rw [runKubernetes, hlabels]
  refine notes_host ?_
  rw [hmissing, if_neg Bool.false_ne_true]
  refine notes_mock (skips_named rfl rfl ⟨labels, hlabels, ?_⟩) fun hmock _ => skips_failure hmock _ _ _ _
  exact Outcome.hasUnits_mock (by simp [Fields.keys, Fields.one]) _ _ _ _

theorem notes_runSql (hmissing : r.isAvailable h = false) (p : SqlBatch) :
    Notes (r.runSql s p) h (Skips s (.sql p)) := by
  refine notes_host ?_
  rw [hmissing, if_neg Bool.false_ne_true]
  refine notes_mock (skips_named rfl rfl ?_) fun hmock _ => skips_failure hmock _ _ _ _
  exact Outcome.hasUnits_mock (by simp [Fields.keys, Fields.one]) _ _ _ _

/-! Documents -/

/-- All that is needed of a plan whose tool is missing. -/
theorem notes_runPlan {p : Plan} (htarget : (ofLanguage s l).target = some p.target)
    (hmissing : ∀ tool ∈ (ofLanguage s l).tools, tool ∉ h.tools)
    (hlabels : ∀ q, p = .kubernetes q → ∃ labels, manifestLabels 1 q.manifests = .ok labels) :
    Notes ((ofLanguage s l).runPlan s p) h (Skips s p) := by
  have htools : (ofLanguage s l).tools ≠ [] := by
    cases l with
    | executable => exact List.ne_nil_of_mem (mem_distinct.mpr List.mem_cons_self)
    | none => cases htarget
    | dockerfile | terraform | kubernetes | git | sql => exact List.cons_ne_nil _ _
  have havailable := isAvailable_eq_false htools hmissing
  cases p with
  | docker p => exact notes_runDocker havailable p
  | terraform p => exact notes_runTerraform havailable p
  | kubernetes p =>
    obtain ⟨labels, hlabels⟩ := hlabels p rfl
    exact notes_runKubernetes havailable hlabels
  | git p => exact notes_runGit havailable p
  | bash p => exact notes_runScript (List.find?_eq_none.mpr (by simpa using hmissing)) p
  | sql p => exact notes_runSql havailable p

/-- A runner with a target takes it up, whatever it is given. -/
theorem notes_execute {source : Source} (htarget : (ofLanguage s l).target = some T) {P : Outcome → Prop}
    (hattempt : Notes ((ofLanguage s l).attempt s source) h P) : Notes ((ofLanguage s l).execute s source) h P := by
  rw [execute, htarget]
  exact hattempt.tryCatch _

theorem planOf_document (htarget : (ofLanguage s l).target = some T) : (ofLanguage s l).planOf s (.document d) =
    .ok (Plan.draft T d.artifacts d.metadata s.planDefaults) := by
  rw [planOf, plan, htarget]

theorem notes_attempt_plan {p : Plan} (htarget : (ofLanguage s l).target = some p.target)
    (hplan : Plan.draft p.target d.artifacts d.metadata s.planDefaults = .ok p) {P : Outcome → Prop}
    (hrun : Notes ((ofLanguage s l).runPlan s p) h P) : Notes ((ofLanguage s l).attempt s (.document d)) h P := by
  rw [attempt, planOf_document htarget, hplan]
  refine notes_ofExcept ?_
  dsimp only
  rwa [if_pos htarget]

theorem notes_attempt_fault {f : PlanFault} (htarget : (ofLanguage s l).target = some T)
    (hplan : Plan.draft T d.artifacts d.metadata s.planDefaults = .error f) :
    Notes ((ofLanguage s l).attempt s (.document d)) h fun o =>
      o.isOk = false ∧ o.error = some .transpileFailed := by
  rw [attempt, planOf_document htarget, hplan]
  exact notes_ofExcept (notes_record _ (notes_now (notes_pure ⟨rfl, rfl⟩ _)))

/-- A document whose runner has none of its tools, by what its outcome tells. -/
structure ToldMissing (s : Settings) (d : Document) (o : Outcome) : Prop where
  documentation : d.language = .none → o.isOk = true ∧ o.mock = false
  statements : d.language = .sql → Plan.SaysNothing d.artifacts → o.isOk = false ∧ o.error = some .transpileFailed
  excuses : d.language ≠ .none → ¬ (d.language = .sql ∧ Plan.SaysNothing d.artifacts) → o.Excuses s
  manifests : d.language = .kubernetes → s.mockMissingTools.isTrue = true →
    ∃ labels, manifestLabels 1 (Plan.contents .kubernetes d.artifacts) = .ok labels ∧ o.HasUnits labels
  units : d.language = .sql → ¬ Plan.SaysNothing d.artifacts → s.mockMissingTools.isTrue = true →
    o.HasUnits (((Plan.contents .sql d.artifacts).flatMap Sql.statements).map (Sql.label 60))

theorem target_ofLanguage (s : Settings) (l : Language) : (ofLanguage s l).target = targetOf l := by
  cases l <;> rfl

theorem exists_manifestLabels {ms : List Text} (h : ∀ m ∈ ms, ∃ index label, Manifest.label index m = .ok label)
    (index : Nat) : ∃ labels, manifestLabels index ms = .ok labels := by
  induction ms generalizing index with
  | nil => exact ⟨[], rfl⟩
  | cons m ms ih =>
    obtain ⟨⟨i, label, hlabel⟩, hms⟩ := List.forall_mem_cons.mp h
    obtain ⟨label', hlabel'⟩ := Manifest.exists_label hlabel index
    obtain ⟨labels, hlabels⟩ := ih hms (index + 1)
    exact ⟨label' :: labels, bind_eq_ok_iff.mpr ⟨label', hlabel', bind_eq_ok_iff.mpr ⟨labels, hlabels, rfl⟩⟩⟩

/-- What a plan that runs in name tells of its document. -/
theorem toldMissing_of_skips {p : Plan} (hl : targetOf d.language = some p.target)
    (hplan : Plan.draft p.target d.artifacts d.metadata s.planDefaults = .ok p)
    (hsaid : ¬ (d.language = .sql ∧ Plan.SaysNothing d.artifacts)) (ho : Skips s p o) : ToldMissing s d o := by
  constructor
  · intro hnone
    rw [hnone] at hl
    cases hl
  · exact fun hsql hnothing => (hsaid ⟨hsql, hnothing⟩).elim
  · exact fun _ _ => ho.excuses
  · intro hkubernetes hmock
    have htarget : p.target = .kubernetes :=
      Option.some.inj (hl.symm.trans (targetOf_eq_some_iff.mpr hkubernetes))
    obtain ⟨q, rfl, hmanifests⟩ := Plan.manifests_of_draft (htarget ▸ hplan)
    exact hmanifests ▸ ho.units hmock
  · intro hsql _ hmock
    have htarget : p.target = .sql := Option.some.inj (hl.symm.trans (targetOf_eq_some_iff.mpr hsql))
    obtain ⟨q, rfl, hstatements⟩ := Plan.statements_of_draft (htarget ▸ hplan)
    exact hstatements ▸ ho.units hmock

/-- A missing tool fails no document and has no effect. Whatever is in the text, the run ends with an outcome, asks for no
process, and leaves the files of the host as they were. The document runs in name, with a success for every manifest and
statement, unless the settings want no such runs; and only one without statements has no plan. -/
theorem execute_missing (hd : Document.ofText t = .ok d) (s : Settings) (h : Host)
    (hmissing : ∀ tool ∈ (ofLanguage s d.language).tools, tool ∉ h.tools)
    (hmanifests : d.language = .kubernetes →
      ∀ m ∈ Plan.contents .kubernetes d.artifacts, ∃ index label, Manifest.label index m = .ok label) :
    ∃ o rs, (ofLanguage s d.language).execute s (.document d) h = (.ok o, { h with journal := h.journal ++ rs }) ∧
      ToldMissing s d o := by
  change Notes _ h (ToldMissing s d)
  obtain ⟨c, hc, hd⟩ := bind_eq_ok_iff.mp hd
  obtain ⟨tree, -, hd⟩ := bind_eq_ok_iff.mp hd
  obtain rfl := Except.ok.inj hd
  by_cases hl : c.language = .none
  · dsimp only
    rw [hl]
    refine notes_now (notes_pure ?_ h)
    constructor <;> simp [Outcome.success]
  -- the deciding detector has left an artifact for its target, so only empty statements can be in the way of a plan
  obtain ⟨T, hT, hsome⟩ := Classification.exists_target_of_ofText hc hl
  have htarget := (target_ofLanguage s c.language).trans hT
  by_cases hnothing : c.language = .sql ∧ Plan.SaysNothing c.artifacts
  · have hsql : T = .sql := Option.some.inj (hT.symm.trans (targetOf_eq_some_iff.mpr hnothing.1))
    subst hsql
    refine notes_execute htarget ((notes_attempt_fault htarget (Plan.draft_of_saysNothing hsome hnothing.2)).mono ?_)
    intro o ho
    constructor <;> simp [hnothing, ho]
  · have hsaid : T = .sql → ¬ Plan.SaysNothing c.artifacts :=
      fun hsql hn => hnothing ⟨targetOf_eq_some_iff.mp (hsql ▸ hT), hn⟩
    obtain ⟨p, hplan⟩ := Plan.exists_draft (Classification.isPlannable_of_ofText hc) hsome hsaid s.planDefaults
    have hp := Plan.target_of_draft hplan
    subst hp
    refine notes_execute htarget (notes_attempt_plan htarget hplan ?_)
    refine (notes_runPlan htarget hmissing ?_).mono fun o => toldMissing_of_skips hT hplan hnothing
    rintro q rfl
    obtain ⟨q', hq, hcontents⟩ := Plan.manifests_of_draft hplan
    cases hq
    exact exists_manifestLabels (hcontents ▸ hmanifests (targetOf_eq_some_iff.mp hT)) 1

theorem execute_missing_pod :
    let h : Host := { tools := ["docker"], endings := [.crash "unused"], clock := default }
    ∃ d o rs, Document.ofText "```yaml\napiVersion: v1\nkind: Pod\n```\n" = .ok d ∧
      (ofLanguage {} d.language).execute {} (.document d) h = (.ok o, { h with journal := rs }) ∧
      o.isOk = true ∧ o.mock = true ∧ o.HasUnits ["pod-1"] := by
  intro h
  have hread : (Document.ofText "```yaml\napiVersion: v1\nkind: Pod\n```\n").toOption.map
      (fun d => (d.language, Plan.contents .kubernetes d.artifacts)) =
        some (.kubernetes, ["apiVersion: v1\nkind: Pod".toList]) := by decide +kernel
  have hlabel : manifestLabels 1 ["apiVersion: v1\nkind: Pod"] = .ok ["pod-1".toList] := by decide +kernel
  cases hd : Document.ofText "```yaml\napiVersion: v1\nkind: Pod\n```\n" with
  | error f =>
    rw [hd] at hread
    cases hread
  | ok d =>
    rw [hd] at hread
    obtain ⟨hl, hcontents⟩ := Prod.mk.inj (Option.some.inj hread)
    have hmissing : ∀ tool ∈ (ofLanguage {} d.language).tools, tool ∉ h.tools := by
      rw [hl]
      decide
    have hmanifests : ∀ m ∈ Plan.contents .kubernetes d.artifacts,
        ∃ index label, Manifest.label index m = .ok label := by
      intro m hm
      rw [hcontents, List.mem_singleton] at hm
      exact ⟨1, "pod-1", hm ▸ by decide +kernel⟩
    obtain ⟨o, rs, hrun, htold⟩ := execute_missing hd {} h hmissing fun _ => hmanifests
    obtain ⟨labels, hlabels, hunits⟩ := htold.manifests hl rfl
    rw [hcontents, hlabel] at hlabels
    cases hlabels
    obtain ⟨hok, hmock⟩ := (htold.excuses (by simp [hl]) (by simp [hl])).inName rfl
    exact ⟨d, o, rs, rfl, hrun, hok, hmock, hunits⟩

end Runner
end Runbook
