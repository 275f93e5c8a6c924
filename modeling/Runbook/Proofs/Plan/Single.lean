import Runbook.Proofs.Plan.Directives

/-!
The plans that take a document as a whole. Each is made of all fences of its language in their order, or of the first, and
of what the directives set, and of nothing else in the document.
-/
namespace Runbook

variable {fences : List Fence} {ds : List Directive} {ls : List Language} {T T' : Target}
  {found : List (Language × List Artifact)} {as : List Artifact} {c : Classification} {t : Text} {f : Fence}

/-! Variables -/

theorem Text.perm_insertBy {α : Type} (key : α → Text) (a : α) (as : List α) : (insertBy key a as).Perm (a :: as) := by
  induction as with
  | nil => exact .refl _
  | cons b as ih =>
    rw [insertBy]
    split
    · exact (ih.cons b).trans (.swap a b as)
    · exact .refl _

theorem Text.perm_sortBy {α : Type} (key : α → Text) (as : List α) : (sortBy key as).Perm as := by
  have hfold : ∀ sorted : List α, (as.foldl (fun sorted a => insertBy key a sorted) sorted).Perm (as ++ sorted) := by
    induction as with
    | nil => exact fun sorted => .refl sorted
    | cons a as ih =>
      intro sorted
      exact (ih _).trans (((perm_insertBy key a sorted).append_left as).trans List.perm_middle)
  have hall := hfold []
  rwa [List.append_nil] at hall

/-- Every variable has its argument. -/
theorem TerraformPlan.perm_varArguments (vars : Fields Text) :
    (varArguments vars).Perm (vars.map fun (name, value) => "-var=" ++ name ++ "=" ++ value) :=
  (Text.perm_sortBy _ vars).map _

/-! Which artifacts are for a target -/

theorem Target.eq_of_mem_kinds {kind : ArtifactKind} (h : kind ∈ T.kinds) (h' : kind ∈ T'.kinds) : T = T' := by
  cases T <;> cases T' <;> simp_all [kinds]

namespace Detector

theorem language_mem_priority (T : Target) : T.language ∈ priority := by
  cases T <;> decide

/-- Fences that hold a script, if the document says that they are to be run. -/
def isScript (f : Fence) : Bool := (shellKind? f).isSome

theorem content_executable (hdeclared : ds.any declaresExecutable = true) (fences : List Fence) :
    (executable fences ds).map (·.content) = (fences.filter isScript).map fun f => f.content.strip := by
  rw [executable, if_pos hdeclared]
  induction fences with
  | nil => rfl
  | cons f fences ih =>
    rw [List.filterMap_cons, List.filter_cons, isScript]
    cases shellKind? f with
    | none => exact ih
    | some kind => exact congrArg (f.content.strip :: ·) ih

end Detector

namespace Classification

theorem Found.no_kinds (h : Found fences ds ls found) (hl : T.language ∉ ls) :
    (found.flatMap (·.2)).filter (fun a => a.kind ∈ T.kinds) = [] := by
  rw [List.filter_eq_nil_iff]
  intro a ha hkind
  obtain ⟨p, hp, ha⟩ := List.mem_flatMap.mp ha
  obtain ⟨hpl, hdetect⟩ := h.detect hp
  obtain ⟨T', hT', hkind'⟩ := (Detector.isFor_of_mem hdetect ha).kind
  obtain rfl := Target.eq_of_mem_kinds (of_decide_eq_true hkind) hkind'
  rw [Runner.targetOf_eq_some_iff.mp hT'] at hpl
  exact hl hpl

/-- All artifacts for a target come from the detector of its language. -/
theorem Found.filter_kinds (h : Found fences ds ls found) (hnodup : ls.Nodup) (hl : T.language ∈ ls)
    (has : Detector.detect T.language fences ds = .ok as) :
    (found.flatMap (·.2)).filter (fun a => a.kind ∈ T.kinds) = as := by
  induction h with
  | nil => cases hl
  | @cons l p ls found hp hrest ih =>
    obtain ⟨hpl, hdetect⟩ := hp
    rw [List.nodup_cons] at hnodup
    rw [List.flatMap_cons, List.filter_append]
    by_cases hsame : T.language = l
    · subst hsame
      obtain rfl : p.2 = as := Except.ok.inj (hdetect.symm.trans has)
      have hall : p.2.filter (fun a => a.kind ∈ T.kinds) = p.2 := by
        refine List.filter_eq_self.mpr fun a ha => decide_eq_true ?_
        obtain ⟨T', hT', hkind⟩ := (Detector.isFor_of_mem has ha).kind
        rwa [Option.some.inj ((Runner.targetOf_eq_some_iff.mpr rfl).symm.trans hT')]
      rw [hall, Found.no_kinds hrest hnodup.1, List.append_nil]
    · have hone : Found fences ds [l] [p] := .cons ⟨hpl, hdetect⟩ .nil
      have hnone := hone.no_kinds (T := T) (by simpa using hsame)
      rw [List.flatMap_singleton] at hnone
      rw [hnone, List.nil_append, ih hnodup.2 ((List.mem_cons.mp hl).resolve_left hsame)]

variable (hc : ofText t = .ok c) (hds : Directive.all t = .ok ds)

include hc hds

/-- The artifacts of a document for a target, from its fences and directives. -/
theorem filter_kinds_of_ofText (has : Detector.detect T.language (Markup.fences t) ds = .ok as) :
    c.artifacts.filter (fun a => a.kind ∈ T.kinds) = as := by
  obtain ⟨ds', found, hds', hfound, rfl⟩ := ofTextWith_eq_ok_iff.mp hc
  obtain rfl : ds = ds' := Except.ok.inj (hds.symm.trans hds')
  exact hfound.filter_kinds (by decide) (Detector.language_mem_priority T) has

theorem metadata_of_ofText : c.metadata = metadataOf ds (HiddenRun.all t) (ContentLink.all t) := by
  obtain ⟨ds', found, hds', hfound, rfl⟩ := ofTextWith_eq_ok_iff.mp hc
  obtain rfl : ds = ds' := Except.ok.inj (hds.symm.trans hds')
  rfl

theorem contents_dockerfile :
    Plan.contents .dockerfile c.artifacts = ((Markup.fences t).filter Detector.isDockerfile).map (·.content) := by
  have hfor := filter_kinds_of_ofText (T := .docker) hc hds rfl
  simp only [Target.kinds, List.mem_singleton] at hfor
  rw [Plan.contents, hfor, Detector.dockerfile, List.map_map]
  rfl

theorem contents_terraform :
    Plan.contents .terraform c.artifacts = ((Markup.fences t).filter Detector.isTerraform).map fun f => f.content.strip := by
  have hfor := filter_kinds_of_ofText (T := .terraform) hc hds rfl
  simp only [Target.kinds, List.mem_singleton] at hfor
  rw [Plan.contents, hfor, Detector.terraform, List.map_map]
  rfl

theorem scripts_of_ofText : c.artifacts.filter ShellScript.isScript = Detector.executable (Markup.fences t) ds := by
  have hfor := filter_kinds_of_ofText (T := .bash) hc hds rfl
  rw [← hfor]
  congr 1
  funext a
  simp [ShellScript.isScript, Target.kinds, Bool.decide_or]

/-! The plans -/

/-- The tag of an image: the last that the document sets, unless it counts as false. -/
def tagOf (ordinary : Text) (ds : List Directive) : Text :=
  (((Fields.last? "tag" (paramSettings ds)).filter Value.isTrue).map Value.toText).getD ordinary

def configurationOf (fences : List Fence) : Text :=
  Plan.paragraphs ((fences.filter Detector.isTerraform).map fun f => f.content.strip)

/-- What a fence gives to the script: all but the line that names an interpreter, without line feeds around it. -/
def bodyOf (f : Fence) : Text := (ShellScript.splitShebang f.content.strip).2.trim (· = '\n')

def scriptOf (fences : List Fence) : Text := Plan.paragraphs ((fences.filter Detector.isScript).map bodyOf)

omit hds in
theorem not_lacks_of_ofText (hl : c.language = T.language) : ¬ T.Lacks c.artifacts := by
  have hsome : c.language ≠ .none := by
    rw [hl]
    cases T <;> decide
  obtain ⟨T', hT', hsome⟩ := exists_target_of_ofText hc hsome
  rwa [Option.some.inj ((Runner.targetOf_eq_some_iff.mpr hl).symm.trans hT')]

theorem draft_docker (hl : c.language = .dockerfile) (defaults : PlanDefaults) :
    ∃ f, (Markup.fences t).find? Detector.isDockerfile = some f ∧
      Plan.draft .docker c.artifacts c.metadata defaults = .ok (.docker ⟨f.content, tagOf defaults.dockerTag ds,
        DockerBuild.buildCommand (tagOf defaults.dockerTag ds) DockerBuild.fileName⟩) := by
  have hsome := mt (Plan.contents_eq_nil_iff rfl).mp (not_lacks_of_ofText (T := .docker) hc hl)
  have hcontents := contents_dockerfile hc hds
  rw [hcontents, List.map_eq_nil_iff] at hsome
  obtain ⟨f, fs, hfs⟩ := List.exists_cons_of_ne_nil hsome
  refine ⟨f, ?_, ?_⟩
  · rw [← List.head?_filter, hfs, List.head?_cons]
  · rw [Plan.draft, DockerBuild.draft, hcontents, hfs, metadata_of_ofText hc hds]
    dsimp only [List.map_cons]
    rw [param?_metadataOf]
    rfl

theorem draft_terraform (hl : c.language = .terraform) (defaults : PlanDefaults) :
    Plan.draft .terraform c.artifacts c.metadata defaults = .ok (.terraform {
      configuration := configurationOf (Markup.fences t)
      vars := Fields.merge [] (settings isTfvar ds)
      planCommand := Text.ofStrings ["terraform", "plan", "-input=false"] ++
        TerraformPlan.varArguments (Fields.merge [] (settings isTfvar ds))
      applyCommand := Text.ofStrings ["terraform", "apply", "-input=false", "-auto-approve"] ++
        TerraformPlan.varArguments (Fields.merge [] (settings isTfvar ds)) }) := by
  have hsome := mt (Plan.contents_eq_nil_iff rfl).mp (not_lacks_of_ofText (T := .terraform) hc hl)
  have hcontents := contents_terraform hc hds
  obtain ⟨block, blocks, hblocks⟩ := List.exists_cons_of_ne_nil hsome
  rw [Plan.draft, TerraformPlan.draft, hblocks]
  dsimp only
  rw [metadata_of_ofText hc hds, record_terraformVars, configurationOf, ← hcontents, hblocks]
  rfl

theorem draft_bash (hl : c.language = .executable) (defaults : PlanDefaults) :
    ∃ shebang, Plan.draft .bash c.artifacts c.metadata defaults =
      .ok (.bash ⟨scriptOf (Markup.fences t), shebang, Fields.merge [] (settings isEnv ds)⟩) := by
  have hsome := mt Plan.scripts_eq_nil_iff.mp (not_lacks_of_ofText (T := .bash) hc hl)
  have hcontents := congrArg (List.map (·.content)) (scripts_of_ofText hc hds)
  have hdeclared : ds.any Detector.declaresExecutable = true := by
    by_contra hno
    rw [hcontents, Detector.executable, if_neg hno] at hsome
    exact hsome rfl
  rw [Detector.content_executable hdeclared] at hcontents
  obtain ⟨first, rest, hscripts⟩ := List.exists_cons_of_ne_nil hsome
  refine ⟨(ShellScript.splitShebang first).1.getD ShellScript.defaultShebang, ?_⟩
  rw [Plan.draft, ShellScript.draft, hscripts]
  dsimp only
  rw [metadata_of_ofText hc hds, record_environment, scriptOf, ← hscripts, hcontents, List.map_map]
  rfl

end Classification
end Runbook
