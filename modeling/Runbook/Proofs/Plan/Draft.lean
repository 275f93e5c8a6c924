import Runbook.Plan.Draft
import Runbook.Proofs.Document.Detection
import Runbook.Proofs.Value.Fields
import Runbook.Runner.Basic

/-!
A document that is classified has a plan for the target of its language, unless all its statements are empty. Any other
target has one exactly where there is an artifact for it.
-/
namespace Runbook

variable {artifacts : List Artifact} {metadata : Fields Value} {defaults : PlanDefaults} {T : Target} {f : PlanFault}
  {p : Plan} {t : Text} {c : Classification} {fences : List Fence} {ds : List Directive}

namespace Classification

/-! The record of a document, key by key -/

variable {key : Text} {name : String}

theorem get?_recordUnless (name : String) (es : Fields Value) :
    Fields.get? name.toList (recordUnless name es) = if es = [] then none else some (.ofFields es) := by
  cases es with
  | nil => rfl
  | cons e es => simp [recordUnless, Fields.one, Fields.get?]

theorem get?_recordUnless_of_ne (hkey : name.toList ≠ key) (es : Fields Value) :
    Fields.get? key (recordUnless name es) = none := by
  cases es with
  | nil => rfl
  | cons e es => simp [recordUnless, Fields.one, Fields.get?, hkey]

theorem get?_listUnless_of_ne (hkey : name.toList ≠ key) (xs : List Value) :
    Fields.get? key (listUnless name xs) = none := by
  cases xs with
  | nil => rfl
  | cons x xs => simp [listUnless, Fields.one, Fields.get?, hkey]

theorem get?_one_of_ne (hkey : name.toList ≠ key) (v : Value) : Fields.get? key (Fields.one name.toList v) = none := by
  simp [Fields.one, Fields.get?, hkey]

/-- Beside the types, a record has what the directives, links and hidden runs put there. -/
theorem get?_metadataOf (htype : "type".toList ≠ key) (hsubtype : "subtype".toList ≠ key) (ds : List Directive)
    (hidden : List HiddenRun) (links : List ContentLink) : Fields.get? key (metadataOf ds hidden links) =
      Fields.get? key (listUnless "directives" (ds.map Directive.toValue) ++ recordUnless "params" (params ds) ++
        recordUnless "environment" (environment ds) ++ recordUnless "terraform_vars" (terraformVars ds) ++
        listUnless "kyozo" (kyozo ds) ++ listUnless "content_links" (links.map ContentLink.toValue) ++
        listUnless "hidden" (hidden.map HiddenRun.toValue)) := by
  have htyped (v : Value) : Fields.get? key (Fields.one "type" v) = none := get?_one_of_ne htype v
  have hsubtyped (v : Value) : Fields.get? key (Fields.one "subtype" v) = none := get?_one_of_ne hsubtype v
  have hnil : Fields.get? key ([] : Fields Value) = none := rfl
  rw [metadataOf]
  cases ds.head? <;> dsimp only <;> split <;>
    simp only [Fields.get?_append, htyped, hsubtyped, hnil, Option.none_or, Option.or_none]

theorem get?_environment (ds : List Directive) (hidden : List HiddenRun) (links : List ContentLink) :
    Fields.get? "environment" (metadataOf ds hidden links) =
      if environment ds = [] then none else some (.ofFields (environment ds)) := by
  rw [get?_metadataOf (by decide) (by decide)]
  simp (disch := decide) only [Fields.get?_append, get?_recordUnless_of_ne, get?_listUnless_of_ne, get?_recordUnless,
    Option.none_or, Option.or_none]

theorem get?_terraformVars (ds : List Directive) (hidden : List HiddenRun) (links : List ContentLink) :
    Fields.get? "terraform_vars" (metadataOf ds hidden links) =
      if terraformVars ds = [] then none else some (.ofFields (terraformVars ds)) := by
  rw [get?_metadataOf (by decide) (by decide)]
  simp (disch := decide) only [Fields.get?_append, get?_recordUnless_of_ne, get?_listUnless_of_ne, get?_recordUnless,
    Option.none_or, Option.or_none]

end Classification

/-! What a target takes -/

namespace Target

/-- The kinds of artifacts that plans for the target are made of. -/
def kinds : Target → List ArtifactKind
  | .docker => [.dockerfile]
  | .terraform => [.terraform]
  | .kubernetes => [.kubernetes]
  | .git => [.file]
  | .bash => [.bash, .executable]
  | .sql => [.sql]

/-- The language whose documents are for the target. -/
def language : Target → Language
  | .docker => .dockerfile
  | .terraform => .terraform
  | .kubernetes => .kubernetes
  | .git => .git
  | .bash => .executable
  | .sql => .sql

/-- What is told where there is no such artifact. -/
def absence : Target → PlanFault
  | .docker => .noDockerfile
  | .terraform => .noTerraform
  | .kubernetes => .noManifests
  | .git => .noFiles
  | .bash => .noExecutable
  | .sql => .noSql

def Lacks (T : Target) (artifacts : List Artifact) : Prop := ∀ a ∈ artifacts, a.kind ∉ T.kinds

instance : Decidable (T.Lacks artifacts) := inferInstanceAs (Decidable (∀ a ∈ artifacts, a.kind ∉ T.kinds))

end Target

theorem Runner.targetOf_eq_some_iff {l : Language} : targetOf l = some T ↔ l = T.language := by
  cases l <;> cases T <;> decide

namespace Plan

/-- No block of statements holds one. -/
def SaysNothing (artifacts : List Artifact) : Prop := ∀ a ∈ artifacts, a.kind = .sql → Sql.statements a.content = []

instance : Decidable (SaysNothing artifacts) :=
  inferInstanceAs (Decidable (∀ a ∈ artifacts, a.kind = .sql → Sql.statements a.content = []))

/-- Artifacts and a record from which plans can be made: every file has a path, and the variables are in maps. -/
structure IsPlannable (artifacts : List Artifact) (metadata : Fields Value) : Prop where
  path : ∀ a ∈ artifacts, a.kind = .file → ∃ path, a.location = some path ∧ path ≠ []
  vars : ∃ es, record .terraform "terraform_vars" metadata = .ok es
  environment : ∃ es, record .bash "environment" metadata = .ok es

theorem contents_eq_nil_iff {kind : ArtifactKind} (hkind : T.kinds = [kind]) :
    contents kind artifacts = [] ↔ T.Lacks artifacts := by
  simp [contents, Target.Lacks, hkind]

theorem scripts_eq_nil_iff :
    (artifacts.filter ShellScript.isScript).map (·.content) = [] ↔ Target.bash.Lacks artifacts := by
  simp [ShellScript.isScript, Target.Lacks, Target.kinds]

theorem put_ne_nil {α : Type} (key : Text) (v : α) (es : Fields α) : Fields.put key v es ≠ [] := by
  cases es with
  | nil => simp [Fields.put]
  | cons e es =>
    rw [Fields.put]
    split <;> simp

/-- A step of the collection of files. -/
def addFile (files : Fields Text) (a : Artifact) : Fields Text :=
  match GitRepository.path? a with
  | some path => Fields.put path a.content files
  | none => files

theorem foldl_eq_nil_iff {files : Fields Text} : artifacts.foldl addFile files = [] ↔
    files = [] ∧ ∀ a ∈ artifacts, GitRepository.path? a = none := by
  induction artifacts generalizing files with
  | nil => simp
  | cons a as ih =>
    rw [List.foldl_cons, ih, addFile, List.forall_mem_cons]
    cases hpath : GitRepository.path? a with
    | none => simp
    | some path => simp [put_ne_nil]

theorem filesOf_eq_nil_iff (h : IsPlannable artifacts metadata) :
    GitRepository.filesOf artifacts = [] ↔ Target.git.Lacks artifacts := by
  have hfold : GitRepository.filesOf artifacts = artifacts.foldl addFile [] := rfl
  rw [hfold, foldl_eq_nil_iff, Target.Lacks]
  simp only [true_and]
  refine forall₂_congr fun a ha => ?_
  by_cases hkind : a.kind = .file
  · obtain ⟨path, hpath, hne⟩ := h.path a ha hkind
    simp [GitRepository.path?, Target.kinds, hkind, hpath, hne]
  · simp [GitRepository.path?, Target.kinds, hkind]

theorem draft_of_lacks (h : IsPlannable artifacts metadata) (hlacks : T.Lacks artifacts) :
    draft T artifacts metadata defaults = .error T.absence := by
  cases T with
  | docker => rw [draft, DockerBuild.draft, (contents_eq_nil_iff rfl).mpr hlacks]; rfl
  | terraform => rw [draft, TerraformPlan.draft, (contents_eq_nil_iff rfl).mpr hlacks]; rfl
  | kubernetes => rw [draft, KubernetesApply.draft, (contents_eq_nil_iff rfl).mpr hlacks]; rfl
  | git => rw [draft, GitRepository.draft, (filesOf_eq_nil_iff h).mpr hlacks]; rfl
  | bash => rw [draft, ShellScript.draft, scripts_eq_nil_iff.mpr hlacks]; rfl
  | sql => rw [draft, SqlBatch.draft, (contents_eq_nil_iff rfl).mpr hlacks]; rfl

theorem saysNothing_iff : SaysNothing artifacts ↔ (contents .sql artifacts).flatMap Sql.statements = [] := by
  rw [List.flatMap_eq_nil_iff, contents, List.forall_mem_map]
  simp [SaysNothing]

theorem exists_draft (h : IsPlannable artifacts metadata) (hsome : ¬ T.Lacks artifacts)
    (hsaid : T = .sql → ¬ SaysNothing artifacts) (defaults : PlanDefaults) :
    ∃ p, draft T artifacts metadata defaults = .ok p := by
  cases T with
  | docker =>
    obtain ⟨_, _, hblocks⟩ := List.exists_cons_of_ne_nil (mt (contents_eq_nil_iff rfl).mp hsome)
    rw [draft, DockerBuild.draft, hblocks]
    exact ⟨_, rfl⟩
  | terraform =>
    obtain ⟨_, _, hblocks⟩ := List.exists_cons_of_ne_nil (mt (contents_eq_nil_iff rfl).mp hsome)
    obtain ⟨vars, hvars⟩ := h.vars
    rw [draft, TerraformPlan.draft, hblocks]
    dsimp only
    rw [hvars]
    exact ⟨_, rfl⟩
  | kubernetes =>
    obtain ⟨_, _, hblocks⟩ := List.exists_cons_of_ne_nil (mt (contents_eq_nil_iff rfl).mp hsome)
    rw [draft, KubernetesApply.draft, hblocks]
    exact ⟨_, rfl⟩
  | git =>
    obtain ⟨_, _, hfiles⟩ := List.exists_cons_of_ne_nil (mt (filesOf_eq_nil_iff h).mp hsome)
    rw [draft, GitRepository.draft, hfiles]
    exact ⟨_, rfl⟩
  | bash =>
    obtain ⟨_, _, hscripts⟩ := List.exists_cons_of_ne_nil (mt scripts_eq_nil_iff.mp hsome)
    obtain ⟨environment, henvironment⟩ := h.environment
    rw [draft, ShellScript.draft, hscripts]
    dsimp only
    rw [henvironment]
    exact ⟨_, rfl⟩
  | sql =>
    obtain ⟨_, _, hblocks⟩ := List.exists_cons_of_ne_nil (mt (contents_eq_nil_iff rfl).mp hsome)
    obtain ⟨_, _, hstatements⟩ := List.exists_cons_of_ne_nil (mt saysNothing_iff.mpr (hsaid rfl))
    rw [hblocks] at hstatements
    rw [draft, SqlBatch.draft, hblocks]
    dsimp only
    rw [hstatements]
    exact ⟨_, rfl⟩

theorem draft_of_saysNothing (hsome : ¬ Target.sql.Lacks artifacts) (hnothing : SaysNothing artifacts) :
    draft .sql artifacts metadata defaults = .error .noStatements := by
  obtain ⟨_, _, hblocks⟩ := List.exists_cons_of_ne_nil (mt (contents_eq_nil_iff rfl).mp hsome)
  rw [saysNothing_iff, hblocks] at hnothing
  rw [draft, SqlBatch.draft, hblocks]
  dsimp only
  rw [hnothing]
  rfl

/-- A plan is refused where there is no artifact for it, or none of its statements. -/
theorem draft_eq_error_iff (h : IsPlannable artifacts metadata) : draft T artifacts metadata defaults = .error f ↔
    (T.Lacks artifacts ∧ f = T.absence) ∨
      (T = .sql ∧ ¬ T.Lacks artifacts ∧ SaysNothing artifacts ∧ f = .noStatements) := by
  -- every case but the last is a refusal, and which one it is does not depend on the defaults
  by_cases hlacks : T.Lacks artifacts
  · rw [draft_of_lacks h hlacks]
    simp [hlacks, eq_comm]
  by_cases hnothing : T = .sql ∧ SaysNothing artifacts
  · obtain ⟨rfl, hnothing⟩ := hnothing
    rw [draft_of_saysNothing hlacks hnothing]
    simp [hlacks, hnothing, eq_comm]
  · obtain ⟨p, hp⟩ := exists_draft h hlacks (fun hT hn => hnothing ⟨hT, hn⟩) defaults
    rw [hp]
    constructor
    · rintro ⟨⟩
    · rintro (⟨hl, -⟩ | ⟨hT, -, hn, -⟩)
      · exact (hlacks hl).elim
      · exact (hnothing ⟨hT, hn⟩).elim

theorem target_of_draft (h : draft T artifacts metadata defaults = .ok p) : p.target = T := by
  cases T <;> obtain ⟨q, -, rfl⟩ := map_eq_ok_iff.mp h <;> rfl

theorem manifests_of_draft (h : draft .kubernetes artifacts metadata defaults = .ok p) :
    ∃ q, p = .kubernetes q ∧ q.manifests = contents .kubernetes artifacts := by
  obtain ⟨q, hq, rfl⟩ := map_eq_ok_iff.mp h
  rw [KubernetesApply.draft] at hq
  split at hq
  · cases hq
  · cases hq
    exact ⟨_, rfl, rfl⟩

theorem statements_of_draft (h : draft .sql artifacts metadata defaults = .ok p) :
    ∃ q, p = .sql q ∧ q.statements = (contents .sql artifacts).flatMap Sql.statements := by
  obtain ⟨q, hq, rfl⟩ := map_eq_ok_iff.mp h
  rw [SqlBatch.draft] at hq
  split at hq
  · cases hq
  · split at hq
    · cases hq
    · cases hq
      exact ⟨_, rfl, rfl⟩

end Plan

/-! Classified documents -/

namespace Detector

theorem filePath_ne_nil {f : Fence} {path : Text} (h : f.filePath = some path) : path ≠ [] := by
  rw [Fence.filePath] at h
  split at h
  · rename_i hpath
    cases h
    exact hpath.2
  · cases h

theorem mem_of_shellKind? {f : Fence} {kind : ArtifactKind} (h : shellKind? f = some kind) : kind ∈ Target.bash.kinds := by
  rw [shellKind?] at h
  split at h
  · cases h
    simp [Target.kinds]
  · split at h
    · cases h
      simp [Target.kinds]
    · cases h

/-- What a detector finds is for the target of its language, and a file has a path. -/
structure IsFor (l : Language) (a : Artifact) : Prop where
  kind : ∃ T, Runner.targetOf l = some T ∧ a.kind ∈ T.kinds
  path : a.kind = .file → ∃ path, a.location = some path ∧ path ≠ []

theorem isFor_of_mem {l : Language} {as : List Artifact} {a : Artifact} (h : detect l fences ds = .ok as) (ha : a ∈ as) :
    IsFor l a := by
  cases l with
  | dockerfile =>
    cases h
    obtain ⟨f, -, rfl⟩ := List.mem_map.mp ha
    exact ⟨⟨.docker, rfl, List.mem_singleton_self _⟩, nofun⟩
  | terraform =>
    cases h
    obtain ⟨f, -, rfl⟩ := List.mem_map.mp ha
    exact ⟨⟨.terraform, rfl, List.mem_singleton_self _⟩, nofun⟩
  | kubernetes =>
    obtain ⟨f, -, -, kind, -, rfl⟩ := (mem_kubernetes_iff h).mp ha
    exact ⟨⟨.kubernetes, rfl, List.mem_singleton_self _⟩, nofun⟩
  | executable =>
    cases h
    rw [executable] at ha
    split at ha
    · obtain ⟨f, -, hf⟩ := List.mem_filterMap.mp ha
      obtain ⟨kind, hkind, rfl⟩ := Option.map_eq_some_iff.mp hf
      have hscript := mem_of_shellKind? hkind
      have hne : kind ≠ .file := by
        rintro rfl
        exact absurd hscript (by decide)
      exact ⟨⟨.bash, rfl, hscript⟩, fun hfile => (hne hfile).elim⟩
    · cases ha
  | git =>
    cases h
    obtain ⟨f, -, hf⟩ := List.mem_filterMap.mp ha
    obtain ⟨path, hpath, rfl⟩ := Option.map_eq_some_iff.mp hf
    exact ⟨⟨.git, rfl, List.mem_singleton_self _⟩, fun _ => ⟨path, rfl, filePath_ne_nil hpath⟩⟩
  | sql =>
    cases h
    obtain ⟨f, -, rfl⟩ := List.mem_map.mp ha
    exact ⟨⟨.sql, rfl, List.mem_singleton_self _⟩, nofun⟩
  | none =>
    cases h
    cases ha

end Detector

namespace Classification

theorem exists_record {key : Text} {es : Fields Value}
    (h : Fields.get? key metadata = if es = [] then none else some (.ofFields es)) :
    ∃ vars, Plan.record T key metadata = .ok vars := by
  rw [Plan.record, h]
  by_cases hes : es = []
  · rw [if_pos hes]
    exact ⟨_, rfl⟩
  · rw [if_neg hes]
    exact ⟨_, rfl⟩

theorem isPlannable_of_ofText (h : ofText t = .ok c) : Plan.IsPlannable c.artifacts c.metadata := by
  obtain ⟨ds, found, -, hfound, rfl⟩ := ofTextWith_eq_ok_iff.mp h
  constructor
  · intro a ha
    obtain ⟨p, hp, ha⟩ := List.mem_flatMap.mp ha
    exact (Detector.isFor_of_mem (hfound.detect hp).2 ha).path
  · exact exists_record (get?_terraformVars ds _ _)
  · exact exists_record (get?_environment ds _ _)

/-- The deciding language has a target, and an artifact for it. -/
theorem exists_target_of_ofText (h : ofText t = .ok c) (hl : c.language ≠ .none) :
    ∃ T, Runner.targetOf c.language = some T ∧ ¬ T.Lacks c.artifacts := by
  obtain ⟨ds, found, -, hfound, rfl⟩ := ofTextWith_eq_ok_iff.mp h
  obtain ⟨as, has, hne⟩ := exists_of_decide_ne_none hl
  obtain ⟨a, ha⟩ := List.exists_mem_of_ne_nil as hne
  obtain ⟨T, hT, hkind⟩ := (Detector.isFor_of_mem (hfound.detect has).2 ha).kind
  exact ⟨T, hT, fun hlacks => hlacks a (List.mem_flatMap.mpr ⟨_, has, ha⟩) hkind⟩

/-- A document has a plan for the target of its language unless it is one of statements and holds none. For any target,
a plan is refused exactly where the document has no artifact for it or, again, none of its statements. -/
theorem draft_ofText (h : ofText t = .ok c) (defaults : PlanDefaults) :
    (c.language ≠ .none → ∃ T, Runner.targetOf c.language = some T ∧
      (T = .sql ∧ Plan.SaysNothing c.artifacts → Plan.draft T c.artifacts c.metadata defaults = .error .noStatements) ∧
      (¬ (T = .sql ∧ Plan.SaysNothing c.artifacts) →
        ∃ p, Plan.draft T c.artifacts c.metadata defaults = .ok p ∧ p.target = T)) ∧
    ∀ T f, Plan.draft T c.artifacts c.metadata defaults = .error f ↔ (T.Lacks c.artifacts ∧ f = T.absence) ∨
      (T = .sql ∧ ¬ T.Lacks c.artifacts ∧ Plan.SaysNothing c.artifacts ∧ f = .noStatements) := by
  have hplannable := isPlannable_of_ofText h
  refine ⟨fun hl => ?_, fun T f => Plan.draft_eq_error_iff hplannable⟩
  obtain ⟨T, hT, hsome⟩ := exists_target_of_ofText h hl
  refine ⟨T, hT, ?_, fun hsaid => ?_⟩
  · rintro ⟨rfl, hnothing⟩
    exact Plan.draft_of_saysNothing hsome hnothing
  · obtain ⟨p, hp⟩ := Plan.exists_draft hplannable hsome (fun hsql hn => hsaid ⟨hsql, hn⟩) defaults
    exact ⟨p, hp, Plan.target_of_draft hp⟩

/-- A Dockerfile decides, and the only block of statements holds a comment. -/
theorem draft_ofText_emptyStatements :
    ∃ c, ofText "```dockerfile\nFROM x\n```\n```sql\n-- none\n```\n" = .ok c ∧
      (∃ p, Plan.draft .docker c.artifacts c.metadata {} = .ok p ∧ p.target = .docker) ∧
      Plan.draft .sql c.artifacts c.metadata {} = .error .noStatements ∧
      Plan.draft .git c.artifacts c.metadata {} = .error .noFiles := by
  have hread : (ofText "```dockerfile\nFROM x\n```\n```sql\n-- none\n```\n").toOption.map
      (fun c => (c.language, c.artifacts)) = some (.dockerfile, [
        { kind := .dockerfile, content := "FROM x", line := some 1 },
        { kind := .sql, content := "-- none", executable := true, line := some 4, detail := some "unknown" }]) := by
    decide +kernel
  cases hc : ofText "```dockerfile\nFROM x\n```\n```sql\n-- none\n```\n" with
  | error e =>
    rw [hc] at hread
    cases hread
  | ok c =>
    rw [hc] at hread
    obtain ⟨hl, hartifacts⟩ := Prod.mk.inj (Option.some.inj hread)
    obtain ⟨hdecided, herror⟩ := draft_ofText hc {}
    obtain ⟨T, hT, -, hplan⟩ := hdecided (by rw [hl]; decide)
    rw [hl] at hT
    cases hT
    refine ⟨c, rfl, hplan nofun, (herror .sql _).mpr (.inr ⟨rfl, ?_, ?_, rfl⟩), (herror .git _).mpr (.inl ⟨?_, rfl⟩)⟩
    · rw [hartifacts]
      decide
    · rw [hartifacts]
      decide +kernel
    · rw [hartifacts]
      decide

end Classification
end Runbook
