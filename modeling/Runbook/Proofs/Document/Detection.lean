import Mathlib.Data.List.Forall2
import Runbook.Proofs.Value.Fault
import Runbook.Document.Classification

/-! A document is classified by what each detector finds on its own. -/
namespace Runbook

variable {fences : List Fence} {ds : List Directive} {l : Language} {ls : List Language}
  {found : List (Language × List Artifact)} {as : List Artifact} {c : Classification} {t : Text}

namespace Detector

/-- Looking for manifests fails only where the kind of a block cannot be told. -/
theorem kubernetes_returns_iff : (∃ as, kubernetes fences = .ok as) ↔
    ∀ f ∈ fences, mayBeManifest f = true → ∃ kind, Manifest.kind? f.content = .ok kind := by
  induction fences with
  | nil => exact ⟨fun _ => by simp, fun _ => ⟨[], rfl⟩⟩
  | cons f fs ih =>
    rw [kubernetes, List.forall_mem_cons, ← ih]
    split
    · rename_i hf
      constructor
      · rintro ⟨as, h⟩
        obtain ⟨kind, hkind, hrest⟩ := bind_eq_ok_iff.mp h
        refine ⟨fun _ => ⟨kind, hkind⟩, ?_⟩
        cases kind with
        | none => exact ⟨as, hrest⟩
        | some k =>
          obtain ⟨rest, hr, -⟩ := bind_eq_ok_iff.mp hrest
          exact ⟨rest, hr⟩
      · rintro ⟨hk, rest, hr⟩
        obtain ⟨kind, hkind⟩ := hk hf
        cases kind with
        | none => exact ⟨rest, bind_eq_ok_iff.mpr ⟨none, hkind, hr⟩⟩
        | some k => exact ⟨_, bind_eq_ok_iff.mpr ⟨some k, hkind, bind_eq_ok_iff.mpr ⟨rest, hr, rfl⟩⟩⟩
    · rename_i hf
      exact ⟨fun h => ⟨fun hf' => (hf hf').elim, h⟩, fun h => h.2⟩

theorem kubernetes_eq_nil_iff : kubernetes fences = .ok [] ↔
    ∀ f ∈ fences, mayBeManifest f = true → Manifest.kind? f.content = .ok none := by
  induction fences with
  | nil => exact ⟨fun _ => by simp, fun _ => rfl⟩
  | cons f fs ih =>
    rw [kubernetes, List.forall_mem_cons, ← ih]
    split
    · rename_i hf
      constructor
      · intro h
        obtain ⟨kind, hkind, hrest⟩ := bind_eq_ok_iff.mp h
        cases kind with
        | none => exact ⟨fun _ => hkind, hrest⟩
        | some k =>
          obtain ⟨rest, -, hr⟩ := bind_eq_ok_iff.mp hrest
          cases hr
      · rintro ⟨hk, hr⟩
        exact bind_eq_ok_iff.mpr ⟨none, hk hf, hr⟩
    · rename_i hf
      exact ⟨fun h => ⟨fun hf' => (hf hf').elim, h⟩, fun h => h.2⟩

/-- What a manifest in a block is recorded as. -/
def manifestOf (f : Fence) (kind : Text) : Artifact :=
  { kind := .kubernetes, content := f.content.strip, line := some f.line, detail := some kind.lower }

/-- The artifacts are the blocks whose kind is told, and nothing else. -/
theorem mem_kubernetes_iff {a : Artifact} (h : kubernetes fences = .ok as) :
    a ∈ as ↔ ∃ f ∈ fences, mayBeManifest f = true ∧
      ∃ kind, Manifest.kind? f.content = .ok (some kind) ∧ a = manifestOf f kind := by
  induction fences generalizing as with
  | nil =>
    cases h
    simp
  | cons f fs ih =>
    rw [kubernetes] at h
    rw [List.exists_mem_cons_iff]
    split at h
    · rename_i hf
      obtain ⟨kind, hkind, h⟩ := bind_eq_ok_iff.mp h
      cases kind with
      | none =>
        rw [ih h]
        simp [hkind]
      | some kind =>
        obtain ⟨rest, hrest, h⟩ := bind_eq_ok_iff.mp h
        cases h
        rw [List.mem_cons, ih hrest]
        simp [hf, hkind, manifestOf]
    · rename_i hf
      rw [ih h]
      simp [hf]

/-- No other detector can fail. -/
theorem detect_returns_iff : (∃ as, detect l fences ds = .ok as) ↔
    (l = .kubernetes → ∃ as, kubernetes fences = .ok as) := by
  cases l with
  | kubernetes => exact ⟨fun h _ => h, fun h => h rfl⟩
  | dockerfile | terraform | executable | git | sql | none => exact ⟨fun _ h => (by cases h), fun _ => ⟨_, rfl⟩⟩

end Detector

namespace Classification

/-- What detectors find, one by one. -/
def Found (fences : List Fence) (ds : List Directive) (ls : List Language)
    (found : List (Language × List Artifact)) : Prop :=
  List.Forall₂ (fun l p => p.1 = l ∧ Detector.detect l fences ds = .ok p.2) ls found

theorem runDetectors_eq_ok_iff : runDetectors fences ds ls = .ok found ↔ Found fences ds ls found := by
  induction ls generalizing found with
  | nil =>
    rw [runDetectors, Found, List.forall₂_nil_left_iff]
    constructor
    · rintro ⟨⟩
      rfl
    · rintro rfl
      rfl
  | cons l ls ih =>
    rw [runDetectors, bind_eq_ok_iff, Found, List.forall₂_cons_left_iff]
    constructor
    · rintro ⟨as, has, h⟩
      obtain ⟨rest, hrest, h⟩ := bind_eq_ok_iff.mp h
      cases h
      exact ⟨(l, as), rest, ⟨rfl, has⟩, ih.mp hrest, rfl⟩
    · rintro ⟨⟨l', as⟩, rest, ⟨rfl, has⟩, hrest, rfl⟩
      exact ⟨as, has, bind_eq_ok_iff.mpr ⟨rest, ih.mpr hrest, rfl⟩⟩

theorem ofTextWith_eq_ok_iff : ofTextWith ls t = .ok c ↔
    ∃ ds found, Directive.all t = .ok ds ∧ Found (Markup.fences t) ds ls found ∧
      c = ⟨decide found, found.flatMap (·.2), metadataOf ds (HiddenRun.all t) (ContentLink.all t)⟩ := by
  rw [ofTextWith, bind_eq_ok_iff]
  constructor
  · rintro ⟨ds, hds, h⟩
    obtain ⟨found, hfound, h⟩ := bind_eq_ok_iff.mp h
    cases h
    exact ⟨ds, found, hds, runDetectors_eq_ok_iff.mp hfound, rfl⟩
  · rintro ⟨ds, found, hds, hfound, rfl⟩
    exact ⟨ds, hds, bind_eq_ok_iff.mpr ⟨found, runDetectors_eq_ok_iff.mpr hfound, rfl⟩⟩

theorem exists_found_iff : (∃ found, Found fences ds ls found) ↔
    ∀ l ∈ ls, ∃ as, Detector.detect l fences ds = .ok as := by
  induction ls with
  | nil => exact ⟨fun _ => by simp, fun _ => ⟨[], .nil⟩⟩
  | cons l ls ih =>
    rw [List.forall_mem_cons, ← ih]
    constructor
    · rintro ⟨found, h⟩
      obtain ⟨⟨l', as⟩, rest, ⟨rfl, has⟩, hrest, rfl⟩ := List.forall₂_cons_left_iff.mp h
      exact ⟨⟨as, has⟩, rest, hrest⟩
    · rintro ⟨⟨as, has⟩, rest, hrest⟩
      exact ⟨(l, as) :: rest, .cons ⟨rfl, has⟩ hrest⟩

theorem Found.detect (h : Found fences ds ls found) {p : Language × List Artifact} (hp : p ∈ found) :
    p.1 ∈ ls ∧ Detector.detect p.1 fences ds = .ok p.2 := by
  induction h with
  | nil => cases hp
  | cons hl _ ih =>
    rcases List.mem_cons.mp hp with rfl | hp
    · obtain ⟨rfl, hd⟩ := hl
      exact ⟨List.mem_cons_self, hd⟩
    · obtain ⟨hm, hd⟩ := ih hp
      exact ⟨List.mem_cons_of_mem _ hm, hd⟩

theorem Found.exists_of_mem (h : Found fences ds ls found) (hl : l ∈ ls) : ∃ as, (l, as) ∈ found := by
  induction h with
  | nil => cases hl
  | cons hp _ ih =>
    rcases List.mem_cons.mp hl with rfl | hl
    · obtain ⟨rfl, -⟩ := hp
      exact ⟨_, List.mem_cons_self⟩
    · obtain ⟨as, has⟩ := ih hl
      exact ⟨as, List.mem_cons_of_mem _ has⟩

/-- The deciding detector found something. -/
theorem exists_of_decide_ne_none (h : decide found ≠ .none) :
    ∃ as, (decide found, as) ∈ found ∧ as ≠ [] := by
  have hfirst : decide found = ((found.find? fun p => !p.2.isEmpty).map (·.1)).getD .none := rfl
  rw [hfirst] at h ⊢
  cases hp : found.find? fun p => !p.2.isEmpty with
  | none =>
    rw [hp] at h
    exact (h rfl).elim
  | some p =>
    refine ⟨p.2, List.mem_of_find?_eq_some hp, ?_⟩
    simpa using List.find?_some hp

end Classification
end Runbook
