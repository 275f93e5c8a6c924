import Runbook.Proofs.Text.Search
import Runbook.Proofs.Document.Detection

/-!
The manifest that is applied and the one that was found. A block is read as it stands, and its artifact holds what is left
of it without the white space at its ends.
-/
namespace Runbook

open Markup (fences)

variable {t : Text} {a : Artifact} {as : List Artifact} {fs : List Fence} {ds : List Directive} {l : Language}
  {c : Classification}

/-- Manifests are found by one detector only. -/
theorem Detector.exists_manifest_of_mem (h : detect l fs ds = .ok as) (ha : a ∈ as) (hk : a.kind = .kubernetes) :
    ∃ f ∈ fs, ∃ kind, Manifest.kind? f.content = .ok (some kind) ∧ a = manifestOf f kind := by
  cases l with
  | kubernetes =>
    obtain ⟨f, hf, -, kind, hkind, hm⟩ := (mem_kubernetes_iff h).mp ha
    exact ⟨f, hf, kind, hkind, hm⟩
  | dockerfile | terraform | sql =>
    cases h
    obtain ⟨f, -, rfl⟩ := List.mem_map.mp ha
    cases hk
  | git =>
    cases h
    obtain ⟨f, -, hf⟩ := List.mem_filterMap.mp ha
    obtain ⟨path, -, rfl⟩ := Option.map_eq_some_iff.mp hf
    cases hk
  | executable =>
    cases h
    unfold executable at ha
    split at ha
    · obtain ⟨f, -, hf⟩ := List.mem_filterMap.mp ha
      obtain ⟨kind, hkind, rfl⟩ := Option.map_eq_some_iff.mp hf
      obtain rfl : kind = .kubernetes := hk
      unfold shellKind? at hkind
      split at hkind
      · cases hkind
      · split at hkind <;> cases hkind
    · cases ha
  | none =>
    cases h
    cases ha

namespace Classification

theorem exists_manifest_of_mem (hc : ofText t = .ok c) (ha : a ∈ c.artifacts) (hk : a.kind = .kubernetes) :
    ∃ f ∈ fences t, ∃ kind, Manifest.kind? f.content = .ok (some kind) ∧ a = Detector.manifestOf f kind := by
  obtain ⟨ds, found, -, hfound, rfl⟩ := ofTextWith_eq_ok_iff.mp hc
  obtain ⟨p, hp, ha⟩ := List.mem_flatMap.mp ha
  exact Detector.exists_manifest_of_mem (hfound.detect hp).2 ha hk

/-- No white space at either end. -/
structure IsTight (t : Text) : Prop where
  head : ∀ c ∈ t.head?, Text.isBlank c = false
  last : ∀ c ∈ t.getLast?, Text.isBlank c = false

theorem IsTight.strip_eq (h : IsTight t) : t.strip = t := by
  have htrim := Text.trim_run (b := []) (t := t) (q := []) (f := Text.isBlank) (by simp) (by simp) h.head h.last
  simpa [Text.strip] using htrim

/-- Every manifest of a document stands in a block, whose line and kind it has and of whose content it keeps all but the
white space at the ends. Where the block has none there, the manifest is read as what was found. -/
theorem kind?_of_mem (hc : ofText t = .ok c) (ha : a ∈ c.artifacts) (hk : a.kind = .kubernetes) :
    ∃ f ∈ fences t, a.line = some f.line ∧ a.content = f.content.strip ∧
      ∃ kind, Manifest.kind? f.content = .ok (some kind) ∧ a.detail = some kind.lower ∧
        (IsTight f.content → Manifest.kind? a.content = .ok (some kind)) := by
  obtain ⟨f, hf, kind, hkind, rfl⟩ := exists_manifest_of_mem hc ha hk
  refine ⟨f, hf, rfl, rfl, kind, hkind, rfl, fun htight => ?_⟩
  have hsame : (Detector.manifestOf f kind).content = f.content := htight.strip_eq
  rw [hsame, hkind]

def podBlock : Text := "```yaml\napiVersion: v1\nkind: Pod\n```\n"

def pod : Artifact :=
  { kind := .kubernetes, content := "apiVersion: v1\nkind: Pod", line := some 1, detail := some "pod" }

theorem kind?_of_mem_podBlock : ∃ c, ofText podBlock = .ok c ∧ pod ∈ c.artifacts ∧
    ∃ f ∈ fences podBlock, IsTight f.content ∧ pod.line = some f.line ∧ pod.content = f.content.strip ∧
      ∃ kind, Manifest.kind? f.content = .ok (some kind) ∧ pod.detail = some kind.lower ∧
        Manifest.kind? pod.content = .ok (some kind) := by
  have hread : (ofText podBlock).toOption.map (·.artifacts) = some [pod] := by decide +kernel
  have hfences : (fences podBlock).map (·.content) = [pod.content] := by decide +kernel
  have hhead : pod.content.head? = some 'a' := by decide +kernel
  have hlast : pod.content.getLast? = some 'd' := by decide +kernel
  have htight : IsTight pod.content := ⟨by rw [hhead]; rintro - ⟨⟩; rfl, by rw [hlast]; rintro - ⟨⟩; rfl⟩
  cases hc : ofText podBlock with
  | error e =>
    rw [hc] at hread
    cases hread
  | ok c =>
    rw [hc] at hread
    have hpods : c.artifacts = [pod] := Option.some.inj hread
    have ha : pod ∈ c.artifacts := by
      rw [hpods]
      exact List.mem_cons_self
    obtain ⟨f, hf, hline, hcontent, kind, hkind, hdetail, hkept⟩ := kind?_of_mem hc ha rfl
    have hmem : f.content ∈ (fences podBlock).map (·.content) := List.mem_map_of_mem hf
    have hf' : f.content = pod.content := by
      rw [hfences] at hmem
      exact List.mem_singleton.mp hmem
    have htight' : IsTight f.content := hf' ▸ htight
    exact ⟨c, rfl, ha, f, hf, htight', hline, hcontent, kind, hkind, hdetail, hkept htight'⟩

/-- A block that is indented as a whole, which its first line is no more once the white space is gone. -/
def indentedPod : Text := "```yaml\n  apiVersion: v1\n  kind: Pod\n```\n"

theorem kind?_of_mem_indentedPod : (ofText indentedPod).toOption.map (·.artifacts) =
      some [{ pod with content := "apiVersion: v1\n  kind: Pod" }] ∧
    Manifest.kind? "apiVersion: v1\n  kind: Pod" = .ok none := by
  constructor <;> decide +kernel

end Classification
end Runbook
