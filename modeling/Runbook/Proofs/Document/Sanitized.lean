import Runbook.Proofs.Markup.FenceLine
import Runbook.Proofs.Markup.Stretch
import Runbook.Proofs.Document.Disarmed
import Runbook.Proofs.Document.Legible

/-!
What a sanitized text can still be run as. Every kind of artifact comes from blocks that bear it, so a text gets no new
kind as long as its blocks get nothing new to bear.
-/
namespace Runbook

open Markup (fences)
open Sanitize (sanitize IsArranged)

variable {t : Text} {f g : Fence} {fs : List Fence} {ds : List Directive} {l : Language} {as : List Artifact}
  {kind : ArtifactKind} {a : Artifact} {c : Classification}

/-- A block is found by the detector of a kind that needs no directive. -/
inductive Fence.Bears (f : Fence) : ArtifactKind → Prop
  | dockerfile (h : Detector.isDockerfile f = true) : f.Bears .dockerfile
  | terraform (h : Detector.isTerraform f = true) : f.Bears .terraform
  | kubernetes {k : Text} (h : Detector.mayBeManifest f = true) (hk : Manifest.kind? f.content = .ok (some k)) :
    f.Bears .kubernetes
  | sql (h : Detector.isSql f = true) : f.Bears .sql
  | file (h : f.filePath.isSome = true) : f.Bears .file

/-- Only a block that its info claims, or that may be a manifest, bears anything. -/
theorem Fence.Bears.claims (h : f.Bears kind) : f.isClaimed = true ∨ Detector.mayBeManifest f = true := by
  cases h with
  | dockerfile h | terraform h | sql h | file h => exact .inl (by simp [Fence.isClaimed, h])
  | kubernetes h => exact .inr h

namespace Detector

/-- Without directives, every artifact comes from a block that bears its kind. -/
theorem exists_bears_of_mem (h : detect l fs [] = .ok as) (ha : a ∈ as) : ∃ f ∈ fs, f.Bears a.kind := by
  cases l with
  | dockerfile =>
    cases h
    obtain ⟨f, hf, rfl⟩ := List.mem_map.mp ha
    obtain ⟨hf, hd⟩ := List.mem_filter.mp hf
    exact ⟨f, hf, .dockerfile hd⟩
  | terraform =>
    cases h
    obtain ⟨f, hf, rfl⟩ := List.mem_map.mp ha
    obtain ⟨hf, hd⟩ := List.mem_filter.mp hf
    exact ⟨f, hf, .terraform hd⟩
  | kubernetes =>
    obtain ⟨f, hf, hm, k, hk, rfl⟩ := (mem_kubernetes_iff h).mp ha
    exact ⟨f, hf, .kubernetes hm hk⟩
  | executable =>
    cases h
    cases ha
  | git =>
    cases h
    obtain ⟨f, hf, hpath⟩ := List.mem_filterMap.mp ha
    obtain ⟨path, hp, rfl⟩ := Option.map_eq_some_iff.mp hpath
    exact ⟨f, hf, .file (by rw [hp]; rfl)⟩
  | sql =>
    cases h
    obtain ⟨f, hf, rfl⟩ := List.mem_map.mp ha
    obtain ⟨hf, hd⟩ := List.mem_filter.mp hf
    exact ⟨f, hf, .sql hd⟩
  | none =>
    cases h
    cases ha

/-- A kind that a block bears is found by one of the detectors, whatever the directives. -/
theorem exists_detector_of_bears (hf : f ∈ fs) (h : f.Bears kind) :
    ∃ l ∈ priority, ∀ as, detect l fs ds = .ok as → ∃ a ∈ as, a.kind = kind := by
  cases h with
  | dockerfile hd =>
    refine ⟨.dockerfile, by decide, fun as has => ?_⟩
    cases has
    exact ⟨_, List.mem_map_of_mem (List.mem_filter.mpr ⟨hf, hd⟩), rfl⟩
  | terraform hd =>
    refine ⟨.terraform, by decide, fun as has => ?_⟩
    cases has
    exact ⟨_, List.mem_map_of_mem (List.mem_filter.mpr ⟨hf, hd⟩), rfl⟩
  | kubernetes hm hk =>
    refine ⟨.kubernetes, by decide, fun as has => ?_⟩
    exact ⟨_, (mem_kubernetes_iff has).mpr ⟨f, hf, hm, _, hk, rfl⟩, rfl⟩
  | sql hd =>
    refine ⟨.sql, by decide, fun as has => ?_⟩
    cases has
    exact ⟨_, List.mem_map_of_mem (List.mem_filter.mpr ⟨hf, hd⟩), rfl⟩
  | file hp =>
    refine ⟨.git, by decide, fun as has => ?_⟩
    cases has
    obtain ⟨path, hpath⟩ := Option.isSome_iff_exists.mp hp
    exact ⟨_, List.mem_filterMap.mpr ⟨f, hf, by rw [hpath]; rfl⟩, rfl⟩

end Detector

namespace Classification

theorem exists_artifact_of_bears (hc : ofText t = .ok c) (hf : f ∈ fences t) (h : f.Bears kind) :
    ∃ a ∈ c.artifacts, a.kind = kind := by
  obtain ⟨ds, found, -, hfound, rfl⟩ := ofTextWith_eq_ok_iff.mp hc
  obtain ⟨l, hl, hdetect⟩ := Detector.exists_detector_of_bears hf h
  obtain ⟨as, has⟩ := hfound.exists_of_mem hl
  obtain ⟨a, ha, hkind⟩ := hdetect as (hfound.detect has).2
  exact ⟨a, List.mem_flatMap.mpr ⟨(l, as), has, ha⟩, hkind⟩

theorem exists_bears_of_mem (hc : ofText t = .ok c) (hds : Directive.all t = .ok []) (ha : a ∈ c.artifacts) :
    ∃ f ∈ fences t, f.Bears a.kind := by
  obtain ⟨ds, found, hds', hfound, rfl⟩ := ofTextWith_eq_ok_iff.mp hc
  cases hds.symm.trans hds'
  obtain ⟨p, hp, ha⟩ := List.mem_flatMap.mp ha
  exact Detector.exists_bears_of_mem (hfound.detect hp).2 ha

/-! Blocks that bear the same -/

/-- A block with the same claims: the same language, a path if the other has one, and where the other may be a manifest
the very same content. -/
structure IsTwin (f g : Fence) : Prop where
  lang : g.lang = f.lang
  path : g.filePath.isSome = f.filePath.isSome
  content : Detector.mayBeManifest f = true → g.content = f.content

theorem IsTwin.mayBeManifest (h : IsTwin f g) (hf : Detector.mayBeManifest f = true) :
    Detector.mayBeManifest g = true := by
  have hpath : g.filePath.isNone = f.filePath.isNone := by
    rw [← Option.not_isSome, ← Option.not_isSome, h.path]
  have hsame : Detector.mayBeManifest g = Detector.mayBeManifest f := by
    simp only [Detector.mayBeManifest, Detector.isDockerfile, Detector.isTerraform, Detector.isShell, Detector.isSql,
      h.lang, hpath, h.content hf]
  rw [hsame, hf]

theorem IsTwin.bears (h : IsTwin f g) (hf : f.Bears kind) : g.Bears kind := by
  cases hf with
  | dockerfile hd => exact .dockerfile (by rwa [Detector.isDockerfile, h.lang])
  | terraform hd => exact .terraform (by rwa [Detector.isTerraform, h.lang])
  | kubernetes hm hk => exact .kubernetes (h.mayBeManifest hm) (by rwa [h.content hm])
  | sql hd => exact .sql (by rwa [Detector.isSql, h.lang])
  | file hp => exact .file (by rwa [h.path])

/-- Every block that is left and may bear something has a twin among the blocks of the text. -/
def KeepsBlocks (t : Text) : Prop :=
  ∀ f ∈ fences (sanitize t), f.isClaimed = true ∨ Detector.mayBeManifest f = true → ∃ g ∈ fences t, IsTwin f g

theorem keepsBlocks_of_isArranged (h : IsArranged t) : KeepsBlocks t := by
  intro f hf _
  have hsaid := List.mem_map_of_mem (f := Sanitize.said) hf
  rw [fences, h.map_said 1 1, ← fences] at hsaid
  obtain ⟨g, hg, heq⟩ := List.mem_map.mp hsaid
  obtain ⟨hinfo, hcontent⟩ := Prod.mk.inj heq
  have hinfo : g.info = f.info := hinfo
  exact ⟨g, hg, by rw [Fence.lang, Fence.lang, hinfo], by rw [Fence.filePath, Fence.filePath, hinfo], fun _ => hcontent⟩

theorem exists_ofText_sanitize (hc : ofText t = .ok c) (h : KeepsBlocks t) : ∃ c', ofText (sanitize t) = .ok c' := by
  refine ofText_returns_iff.mpr ⟨⟨[], (disarmed_sanitize t).directives⟩, Detector.kubernetes_returns_iff.mpr ?_⟩
  intro f hf hm
  obtain ⟨g, hg, htwin⟩ := h f hf (.inr hm)
  obtain ⟨-, hmanifests⟩ := ofText_returns_iff.mp ⟨c, hc⟩
  rw [← htwin.content hm]
  exact Detector.kubernetes_returns_iff.mp hmanifests g hg (htwin.mayBeManifest hm)

/-- Sanitizing arms nothing as long as every block that is left, and may bear something, has a twin in the text; and so it
is where all that is taken out stands in prose. -/
theorem kinds_sanitize (hc : ofText t = .ok c) :
    (KeepsBlocks t → ∃ c', ofText (sanitize t) = .ok c' ∧ (c.artifacts = [] → c'.artifacts = []) ∧
      ∀ a ∈ c'.artifacts, ∃ b ∈ c.artifacts, b.kind = a.kind) ∧
    (IsArranged t → KeepsBlocks t) := by
  refine ⟨fun h => ?_, keepsBlocks_of_isArranged⟩
  obtain ⟨c', hc'⟩ := exists_ofText_sanitize hc h
  have hkinds : ∀ a ∈ c'.artifacts, ∃ b ∈ c.artifacts, b.kind = a.kind := by
    intro a ha
    obtain ⟨f, hf, hbears⟩ := exists_bears_of_mem hc' (disarmed_sanitize t).directives ha
    obtain ⟨g, hg, htwin⟩ := h f hf hbears.claims
    exact exists_artifact_of_bears hc hg (htwin.bears hbears)
  refine ⟨c', hc', fun hnone => List.eq_nil_iff_forall_not_mem.mpr fun a ha => ?_, hkinds⟩
  obtain ⟨b, hb, -⟩ := hkinds a ha
  rw [hnone] at hb
  cases hb

/-- A directive on its own line above a block that the passes leave alone. -/
def taggedBlock : Text := "<!-- polyglot:x -->\n```dockerfile\nFROM x\n```\nend\n"

theorem isProse_tag : Sanitize.IsProse "<!-- polyglot:x -->\n" := by
  have hpassed : ∀ u, Sanitize.Passed "<!-- polyglot:x -->\n" u →
      u ∈ ["<!-- polyglot:x -->\n".toList, "\n".toList, []] := by
    intro u hu
    induction hu with
    | start => exact List.mem_cons_self
    | hidden _ ih | lines _ ih | comments _ ih | links _ ih =>
      simp only [List.mem_cons, List.not_mem_nil, or_false] at ih
      rcases ih with rfl | rfl | rfl <;> decide +kernel
  refine ⟨fun u hu => ?_, by decide +kernel, by decide +kernel⟩
  have hu := hpassed u hu
  simp only [List.mem_cons, List.not_mem_nil, or_false] at hu
  rcases hu with rfl | rfl | rfl
  · have hs : Directive.IsComment ("<!--" ++ " " ++ Namespace.polyglot.name ++ ":" ++ "x " ++ "-->") :=
      .mk (.mk fun c hc => by rw [List.mem_singleton.mp hc]; rfl) (by decide +kernel)
    exact Sanitize.isStretch_of_comment (t := "\n") hs (by decide +kernel) (by decide +kernel)
  · exact Sanitize.isStretch_of_plain (by decide) (by decide)
  · exact Sanitize.isStretch_of_plain (by decide) (by decide)

theorem isVerbatim_block : Sanitize.IsVerbatim "```dockerfile\nFROM x\n```\n" := by
  have hplain : "```dockerfile\nFROM x\n```\n".toList.all Sanitize.isPlain = true := by decide +kernel
  have hclean := Sanitize.clean_of_plain (by decide +kernel) hplain
  have hstretch := Sanitize.isStretch_of_plain (by decide +kernel) hplain
  have hlines : Text.splitAt '\n' "```dockerfile\nFROM x\n```\n" =
      "```dockerfile".toList :: (["FROM x".toList] ++ ["```".toList, []]) := rfl
  exact .mk hlines rfl (by decide +kernel) (by decide +kernel) hclean hstretch

theorem isArranged_taggedBlock : IsArranged taggedBlock :=
  .prose (p := "<!-- polyglot:x -->\n") isProse_tag
    (.block (b := "```dockerfile\nFROM x\n```\n") isVerbatim_block
      (.rest (t := "end\n") (by decide +kernel) (by decide +kernel)))

theorem kinds_sanitize_taggedBlock : ∃ c c', ofText taggedBlock = .ok c ∧ ofText (sanitize taggedBlock) = .ok c' ∧
    ∀ a ∈ c'.artifacts, ∃ b ∈ c.artifacts, b.kind = a.kind := by
  have hread : (ofText taggedBlock).isOk = true := by decide +kernel
  cases hc : ofText taggedBlock with
  | error e =>
    rw [hc] at hread
    cases hread
  | ok c =>
    obtain ⟨c', hc', -, hkinds⟩ := (kinds_sanitize hc).1 ((kinds_sanitize hc).2 isArranged_taggedBlock)
    exact ⟨c, c', rfl, hc', hkinds⟩

/-- What stands after a directive on the same line can be an opening fence once the directive is gone. -/
def shieldedBlock : Text := "<!-- polyglot:x -->```dockerfile\nFROM x\n```\n"

theorem sanitize_arms_shieldedBlock :
    (ofText shieldedBlock).toOption.map (·.artifacts) = some [] ∧
      (ofText (sanitize shieldedBlock)).toOption.map (·.artifacts) =
        some [{ kind := .dockerfile, content := "FROM x", line := some 1 }] := by
  decide +kernel

end Classification
end Runbook
