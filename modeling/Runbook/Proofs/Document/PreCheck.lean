import Runbook.Proofs.Markup.Comment
import Runbook.Proofs.Markup.FenceLine
import Runbook.Proofs.Markup.FencedBlock
import Runbook.Proofs.Markup.ZeroWidth
import Runbook.Proofs.Document.Detection

/-!
The quick look at a text against its classification. It knows an opening fence by its line alone, and in that line only
spaces and tabs before the tag; that is the one thing that it can miss.
-/
namespace Runbook

open Text (foldChar isBlank isGap splitAt Reads Silent)
open Markup (tagWords IsMarker IsTag IsTagged fences fenceOpening?)
open Directive (IsOpening)

variable {t l q r x s tag marker : Text} {c : Char} {b : Option Char} {f : Fence} {ds : List Directive}

namespace Classification

/-! What the quick look finds -/

theorem claimsFence_iff : claimsFence t = true ↔ IsTag t := by
  unfold claimsFence
  rw [Bool.or_eq_true, List.any_eq_true]
  constructor
  · rintro (⟨word, hword, h⟩ | h)
    · split at h
      · rename_i r hr
        obtain ⟨w, rfl, hw⟩ := Text.afterFolded?_eq_some_iff.mp hr
        refine .word (hw ▸ List.mem_map_of_mem hword) fun c hc => ?_
        rw [hc] at h
        exact h
      · cases h
    · split at h
      · rename_i r hr
        obtain ⟨w, rfl, hw⟩ := Text.afterFolded?_eq_some_iff.mp hr
        cases r with
        | nil => cases h
        | cons c r => exact .file hw ⟨c, rfl, by simpa using h⟩
      · cases h
  · intro h
    cases h with
    | @word w r hw hr =>
      left
      obtain ⟨word, hword, he⟩ := List.mem_map.mp hw
      refine ⟨word, hword, ?_⟩
      rw [Text.afterFolded?_eq_some_iff.mpr ⟨w, rfl, he.symm⟩]
      cases r with
      | nil => rfl
      | cons c r => exact hr c rfl
    | @file w r hw hr =>
      right
      obtain ⟨c, hc, hblank⟩ := hr
      rw [Text.afterFolded?_eq_some_iff.mpr ⟨w, rfl, hw⟩]
      dsimp only
      rw [hc, Option.any_some, hblank]
      rfl

theorem reads_quickFence_iff : Reads quickFence b t ↔ (b = none ∨ b = some '\n') ∧ IsTagged isGap t := by
  constructor
  · rintro ⟨_, n, h⟩
    unfold quickFence at h
    split at h
    · rename_i hb
      refine ⟨hb, ?_⟩
      split at h
      · rename_i marker rest hm
        obtain ⟨s, hs, hmark⟩ := Option.bind_eq_some_iff.mp hm
        obtain ⟨indent, hi, rfl, -⟩ := Markup.indented?_eq_some_iff.mp hs
        obtain ⟨rfl, hmarker, -⟩ := Markup.marker?_eq_some_iff.mp hmark
        obtain ⟨blanks, tag, rfl, hblanks, htag⟩ := Text.exists_run isGap rest
        rw [Text.dropWhile_run hblanks htag] at h
        split at h
        · exact .mk hi hmarker hblanks (claimsFence_iff.mp ‹_›)
        · cases h
      · cases h
    · cases h
  · rintro ⟨hb, hi, hm, hblanks, ht⟩
    rename_i indent marker blanks tag
    have htag : ∀ c ∈ tag.head?, isGap c = false := fun c hc => ht.head_not_gap hc
    have hrest : ∀ c ∈ (blanks ++ tag).head?, c ∉ marker := by
      intro c hc
      cases blanks with
      | nil => exact ht.head_not_mem hm hc
      | cons d blanks =>
        obtain rfl : d = c := Option.mem_some_iff.mp hc
        exact hm.not_gap (hblanks d List.mem_cons_self)
    have hmark : ∀ c ∈ (marker ++ (blanks ++ tag)).head?, c ≠ ' ' := by
      intro c hc
      cases marker with
      | nil => exact absurd hm.1 (by simp)
      | cons d marker =>
        rintro rfl
        exact hm.not_gap (by decide) (List.mem_of_mem_head? hc)
    refine ⟨(), 0, ?_⟩
    rw [quickFence, if_pos hb, Markup.indented?_eq_some_iff.mpr ⟨indent, hi, rfl, hmark⟩, Option.bind_some,
      Markup.marker?_eq_some_iff.mpr ⟨rfl, hm, hrest⟩]
    dsimp only
    rw [Text.dropWhile_run hblanks htag, if_pos (claimsFence_iff.mpr ht)]

/-- The start of a line is where the text starts or a line feed was read. -/
theorem silent_quickFence_iff : Silent quickFence none t ↔ ∀ l ∈ splitAt '\n' t, ¬ IsTagged isGap l := by
  rw [Text.silent_iff]
  constructor
  · intro h l hl htag
    obtain ⟨p, q, rfl, hn, hp, hq⟩ := Text.mem_splitAt_iff.mp hl
    have hread := (Markup.isTagged_append_iff hq hn).mpr htag
    refine h p (l ++ q) rfl hread.ne_nil (reads_quickFence_iff.mpr ⟨?_, hread⟩)
    cases hlast : p.getLast? with
    | none => exact .inl (by rw [Text.lastBefore, hlast]; rfl)
    | some c => exact .inr (by rw [Text.lastBefore, hlast, hp c hlast]; rfl)
  · rintro h p r rfl - hr
    obtain ⟨hb, htag⟩ := reads_quickFence_iff.mp hr
    obtain ⟨l, q, rfl, hl, hq⟩ := Text.exists_run (· ≠ '\n') r
    have hn : '\n' ∉ l := fun hm => by simpa using hl _ hm
    have hq' : ∀ d ∈ q.head?, d = '\n' := fun d hd => by simpa using hq d hd
    refine h l (Text.mem_splitAt_iff.mpr ⟨p, q, rfl, hn, fun d hd => ?_, hq'⟩)
      ((Markup.isTagged_append_iff hq' hn).mp htag)
    rw [Text.lastBefore, hd] at hb
    simpa using hb

theorem reads_quickDirective_iff :
    Reads quickDirective b t ↔ ∃ o, (∃ space, IsOpening space o) ∧ o <+: t := by
  constructor
  · rintro ⟨_, n, h⟩
    unfold quickDirective at h
    split at h
    · rename_i rest hrest
      obtain rfl := Text.after?_eq_some_iff.mp hrest
      obtain ⟨⟨space, r⟩, hn, -⟩ := Option.map_eq_some_iff.mp h
      obtain ⟨o, ho, hot⟩ := Directive.namespace?_dropWhile_iff.mp ⟨r, hn⟩
      exact ⟨o, ⟨space, ho⟩, hot⟩
    · cases h
  · rintro ⟨o, ⟨space, ho⟩, hot⟩
    have hstart : ("<!--" : Text) <+: t := by
      obtain ⟨hb⟩ := ho
      simp only [List.append_assoc] at hot
      exact (List.prefix_append _ _).trans hot
    obtain ⟨rest, rfl⟩ := hstart
    obtain ⟨r, hr⟩ := Directive.namespace?_dropWhile_iff.mpr ⟨o, ho, hot⟩
    refine ⟨(), 3, ?_⟩
    rw [quickDirective, Text.after?_append]
    dsimp only
    rw [hr]
    rfl

theorem silent_quickDirective_iff :
    Silent quickDirective b t ↔ ∀ o, (∃ space, IsOpening space o) → ¬ o <:+: t := by
  refine Text.silent_iff_not_infix (fun _ _ => reads_quickDirective_iff) ?_
  rintro o ⟨space, ⟨hb⟩⟩
  simp

/-- A text without both keys has no manifest in any block, as a key stands on one line. -/
theorem kubernetes_eq_nil (h : ¬ (t.includes "apiVersion" ∧ t.includes "kind")) :
    Detector.kubernetes (fences t) = .ok [] := by
  rw [Detector.kubernetes_eq_nil_iff]
  intro f hf hm
  simp only [Detector.mayBeManifest, Bool.and_eq_true] at hm
  refine (h ⟨?_, ?_⟩).elim
  · exact Text.includes_iff.mpr (Markup.infix_of_content hf (Text.includes_iff.mp hm.1.2) (by decide))
  · exact Text.includes_iff.mpr (Markup.infix_of_content hf (Text.includes_iff.mp hm.2) (by decide))

theorem isPolyglot_of_kubernetes {as : List Artifact} (h : Detector.kubernetes (fences t) = .ok as) :
    isPolyglot t = .ok (Text.meets quickFence t || Text.meets quickDirective t ||
      (HiddenRun.inside t).any ZeroWidth.isZeroWidth || !as.isEmpty) := by
  unfold isPolyglot
  split
  · rename_i hq
    rcases hq with hq | hq <;> simp [hq]
  · rename_i hq
    simp only [not_or, Bool.not_eq_true] at hq
    rw [hq.1, hq.2, Bool.false_or, Bool.false_or]
    rw [← HiddenRun.inside]
    dsimp only
    by_cases hz : (HiddenRun.inside t).any ZeroWidth.isZeroWidth = true
    · rw [if_pos hz, hz, Bool.true_or]
    · rw [if_neg hz, Bool.eq_false_iff.mpr hz, Bool.false_or]
      split
      · rw [h]
        rfl
      · rename_i hkeys
        cases h.symm.trans (kubernetes_eq_nil hkeys)
        rfl

/-- What the quick look does not find: tagged lines, openings of directives, hidden runs and manifests. -/
theorem isPolyglot_eq_false_iff {as : List Artifact} (h : Detector.kubernetes (fences t) = .ok as) :
    isPolyglot t = .ok false ↔
      (∀ l ∈ splitAt '\n' t, ¬ IsTagged isGap l) ∧ (∀ o, (∃ space, IsOpening space o) → ¬ o <:+: t) ∧
        HiddenRun.all t = [] ∧ as = [] := by
  rw [isPolyglot_of_kubernetes h, Except.ok.injEq, Bool.or_eq_false_iff, Bool.or_eq_false_iff,
    Bool.or_eq_false_iff, Text.meets_eq_false_iff, Text.meets_eq_false_iff, silent_quickFence_iff,
    silent_quickDirective_iff, HiddenRun.all_eq_nil_iff, List.any_eq_false]
  simp [and_assoc]

end Classification

namespace Directive

theorem IsComment.exists_opening (h : IsComment s) : ∃ o, (∃ space, IsOpening space o) ∧ o <+: s := by
  obtain ⟨ho, -⟩ := h
  refine ⟨_, ⟨_, ho⟩, ?_⟩
  rw [List.append_assoc]
  exact List.prefix_append _ _

theorem all_eq_nil_of_no_opening (h : ∀ o, (∃ space, IsOpening space o) → ¬ o <:+: t) : all t = .ok [] := by
  refine all_eq_nil fun s hs hst => ?_
  obtain ⟨o, ho, hos⟩ := hs.exists_opening
  exact h o ho (hos.isInfix.trans hst)

end Directive

namespace Detector

theorem exists_of_map_filter {fs : List Fence} {p : Fence → Bool} {g : Fence → Artifact}
    (h : (fs.filter p).map g ≠ []) : ∃ f ∈ fs, p f = true := by
  have hne : fs.filter p ≠ [] := fun he => h (by rw [he]; rfl)
  obtain ⟨f, hf⟩ := List.exists_mem_of_ne_nil _ hne
  exact ⟨f, List.mem_filter.mp hf⟩

theorem exists_of_file {fs : List Fence} (h : file fs ≠ []) : ∃ f ∈ fs, f.filePath.isSome = true := by
  obtain ⟨a, ha⟩ := List.exists_mem_of_ne_nil _ h
  obtain ⟨f, hf, hp⟩ := List.mem_filterMap.mp ha
  obtain ⟨path, hpath, -⟩ := Option.map_eq_some_iff.mp hp
  exact ⟨f, hf, by rw [hpath]; rfl⟩

/-- Without directives and manifests, what is found was claimed by the info of a block. -/
theorem exists_isClaimed {fs : List Fence} {lang : Language} {as : List Artifact} (hne : as ≠ [])
    (h : detect lang fs [] = .ok as) (hk : kubernetes fs = .ok []) : ∃ f ∈ fs, f.isClaimed = true := by
  cases lang with
  | dockerfile =>
    cases h
    obtain ⟨f, hf, hd⟩ := exists_of_map_filter hne
    exact ⟨f, hf, by simp [Fence.isClaimed, hd]⟩
  | terraform =>
    cases h
    obtain ⟨f, hf, ht⟩ := exists_of_map_filter hne
    exact ⟨f, hf, by simp [Fence.isClaimed, ht]⟩
  | kubernetes =>
    cases hk.symm.trans h
    exact (hne rfl).elim
  | executable =>
    cases h
    exact (hne rfl).elim
  | git =>
    cases h
    obtain ⟨f, hf, hp⟩ := exists_of_file hne
    exact ⟨f, hf, by simp [Fence.isClaimed, hp]⟩
  | sql =>
    cases h
    obtain ⟨f, hf, hs⟩ := exists_of_map_filter hne
    exact ⟨f, hf, by simp [Fence.isClaimed, hs]⟩
  | none =>
    cases h
    exact (hne rfl).elim

end Detector

namespace Classification

/-- The classification of a text says anything, or the text holds a directive or a hidden run. -/
def Carries (c : Classification) (t : Text) : Prop :=
  c.language ≠ .none ∨ c.artifacts ≠ [] ∨ (∃ ds, Directive.all t = .ok ds ∧ ds ≠ []) ∨ HiddenRun.all t ≠ []

/-- A block is claimed by a tag that a blank other than a space or a tab sets apart from its marker, and nothing else
in the text meets the eye. -/
structure Overlooked (t : Text) : Prop where
  claimed : ∃ f ∈ fences t, f.isClaimed = true ∧ ∃ l ∈ splitAt '\n' t, ∃ marker,
    fenceOpening? l = some (marker, f.info) ∧ IsTagged isBlank l ∧ ¬ IsTagged isGap l
  tags : ∀ l ∈ splitAt '\n' t, ¬ IsTagged isGap l
  openings : ∀ o, (∃ space, IsOpening space o) → ¬ o <:+: t
  hidden : HiddenRun.all t = []
  manifests : ∀ f ∈ fences t, Detector.mayBeManifest f = true → Manifest.kind? f.content = .ok none

/-- The quick look finds every text that carries something, the overlooked ones apart, and it misses all of those. -/
theorem isPolyglot_of_carries {c : Classification} (hc : ofText t = .ok c) (h : c.Carries t) :
    (isPolyglot t = .ok true ∧ ¬ Overlooked t) ∨ (isPolyglot t = .ok false ∧ Overlooked t) := by
  obtain ⟨ds, found, hds, hfound, rfl⟩ := ofTextWith_eq_ok_iff.mp hc
  obtain ⟨as, has⟩ := hfound.exists_of_mem (l := .kubernetes) (by decide)
  have hk : Detector.kubernetes (fences t) = .ok as := (hfound.detect has).2
  cases hb : isPolyglot t with
  | error e =>
    rw [isPolyglot_of_kubernetes hk] at hb
    cases hb
  | ok b =>
    cases b with
    | true =>
      refine .inl ⟨rfl, fun ho => ?_⟩
      have hnil := Detector.kubernetes_eq_nil_iff.mpr ho.manifests
      rw [(isPolyglot_eq_false_iff hnil).mpr ⟨ho.tags, ho.openings, ho.hidden, rfl⟩] at hb
      cases hb
    | false =>
      obtain ⟨htags, hopenings, hhidden, rfl⟩ := (isPolyglot_eq_false_iff hk).mp hb
      refine .inr ⟨rfl, ?_, htags, hopenings, hhidden, Detector.kubernetes_eq_nil_iff.mp hk⟩
      cases hds.symm.trans (Directive.all_eq_nil_of_no_opening hopenings)
      have hp : ∃ p ∈ found, p.2 ≠ [] := by
        rcases h with hl | ha | ⟨ds, hds', hne⟩ | hz
        · obtain ⟨as, hm, hne⟩ := exists_of_decide_ne_none hl
          exact ⟨_, hm, hne⟩
        · by_contra hall
          refine ha (List.flatMap_eq_nil_iff.mpr fun p hp => ?_)
          by_contra hne
          exact hall ⟨p, hp, hne⟩
        · cases hds.symm.trans hds'
          exact (hne rfl).elim
        · exact (hz hhidden).elim
      obtain ⟨p, hp, hne⟩ := hp
      obtain ⟨f, hf, hclaimed⟩ := Detector.exists_isClaimed hne (hfound.detect hp).2 hk
      obtain ⟨l, hl, marker, ho⟩ := Markup.exists_opening hf
      exact ⟨f, hf, hclaimed, l, hl, marker, ho, Markup.isTagged_of_isClaimed ho hclaimed, htags l hl⟩

/-- A block whose tag stands after a no-break space. -/
def noBreakFence : Text := "```\u00a0dockerfile\nFROM x\n```\n"

def noBreakClassification : Classification :=
  ⟨.dockerfile, [{ kind := .dockerfile, content := "FROM x", line := some 1 }], []⟩

theorem isPolyglot_of_carries_noBreakFence :
    ofText noBreakFence = .ok noBreakClassification ∧ noBreakClassification.Carries noBreakFence ∧
      ((isPolyglot noBreakFence = .ok true ∧ ¬ Overlooked noBreakFence) ∨
        (isPolyglot noBreakFence = .ok false ∧ Overlooked noBreakFence)) := by
  have hc : ofText noBreakFence = .ok noBreakClassification := rfl
  have h : noBreakClassification.Carries noBreakFence := .inl (by decide)
  exact ⟨hc, h, isPolyglot_of_carries hc h⟩

theorem isPolyglot_misses_noBreakFence :
    ofText noBreakFence = .ok noBreakClassification ∧ noBreakClassification.language = .dockerfile ∧
      isPolyglot noBreakFence = .ok false := ⟨rfl, rfl, rfl⟩

end Classification
end Runbook
