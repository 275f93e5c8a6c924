import Runbook.Proofs.Text.Case
import Runbook.Proofs.Text.Search
import Runbook.Proofs.Text.Lines
import Runbook.Document.Detector

/-!
The first line of a fenced block: a few spaces, the marker, and an info text whose first word may claim the block. What
may stand between marker and info is left open, as readers differ in it.
-/
namespace Runbook

open Text (foldChar isBlank isGap)

variable {t r l q s x marker info tag : Text} {c : Char} {sep : Char → Bool} {f : Fence}

namespace Markup

def IsIndent (t : Text) : Prop := (∀ c ∈ t, c = ' ') ∧ t.length ≤ 3

def IsFenceChar (c : Char) : Prop := c = '\x60' ∨ c = '~'

/-- Three or more of one fence character. -/
def IsMarker (t : Text) : Prop := 3 ≤ t.length ∧ ∃ c, IsFenceChar c ∧ ∀ d ∈ t, d = c

def tagWords : List Text := Text.ofStrings ["dockerfile", "terraform", "hcl", "sql"]

/-- What claims a block for one detector: a word in any case that ends there, or `file:` and a path. -/
inductive IsTag : Text → Prop
  | word {w r : Text} (hw : w.map foldChar ∈ tagWords) (hr : ∀ c ∈ r.head?, isBlank c = true) : IsTag (w ++ r)
  | file {w r : Text} (hw : w.map foldChar = ("file:" : Text)) (hr : ∃ c ∈ r.head?, isBlank c = false) :
      IsTag (w ++ r)

/-- A marker and a tag, with nothing between them but characters of a class. -/
inductive IsTagged (sep : Char → Bool) : Text → Prop
  | mk {indent marker blanks tag : Text} (hi : IsIndent indent) (hm : IsMarker marker)
      (hb : ∀ c ∈ blanks, sep c = true) (ht : IsTag tag) :
      IsTagged sep (indent ++ (marker ++ (blanks ++ tag)))

theorem indented?_eq_some_iff :
    indented? t = some r ↔ ∃ i, IsIndent i ∧ t = i ++ r ∧ ∀ c ∈ r.head?, c ≠ ' ' := by
  obtain ⟨i, s, rfl, hi, hs⟩ := Text.exists_run (· = ' ') t
  simp only [indented?, Text.dropWhile_run hi hs, List.length_append, Nat.add_sub_cancel_right]
  simp only [decide_eq_true_eq, decide_eq_false_iff_not] at hi hs
  constructor
  · intro h
    split at h
    · cases h
      exact ⟨i, ⟨hi, ‹_›⟩, rfl, hs⟩
    · cases h
  · rintro ⟨j, ⟨hj, hl⟩, he, hr⟩
    have hdrop := congrArg (List.dropWhile fun c => decide (c = ' ')) he
    rw [Text.dropWhile_run (by simpa using hi) (by simpa using hs),
      Text.dropWhile_run (by simpa using hj) (by simpa using hr)] at hdrop
    subst hdrop
    obtain rfl := List.append_cancel_right he
    rw [if_pos hl]

theorem marker?_eq_some_iff :
    marker? t = some (marker, r) ↔ t = marker ++ r ∧ IsMarker marker ∧ ∀ c ∈ r.head?, c ∉ marker := by
  constructor
  · intro h
    unfold marker? at h
    split at h
    · cases h
    · rename_i c t
      obtain ⟨m, s, hms, hm, hs⟩ := Text.exists_run (· = c) (c :: t)
      rw [hms, Text.takeWhile_run hm hs, Text.dropWhile_run hm hs] at h
      simp only [decide_eq_true_eq, decide_eq_false_iff_not] at hm hs
      dsimp only at h
      split at h
      · rename_i hlen
        cases h
        refine ⟨hms, ⟨hlen.2, c, hlen.1, hm⟩, fun d hd hdm => hs d hd (hm d hdm)⟩
      · cases h
  · rintro ⟨rfl, ⟨hlen, c, hc, hm⟩, hr⟩
    cases marker with
    | nil => simp at hlen
    | cons d marker =>
      obtain rfl := hm d List.mem_cons_self
      have hm' : ∀ e ∈ d :: marker, (decide (e = d)) = true := by simpa using hm
      have hr' : ∀ e ∈ r.head?, (decide (e = d)) = false := by
        intro e he
        simp only [decide_eq_false_iff_not]
        rintro rfl
        exact hr e he List.mem_cons_self
      rw [List.cons_append, marker?, ← List.cons_append, Text.takeWhile_run hm' hr',
        Text.dropWhile_run hm' hr', if_pos ⟨hc, hlen⟩]

theorem IsMarker.isFenceChar (h : IsMarker marker) (hc : c ∈ marker) : IsFenceChar c := by
  obtain ⟨-, d, hd, hm⟩ := h
  rwa [hm c hc]

theorem IsMarker.not_gap (h : IsMarker marker) (hc : isGap c = true) : c ∉ marker := by
  intro hm
  rcases h.isFenceChar hm with rfl | rfl <;> exact absurd hc (by decide)

theorem IsMarker.ne_nil (h : IsMarker marker) : marker ≠ [] := by
  rintro rfl
  exact absurd h.1 (by decide)

theorem IsMarker.not_space (h : IsMarker marker) : ∀ c ∈ (marker ++ r).head?, c ≠ ' ' := by
  intro c hc
  rw [List.head?_append_of_ne_nil _ h.ne_nil] at hc
  rintro rfl
  exact h.not_gap (by decide) (List.mem_of_mem_head? hc)

/-- The parts of an opening line are an indent, a marker and the rest, of which the info is the inside. -/
theorem fenceOpening?_eq_some_iff : fenceOpening? l = some (marker, info) ↔
    ∃ indent rest, l = indent ++ (marker ++ rest) ∧ IsIndent indent ∧ IsMarker marker ∧
      (∀ c ∈ rest.head?, c ∉ marker) ∧ info = rest.strip ∧ allowsInfo marker info = true := by
  unfold fenceOpening?
  constructor
  · intro h
    obtain ⟨t, ht, hline⟩ := Option.bind_eq_some_iff.mp h
    obtain ⟨⟨m, rest⟩, hm, hinfo⟩ := Option.bind_eq_some_iff.mp hline
    obtain ⟨indent, hi, rfl, -⟩ := indented?_eq_some_iff.mp ht
    obtain ⟨rfl, hmarker, hrest⟩ := marker?_eq_some_iff.mp hm
    dsimp only at hinfo
    split at hinfo
    · cases hinfo
      exact ⟨indent, rest, rfl, hi, hmarker, hrest, rfl, ‹_›⟩
    · cases hinfo
  · rintro ⟨indent, rest, rfl, hi, hm, hrest, rfl, hallow⟩
    rw [indented?_eq_some_iff.mpr ⟨indent, hi, rfl, hm.not_space⟩, Option.bind_eq_bind, Option.bind_some,
      marker?_eq_some_iff.mpr ⟨rfl, hm, hrest⟩, Option.bind_eq_bind, Option.bind_some]
    exact if_pos hallow

/-! Tagged lines -/

theorem isAscii_of_mem_word {w : Text} (h : w ∈ ("file:" : Text) :: tagWords) : ∀ c ∈ w, Text.IsAscii c := by
  have hall : (("file:" : Text) :: tagWords).all fun w => w.all fun c => 0 < c.toNat && c.toNat < 128 := rfl
  intro c hc
  simpa [Text.IsAscii] using List.all_eq_true.mp (List.all_eq_true.mp hall w h) c hc

theorem IsTag.head (h : IsTag tag) (hc : c ∈ tag.head?) : foldChar c ∈ ("dthsf" : Text) := by
  have key : ∀ w r : Text, w.map foldChar ∈ ("file:" : Text) :: tagWords → c ∈ (w ++ r).head? →
      foldChar c ∈ ("dthsf" : Text) := by
    intro w r hw hc
    cases w with
    | nil => exact absurd hw (by decide)
    | cons d w =>
      obtain rfl : d = c := Option.mem_some_iff.mp hc
      have hd : (("file:" : Text) :: tagWords).all fun p => p.head?.all (· ∈ ("dthsf" : Text)) := rfl
      simpa using List.all_eq_true.mp hd _ hw
  cases h with
  | word hw _ => exact key _ _ (List.mem_cons_of_mem _ hw) hc
  | file hw _ => exact key _ _ (hw ▸ List.mem_cons_self) hc

theorem IsTag.head_not_gap (h : IsTag tag) (hc : c ∈ tag.head?) : isGap c = false := by
  have hd := h.head hc
  cases hg : isGap c with
  | false => rfl
  | true =>
    simp only [isGap, Bool.or_eq_true, decide_eq_true_eq] at hg
    rcases hg with rfl | rfl <;> exact absurd hd (by decide)

theorem IsTag.head_not_mem (h : IsTag tag) (hm : IsMarker marker) (hc : c ∈ tag.head?) : c ∉ marker := by
  intro hcm
  have hd := h.head hc
  rcases hm.isFenceChar hcm with rfl | rfl <;> exact absurd hd (by decide)

/-- A text that starts like a line, and then goes on after it, starts with the line up to there. -/
theorem cut_of_append (h : l ++ q = x ++ s) (hx : '\n' ∉ x) (hq : ∀ d ∈ q.head?, d = '\n') :
    ∃ r, l = x ++ r ∧ s = r ++ q := by
  rcases List.append_eq_append_iff.mp h with ⟨a, rfl, rfl⟩ | ⟨r, rfl, rfl⟩
  · cases a with
    | nil => exact ⟨[], by simp, rfl⟩
    | cons d a =>
      obtain rfl := hq d rfl
      simp at hx
  · exact ⟨r, rfl, rfl⟩

theorem not_mem_of_map_foldChar (h : x.map foldChar ∈ ("file:" : Text) :: tagWords) : '\n' ∉ x := by
  intro hm
  have hn : foldChar '\n' ∈ x.map foldChar := List.mem_map_of_mem hm
  have hw : ∀ p ∈ ("file:" : Text) :: tagWords, foldChar '\n' ∉ p := by decide +kernel
  exact hw _ h hn

/-- A tag is the same tag where its line ends. -/
theorem isTag_append_iff (hq : ∀ d ∈ q.head?, d = '\n') (hl : '\n' ∉ l) : IsTag (l ++ q) ↔ IsTag l := by
  constructor
  · intro h
    generalize ht : l ++ q = t at h
    cases h with
    | word hw hr =>
      obtain ⟨r, rfl, rfl⟩ := cut_of_append ht (not_mem_of_map_foldChar (List.mem_cons_of_mem _ hw)) hq
      refine .word hw fun c hc => hr c ?_
      rw [List.head?_append, hc]
      rfl
    | file hw hr =>
      obtain ⟨r, rfl, rfl⟩ := cut_of_append ht (not_mem_of_map_foldChar (hw ▸ List.mem_cons_self)) hq
      obtain ⟨c, hc, hblank⟩ := hr
      refine .file hw ⟨c, ?_, hblank⟩
      cases r with
      | nil =>
        rw [hq c hc] at hblank
        exact absurd hblank (by decide)
      | cons d r => exact hc
  · intro h
    cases h with
    | word hw hr =>
      rw [List.append_assoc]
      refine .word hw fun c hc => ?_
      rw [List.head?_append] at hc
      rcases Option.or_eq_some_iff.mp hc with hc | ⟨-, hc⟩
      · exact hr c hc
      · rw [hq c hc]
        rfl
    | file hw hr =>
      obtain ⟨c, hc, hblank⟩ := hr
      rw [List.append_assoc]
      refine .file hw ⟨c, ?_, hblank⟩
      rw [List.head?_append, hc]
      rfl

theorem IsTagged.ne_nil (h : IsTagged sep t) : t ≠ [] := by
  obtain ⟨-, hm, -, -⟩ := h
  intro he
  simp only [List.append_eq_nil_iff] at he
  rw [he.2.1] at hm
  exact absurd hm.1 (by decide)

theorem not_mem_of_parts {indent blanks : Text} (hi : IsIndent indent) (hm : IsMarker marker)
    (hb : ∀ c ∈ blanks, isGap c = true) : '\n' ∉ indent ++ (marker ++ blanks) := by
  simp only [List.mem_append, not_or]
  refine ⟨fun h => absurd (hi.1 _ h) (by decide), fun h => ?_, fun h => absurd (hb _ h) (by decide)⟩
  rcases hm.isFenceChar h with hd | hd <;> exact absurd hd (by decide)

theorem isTagged_append_iff (hq : ∀ d ∈ q.head?, d = '\n') (hl : '\n' ∉ l) :
    IsTagged isGap (l ++ q) ↔ IsTagged isGap l := by
  constructor
  · intro h
    generalize ht : l ++ q = t at h
    obtain ⟨hi, hm, hb, htag⟩ := h
    rename_i indent marker blanks tag
    have he : l ++ q = (indent ++ (marker ++ blanks)) ++ tag := by
      rw [ht]
      simp only [List.append_assoc]
    obtain ⟨r, rfl, rfl⟩ := cut_of_append he (not_mem_of_parts hi hm hb) hq
    have hr : '\n' ∉ r := fun h => hl (List.mem_append_right _ h)
    simp only [List.append_assoc]
    exact .mk hi hm hb ((isTag_append_iff hq hr).mp htag)
  · rintro ⟨hi, hm, hb, ht⟩
    rename_i indent marker blanks tag
    have htag : '\n' ∉ tag := fun h => hl (by simp [h])
    simp only [List.append_assoc]
    exact .mk hi hm hb ((isTag_append_iff hq htag).mpr ht)

end Markup

/-- Whether one detector takes the block by its info alone. -/
def Fence.isClaimed (f : Fence) : Bool :=
  Detector.isDockerfile f || Detector.isTerraform f || Detector.isSql f || f.filePath.isSome

theorem Fence.lang_of_isClaimed (h : f.isClaimed = true) :
    f.lang ∈ Markup.tagWords ∨ f.filePath.isSome = true := by
  unfold isClaimed Detector.isDockerfile Detector.isTerraform Detector.isSql at h
  generalize f.lang = lang at h ⊢
  simp only [Bool.or_eq_true, decide_eq_true_eq] at h
  rcases h with ((rfl | rfl | rfl) | rfl) | hp
  · exact .inl (by decide)
  · exact .inl (by decide)
  · exact .inl (by decide)
  · exact .inl (by decide)
  · exact .inr hp

namespace Markup

theorem IsTag.of_lang (h : info.firstWord.lower ∈ tagWords) (hr : ∀ c ∈ r.head?, isBlank c = true) :
    IsTag (info.firstWord ++ r) := by
  refine .word ?_ hr
  rwa [Text.map_foldChar_of_lower (isAscii_of_mem_word (List.mem_cons_of_mem _ h)) rfl]

theorem IsTag.of_path (h : f.filePath.isSome = true) (r : Text) : IsTag (f.info.firstWord ++ r) := by
  unfold Fence.filePath at h
  dsimp only at h
  split at h
  · rename_i hfile
    obtain ⟨q, hq⟩ := Text.startsWith_iff.mp hfile.1
    have hascii := isAscii_of_mem_word (List.mem_cons_self (a := ("file:" : Text)) (l := tagWords))
    obtain ⟨w, path, hw, hfold, -⟩ := Text.exists_of_lowerFrom hascii hq.symm
    have hlen : w.length = 5 := by
      rw [← List.length_map (f := foldChar), hfold]
      rfl
    have hpath : Text.strip path ≠ [] := by
      rw [hw, List.drop_left' hlen] at hfile
      exact hfile.2
    cases path with
    | nil => exact (hpath rfl).elim
    | cons c path =>
      obtain ⟨-, -, -, -, hblank, -⟩ := Text.exists_firstWord f.info
      rw [hw, List.append_assoc]
      exact .file hfold ⟨c, rfl, hblank c (by rw [hw]; simp)⟩
  · cases h

/-- A block that is claimed by its info has a tag on its first line; blanks of any kind may set it apart. -/
theorem isTagged_of_isClaimed (h : fenceOpening? l = some (marker, f.info)) (hf : f.isClaimed = true) :
    IsTagged isBlank l := by
  obtain ⟨indent, rest, rfl, hi, hm, -, hinfo, -⟩ := fenceOpening?_eq_some_iff.mp h
  obtain ⟨b, e, hrest, hb, he⟩ := Text.exists_strip rest
  obtain ⟨a, r, hword, ha, -, hr⟩ := Text.exists_firstWord f.info
  rw [← hinfo, hword] at hrest
  have htail : ∀ c ∈ (r ++ e).head?, isBlank c = true := by
    intro c hc
    cases r with
    | nil => exact he c (List.mem_of_mem_head? hc)
    | cons d r => exact hr c hc
  have htag : IsTag (f.info.firstWord ++ (r ++ e)) := by
    rcases Fence.lang_of_isClaimed hf with hl | hp
    · exact .of_lang hl htail
    · exact .of_path hp (r ++ e)
  have hblanks : ∀ c ∈ b ++ a, isBlank c = true := by
    intro c hc
    rcases List.mem_append.mp hc with hc | hc
    · exact hb c hc
    · exact ha c hc
  rw [show rest = (b ++ a) ++ (f.info.firstWord ++ (r ++ e)) by rw [hrest]; simp only [List.append_assoc]]
  exact .mk hi hm hblanks htag

end Markup
end Runbook
