import Runbook.Proofs.Markup.Stretch
import Runbook.Markup.Token

/-!
Directive comments alone on their lines. Between lines in which no comment starts they go with their line ends, and
every other line stays as it is.
-/
namespace Runbook.Sanitize

open Markup (commentStart)
open Text (Skips)

variable {b : Option Char} {l p q r : Text} {ls : List Text}

inductive IsLineEnd : Text → Prop
  | feed : IsLineEnd "\n"
  | returnFeed : IsLineEnd "\r\n"

/-- A directive comment with nothing but gaps around it, and the end of its line. -/
inductive IsDirectiveLine : Text → Prop
  | mk {before s after ending : Text} (hb : ∀ c ∈ before, Text.isGap c = true) (hs : Directive.IsComment s)
      (ha : ∀ c ∈ after, Text.isGap c = true) (he : IsLineEnd ending) :
      IsDirectiveLine (before ++ (s ++ (after ++ ending)))

/-- A line, with its end, in which no comment starts. -/
structure IsUnmarked (l : Text) : Prop where
  ended : ∃ body ending, l = body ++ ending ∧ IsLineEnd ending
  unmarked : ¬ commentStart <:+: l

theorem IsLineEnd.exists_feed {ending : Text} (h : IsLineEnd ending) : ∃ e, ending = e ++ ['\n'] := by
  cases h with
  | feed => exact ⟨[], rfl⟩
  | returnFeed => exact ⟨['\r'], rfl⟩

/-- After the gaps behind a comment its line ends, and the end is read as a whole. -/
theorem IsLineEnd.lineEnd?_eq {after ending : Text} (h : IsLineEnd ending) (ha : ∀ c ∈ after, Text.isGap c = true)
    (r : Text) : lineEnd? (after ++ (ending ++ r)) = some (after.length + ending.length) := by
  have hhead : ∀ c ∈ (ending ++ r).head?, Text.isGap c = false := by
    cases h <;> rintro c ⟨⟩ <;> decide
  unfold lineEnd?
  rw [Text.takeWhile_run ha hhead, Text.dropWhile_run ha hhead]
  cases h <;> rfl

/-- Where a line starts, a directive line is read to its end and no further. -/
theorem IsDirectiveLine.wholeLine_eq (h : IsDirectiveLine l) (r : Text) :
    wholeLine none (l ++ r) = some ((), l.length) := by
  obtain ⟨hb, hs, ha, he⟩ := h
  rename_i before s after ending
  have hhead : ∀ c ∈ (s ++ (after ++ (ending ++ r))).head?, Text.isGap c = false := by
    obtain ⟨⟨-⟩, -⟩ := hs
    rintro c ⟨⟩
    decide
  have hread : commentAtStart (s ++ (after ++ (ending ++ r))) = some s.length :=
    commentAtStart_eq_some_iff.mpr ⟨s, hs, List.prefix_append s _, rfl⟩
  simp only [List.append_assoc]
  unfold wholeLine
  dsimp only
  rw [if_pos (.inl rfl), Text.takeWhile_run hb hhead, List.drop_left, hread]
  dsimp only [Option.bind_eq_bind, Option.bind_some]
  rw [← List.drop_drop, List.drop_left, List.drop_left, he.lineEnd?_eq ha]
  simp only [Option.bind_some, List.length_append, Nat.add_assoc]

theorem IsDirectiveLine.getLast? (h : IsDirectiveLine l) : l.getLast? = some '\n' := by
  obtain ⟨-, -, -, he⟩ := h
  obtain ⟨e, rfl⟩ := he.exists_feed
  simp [List.getLast?_append]

theorem IsDirectiveLine.includes (h : IsDirectiveLine l) : l.includes commentStart = true := by
  obtain ⟨-, hs, -, -⟩ := h
  obtain ⟨⟨-⟩, -⟩ := hs
  rw [Text.includes_iff]
  refine List.IsInfix.trans (List.IsPrefix.isInfix ?_) (List.suffix_append _ _).isInfix
  simp only [List.append_assoc]
  exact List.prefix_append _ _

theorem IsUnmarked.getLast? (h : IsUnmarked l) : l.getLast? = some '\n' := by
  obtain ⟨body, ending, rfl, he⟩ := h.ended
  obtain ⟨e, rfl⟩ := he.exists_feed
  simp [List.getLast?_append]

theorem IsUnmarked.getLast?_suffix (h : IsUnmarked l) (hl : l = p ++ q) (hq : q ≠ []) : q.getLast? = some '\n' := by
  rw [← List.getLast?_append_of_ne_nil p hq, ← hl, h.getLast?]

/-- No comment starts in an unmarked line, not even one that goes on after the line. -/
theorem IsUnmarked.not_prefix (h : IsUnmarked l) (hl : l = p ++ q) (hq : q ≠ []) (r : Text) :
    ¬ commentStart <+: q ++ r := by
  intro hpre
  rcases List.prefix_or_prefix_of_prefix hpre (List.prefix_append q r) with hstart | hstart
  · refine h.unmarked (hstart.isInfix.trans ?_)
    rw [hl]
    exact (List.suffix_append p q).isInfix
  · have hfeed : '\n' ∈ commentStart := hstart.subset (List.mem_of_mem_getLast? (h.getLast?_suffix hl hq))
    exact absurd hfeed (by decide)

theorem IsUnmarked.skips_span (h : IsUnmarked l) : Skips span l := by
  intro b p q r hl hq
  rw [span, commentAtStart_of_no_start (h.not_prefix hl hq r)]
  rfl

theorem IsUnmarked.skips_wholeLine (h : IsUnmarked l) : Skips wholeLine l := by
  intro b p q r hl hq
  obtain ⟨gaps, c, rest, rfl, hgaps, hc, -⟩ := exists_gaps (h.getLast?_suffix hl hq)
  have hhead : ∀ d ∈ (c :: rest ++ r).head?, Text.isGap d = false := by
    rintro d ⟨⟩
    exact hc
  have hnone : commentAtStart (c :: rest ++ r) = none :=
    commentAtStart_of_no_start (h.not_prefix (p := p ++ gaps) (by rw [hl, List.append_assoc]) (by simp) r)
  unfold wholeLine
  dsimp only
  rw [List.append_assoc, Text.takeWhile_run hgaps hhead, List.drop_left, hnone]
  split <;> rfl

/-- After a line end it is as at the start of the text. -/
theorem wholeLine_after (hl : l.getLast? = some '\n') (r : Text) :
    wholeLine (Text.lastBefore none l) r = wholeLine none r := by
  rw [Text.lastBefore, hl]
  rfl

theorem substitute_wholeLine_flatten (h : ∀ l ∈ ls, IsDirectiveLine l ∨ IsUnmarked l) :
    Text.substitute wholeLine (fun _ => []) ls.flatten = (ls.filter (!·.includes commentStart)).flatten := by
  induction ls with
  | nil => rfl
  | cons l ls ih =>
    obtain ⟨hl, hls⟩ := List.forall_mem_cons.mp h
    rw [List.flatten_cons]
    rcases hl with hl | hl
    · have hne : l ≠ [] := by
        rintro rfl
        cases hl.getLast?
      rw [Text.substitute_hit (hl.wholeLine_eq _) hne (wholeLine_after hl.getLast?), ih hls,
        List.filter_cons_of_neg (by simp [hl.includes])]
      rfl
    · have hfree : l.includes commentStart = false := by
        rw [← Bool.not_eq_true, Text.includes_iff]
        exact hl.unmarked
      rw [hl.skips_wholeLine.substitute_append (wholeLine_after hl.getLast?), ih hls,
        List.filter_cons_of_pos (by simp [hfree]), List.flatten_cons]

theorem substitute_span_flatten (h : ∀ l ∈ ls, IsUnmarked l) :
    Text.substitute span (fun _ => []) ls.flatten = ls.flatten := by
  induction ls with
  | nil => rfl
  | cons l ls ih =>
    obtain ⟨hl, hls⟩ := List.forall_mem_cons.mp h
    rw [List.flatten_cons, hl.skips_span.substitute_append fun _ => rfl, ih hls]

/-- Directive lines go as a whole, each with its own line end; the other lines stay, in order and character by
character. -/
theorem removeDirectives_flatten (h : ∀ l ∈ ls, IsDirectiveLine l ∨ IsUnmarked l) :
    removeDirectives ls.flatten = (ls.filter (!·.includes commentStart)).flatten := by
  rw [removeDirectives, substitute_wholeLine_flatten h]
  refine substitute_span_flatten fun l hl => ?_
  obtain ⟨hl, hfree⟩ := List.mem_filter.mp hl
  rcases h l hl with hd | hu
  · rw [hd.includes] at hfree
    cases hfree
  · exact hu

/-- Two directive lines next to each other, and one of either kind of line end. -/
def mixedLines : List Text :=
  Text.ofStrings ["  <!-- polyglot:run -->\t\r\n", "kept\n", "<!--kyozo:x-->\n", "<!--kyozo:x-->\n", " -->\r\n"]

theorem removeDirectives_flatten_mixedLines :
    (∀ l ∈ mixedLines, IsDirectiveLine l ∨ IsUnmarked l) ∧
      removeDirectives mixedLines.flatten = "kept\n -->\r\n" := by
  have hall {p : Char → Bool} {t : Text} (ht : t.all p = true) : ∀ c ∈ t, p c = true := List.all_eq_true.mp ht
  have hrun : Directive.IsComment ("<!--" ++ " " ++ Namespace.polyglot.name ++ ":" ++ "run " ++ "-->") :=
    .mk (.mk (hall rfl)) (by decide)
  have hx : Directive.IsComment ("<!--" ++ ("" : Text) ++ Namespace.kyozo.name ++ ":" ++ "x" ++ "-->") :=
    .mk (.mk (hall rfl)) (by decide)
  have hlines : ∀ l ∈ mixedLines, IsDirectiveLine l ∨ IsUnmarked l := by
    simp only [mixedLines, Text.ofStrings, List.map_cons, List.map_nil, List.forall_mem_cons]
    refine ⟨?_, ?_, ?_, ?_, ?_, by simp⟩
    · exact .inl (@IsDirectiveLine.mk "  " _ "\t" _ (hall rfl) hrun (hall rfl) .returnFeed)
    · exact .inr ⟨⟨"kept", _, rfl, .feed⟩, by decide⟩
    · exact .inl (@IsDirectiveLine.mk [] _ [] _ (hall rfl) hx (hall rfl) .feed)
    · exact .inl (@IsDirectiveLine.mk [] _ [] _ (hall rfl) hx (hall rfl) .feed)
    · exact .inr ⟨⟨" -->", _, rfl, .returnFeed⟩, by decide⟩
  exact ⟨hlines, (removeDirectives_flatten hlines).trans (by decide)⟩

end Runbook.Sanitize
