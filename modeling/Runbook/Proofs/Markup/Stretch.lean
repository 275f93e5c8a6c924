import Runbook.Proofs.Markup.Redaction
import Runbook.Proofs.Report.Fenced

/-!
Texts that are sanitized part by part. A stretch of whole lines in which every mark ends that begins there does not meet
the rest of its text, so the passes run through both as if each stood alone.
-/
namespace Runbook

open Text (Stable Within splitAt)
open Markup (endsBlock fenceOpening? fences fencesFrom)

variable {t u p r s b : Text} {n m : Nat}

namespace Sanitize

def IsMark (s : Text) : Prop := Directive.IsComment s ∨ ∃ text hash, ContentLink.IsLink text hash s

/-- Whole lines, in which every mark ends that begins there, whatever follows. -/
structure IsStretch (t : Text) : Prop where
  ended : ∀ c ∈ t.getLast?, c = '\n'
  closed : ∀ p r s post, t = p ++ r → r ≠ [] → IsMark s → s <+: r ++ post → s <+: r

theorem IsMark.exists_head (h : IsMark s) : ∃ c rest, s = c :: rest ∧ (c = '<' ∨ c = '[') := by
  rcases h with ⟨⟨hb⟩, -⟩ | ⟨text, hash, ⟨-, -⟩⟩
  · exact ⟨'<', _, rfl, .inl rfl⟩
  · exact ⟨'[', _, rfl, .inr rfl⟩

/-- A character that no mark starts with. -/
def isPlain (c : Char) : Bool := c ≠ '<' && c ≠ '['

theorem IsMark.exists_not_isPlain (h : IsMark s) : ∃ c ∈ s.head?, isPlain c = false := by
  obtain ⟨c, rest, rfl, rfl | rfl⟩ := h.exists_head
  · exact ⟨'<', rfl, rfl⟩
  · exact ⟨'[', rfl, rfl⟩

theorem not_isMark_of_head (hr : ∀ c ∈ r.head?, isPlain c = true) (hne : r ≠ []) (hpre : s <+: r ++ p) : ¬ IsMark s := by
  intro hs
  obtain ⟨c, rest, rfl, -⟩ := hs.exists_head
  obtain ⟨d, hd, hplain⟩ := hs.exists_not_isPlain
  obtain rfl : c = d := Option.some.inj hd
  obtain ⟨e, r, rfl⟩ := List.exists_cons_of_ne_nil hne
  obtain ⟨rfl, -⟩ := List.cons_prefix_cons.mp hpre
  rw [hr c rfl] at hplain
  cases hplain

theorem ended_of_all (h : t.getLast?.all (· = '\n') = true) : ∀ c ∈ t.getLast?, c = '\n' := by
  intro c hc
  rw [Option.mem_def.mp hc] at h
  simpa using h

theorem isStretch_of_plain (hend : t.getLast?.all (· = '\n') = true) (ht : t.all isPlain = true) : IsStretch t := by
  refine ⟨ended_of_all hend, ?_⟩
  rintro p r s post rfl hr hs hpre
  refine (not_isMark_of_head (fun c hc => List.all_eq_true.mp ht c ?_) hr hpre hs).elim
  exact List.mem_append_right _ (List.mem_of_mem_head? hc)

/-- A directive comment before plain text ends where it ends, whatever follows. -/
theorem isStretch_of_comment (hs : Directive.IsComment s) (hend : (s ++ t).getLast?.all (· = '\n') = true)
    (ht : (s.tail ++ t).all isPlain = true) : IsStretch (s ++ t) := by
  refine ⟨ended_of_all hend, ?_⟩
  intro p r s' post he hr hs' hpre
  cases p with
  | nil =>
    obtain rfl : s ++ t = r := he
    rw [List.append_assoc] at hpre
    rcases hs' with hs' | ⟨text, hash, ⟨-, -⟩⟩
    · have hread := commentAtStart_eq_some_iff.mpr ⟨s, hs, List.prefix_append s (t ++ post), rfl⟩
      have hread' := commentAtStart_eq_some_iff.mpr ⟨s', hs', hpre, rfl⟩
      have hlen : s'.length = s.length := Option.some.inj (hread'.symm.trans hread)
      have hsame : s' = s := by
        have hs : s <+: s ++ (t ++ post) := List.prefix_append s _
        exact (List.prefix_of_prefix_length_le hpre hs (Nat.le_of_eq hlen)).eq_of_length hlen
      rw [hsame]
      exact List.prefix_append s t
    · obtain ⟨⟨hb⟩, -⟩ := hs
      cases (List.cons_prefix_cons.mp hpre).1
  | cons d p =>
    have htail : s.tail ++ t = p ++ r := by
      obtain ⟨c, rest, rfl, -⟩ := IsMark.exists_head (.inl hs)
      exact (List.cons.inj he).2
    refine (not_isMark_of_head (fun c hc => List.all_eq_true.mp ht c ?_) hr hpre hs').elim
    rw [htail]
    exact List.mem_append_right _ (List.mem_of_mem_head? hc)

theorem clean_of_plain (hz : t.all (!ZeroWidth.isZeroWidth ·) = true) (ht : t.all isPlain = true) : Clean t := by
  have hnone : ∀ s, IsMark s → ¬ s <:+: t := by
    intro s hs hst
    obtain ⟨c, hc, hplain⟩ := hs.exists_not_isPlain
    rw [List.all_eq_true.mp ht c (hst.subset (List.mem_of_mem_head? hc))] at hplain
    cases hplain
  exact ⟨by simpa using hz, fun s hs => hnone s (.inl hs), fun s hs => hnone s (.inr hs)⟩

/-! One pass -/

theorem within_span : Within span := by
  intro _ t _ n h
  obtain ⟨k, hk, he⟩ := Option.map_eq_some_iff.mp h
  cases he
  exact commentAtStart_le_length hk

theorem within_wholeLine : Within wholeLine := fun _ _ _ _ h => (wholeLine_eq_some h).1

theorem within_links : Within ContentLink.atStart := by
  rintro _ t ⟨text, hash⟩ n h
  obtain ⟨s, -, hs, rfl⟩ := ContentLink.atStart_eq_some_iff.mp h
  exact hs.length_le

theorem IsStretch.getLast? (h : IsStretch t) (ht : t = p ++ r) (hr : r ≠ []) : r.getLast? = some '\n' := by
  have hlast := List.getLast?_eq_some_getLast hr
  have hend := h.ended (r.getLast hr) (by rw [ht, List.getLast?_append, hlast]; rfl)
  rw [hlast, hend]

theorem IsStretch.commentAtStart (h : IsStretch t) (ht : t = p ++ r) (hr : r ≠ []) (post : Text) :
    commentAtStart (r ++ post) = commentAtStart r := by
  refine Option.ext fun n => ?_
  rw [commentAtStart_eq_some_iff, commentAtStart_eq_some_iff]
  constructor
  · rintro ⟨s, hs, hpre, hn⟩
    exact ⟨s, hs, h.closed p r s post ht hr (.inl hs) hpre, hn⟩
  · rintro ⟨s, hs, hpre, hn⟩
    exact ⟨s, hs, hpre.trans (List.prefix_append r post), hn⟩

theorem IsStretch.stable_span (h : IsStretch t) : Stable span t := by
  intro b p r post ht hr
  rw [span, span, h.commentAtStart ht hr]

theorem IsStretch.stable_links (h : IsStretch t) : Stable ContentLink.atStart t := by
  intro b p r post ht hr
  refine Option.ext fun ⟨⟨text, hash⟩, n⟩ => ?_
  rw [ContentLink.atStart_eq_some_iff, ContentLink.atStart_eq_some_iff]
  constructor
  · rintro ⟨s, hs, hpre, hn⟩
    exact ⟨s, hs, h.closed p r s post ht hr (.inr ⟨text, hash, hs⟩) hpre, hn⟩
  · rintro ⟨s, hs, hpre, hn⟩
    exact ⟨s, hs, hpre.trans (List.prefix_append r post), hn⟩

/-- A run of gaps ends before the line feed at the end of a text. -/
theorem exists_gaps (hr : r.getLast? = some '\n') : ∃ gaps c rest, r = gaps ++ c :: rest ∧
    (∀ d ∈ gaps, Text.isGap d = true) ∧ Text.isGap c = false ∧ (c :: rest).getLast? = some '\n' := by
  obtain ⟨gaps, x, rfl, hgaps, hx⟩ := Text.exists_run Text.isGap r
  cases x with
  | nil =>
    rw [List.append_nil] at hr
    have hgap := hgaps '\n' (List.mem_of_mem_getLast? hr)
    cases hgap
  | cons c rest =>
    refine ⟨gaps, c, rest, rfl, hgaps, hx c rfl, ?_⟩
    rw [List.getLast?_append] at hr
    cases hlast : (c :: rest).getLast? with
    | none => simp at hlast
    | some d =>
      rw [hlast] at hr
      exact hr

theorem lineEnd?_append (hr : r.getLast? = some '\n') (post : Text) : lineEnd? (r ++ post) = lineEnd? r := by
  obtain ⟨gaps, c, rest, rfl, hgaps, hc, hlast⟩ := exists_gaps hr
  have hhead : ∀ s : Text, ∀ d ∈ (c :: rest ++ s).head?, Text.isGap d = false := by
    rintro s d ⟨⟩
    exact hc
  have hshort := hhead []
  rw [List.append_nil] at hshort
  unfold lineEnd?
  rw [List.append_assoc, Text.takeWhile_run hgaps (hhead post), Text.dropWhile_run hgaps (hhead post),
    Text.takeWhile_run hgaps hshort, Text.dropWhile_run hgaps hshort]
  cases rest with
  | nil =>
    obtain rfl : c = '\n' := by simpa using hlast
    rfl
  | cons d rest =>
    by_cases hline : c = '\n'
    · subst hline
      rfl
    · by_cases hreturn : c = '\r' ∧ d = '\n'
      · obtain ⟨rfl, rfl⟩ := hreturn
        rfl
      · grind

theorem IsComment.length_lt (hs : Directive.IsComment s) (hpre : s <+: r) (hr : r.getLast? = some '\n') :
    s.length < r.length := by
  refine Nat.lt_of_le_of_ne hpre.length_le fun hlen => ?_
  rw [← hpre.eq_of_length hlen] at hr
  cases hs with
  | mk ho hf =>
    rw [List.getLast?_append] at hr
    cases hr

theorem IsStretch.stable_wholeLine (h : IsStretch t) : Stable wholeLine t := by
  intro b p r post ht hr
  obtain ⟨gaps, c, rest, rfl, hgaps, hc, hlast⟩ := exists_gaps (h.getLast? ht hr)
  have hhead : ∀ s : Text, ∀ d ∈ (c :: rest ++ s).head?, Text.isGap d = false := by
    rintro s d ⟨⟩
    exact hc
  have hshort := hhead []
  rw [List.append_nil] at hshort
  have ht' : t = (p ++ gaps) ++ c :: rest := by rw [ht, List.append_assoc]
  have hread := h.commentAtStart ht' (by simp) post
  unfold wholeLine
  dsimp only
  rw [List.append_assoc, Text.takeWhile_run hgaps (hhead post), Text.takeWhile_run hgaps hshort, List.drop_left,
    List.drop_left, hread]
  split
  · cases hn : Sanitize.commentAtStart (c :: rest) with
    | none => rfl
    | some n =>
      obtain ⟨s, hs, hpre, rfl⟩ := commentAtStart_eq_some_iff.mp hn
      have hlt := IsComment.length_lt hs hpre hlast
      have hend : ((c :: rest).drop s.length).getLast? = some '\n' := by
        rw [List.getLast?_drop, if_neg (by omega), hlast]
      have hdrop := lineEnd?_append hend post
      rw [← List.drop_append_of_le_length hpre.length_le] at hdrop
      dsimp only [Option.bind_eq_bind, Option.bind_some]
      rw [← List.drop_drop, ← List.drop_drop, List.drop_left, List.drop_left, hdrop]
  · rfl

/-- A pattern asks of what comes before only whether a line starts. -/
theorem IsStretch.wholeLine_last (h : IsStretch t) (r : Text) :
    wholeLine (Text.lastBefore none t) r = wholeLine none r := by
  have hstart : Text.lastBefore none t = none ∨ Text.lastBefore none t = some '\n' := by
    cases hlast : t.getLast? with
    | none => exact .inl (by rw [Text.lastBefore, hlast]; rfl)
    | some c =>
      obtain rfl := h.ended c hlast
      exact .inr (by rw [Text.lastBefore, hlast]; rfl)
  unfold wholeLine
  rw [if_pos hstart, if_pos (.inl rfl)]

/-! All passes -/

/-- What the passes can make of a text, in any order. -/
inductive Passed (t : Text) : Text → Prop
  | start : Passed t t
  | hidden {u : Text} (h : Passed t u) : Passed t (ZeroWidth.strip u)
  | lines {u : Text} (h : Passed t u) : Passed t (u.substitute wholeLine fun _ => [])
  | comments {u : Text} (h : Passed t u) : Passed t (u.substitute span fun _ => [])
  | links {u : Text} (h : Passed t u) : Passed t (neutralizeLinks u)

theorem Passed.round (h : Passed t u) : Passed t (round u) := .links (.comments (.lines (.hidden h)))

theorem strip_append (t r : Text) : ZeroWidth.strip (t ++ r) = ZeroWidth.strip t ++ ZeroWidth.strip r :=
  List.filter_append t r

theorem round_append (h : ∀ v, Passed u v → IsStretch v) (r : Text) : round (u ++ r) = round u ++ round r := by
  have hhidden : Passed u (ZeroWidth.strip u) := .hidden .start
  have hlines := h _ hhidden
  have hcomments := h _ (.lines hhidden)
  have hlinks := h _ (.comments (.lines hhidden))
  unfold Sanitize.round neutralizeLinks removeDirectives
  rw [strip_append, Text.substitute_append within_wholeLine hlines.stable_wholeLine hlines.wholeLine_last,
    Text.substitute_append within_span hcomments.stable_span fun _ => rfl,
    Text.substitute_append within_links hlinks.stable_links fun _ => rfl]

theorem Passed.trans (hu : Passed t u) (h : Passed u s) : Passed t s := by
  induction h with
  | start => exact hu
  | hidden _ ih => exact .hidden ih
  | lines _ ih => exact .lines ih
  | comments _ ih => exact .comments ih
  | links _ ih => exact .links ih

theorem passed_iterate (t : Text) (n : Nat) : Passed t (round^[n] t) := by
  induction n generalizing t with
  | zero => exact .start
  | succ n ih => exact (Passed.round .start).trans (ih (round t))

theorem iterate_append (h : ∀ u, Passed t u → IsStretch u) (r : Text) (n : Nat) :
    round^[n] (t ++ r) = round^[n] t ++ round^[n] r := by
  induction n generalizing t r with
  | zero => rfl
  | succ n ih =>
    rw [Function.iterate_succ_apply, Function.iterate_succ_apply, Function.iterate_succ_apply, round_append h,
      ih fun u hu => h u ((Passed.round .start).trans hu)]

/-- Rounds that follow the last change change nothing. -/
theorem iterate_round_eq (h : t.length ≤ n) : round^[n] t = sanitize t := by
  induction n generalizing t with
  | zero =>
    obtain rfl := List.length_eq_zero_iff.mp (Nat.le_zero.mp h)
    rfl
  | succ n ih =>
    rw [Function.iterate_succ_apply]
    by_cases hround : round t = t
    · rw [hround, Function.iterate_fixed hround, sanitize_eq_self_iff_round.mpr hround]
    · have hshort := shortens_round.length_lt hround
      rw [ih (by omega)]
      exact (RunsTo.next hround (runsTo_sanitize (round t))).eq (runsTo_sanitize t)

theorem sanitize_append (h : ∀ u, Passed t u → IsStretch u) (r : Text) :
    sanitize (t ++ r) = sanitize t ++ sanitize r := by
  have hlength : (t ++ r).length = t.length + r.length := List.length_append
  rw [← iterate_round_eq (Nat.le_refl (t ++ r).length), iterate_append h, iterate_round_eq (by omega),
    iterate_round_eq (by omega)]

theorem Clean.eq_of_passed (ht : Clean t) (h : Passed t u) : u = t := by
  induction h with
  | start => rfl
  | hidden _ ih =>
    subst ih
    exact strip_eq_self_iff.mpr ht.hidden
  | lines _ ih =>
    subst ih
    exact Text.substitute_of_silent (silent_wholeLine ht.directives)
  | comments _ ih =>
    subst ih
    exact Text.substitute_of_silent (silent_span_iff.mpr ht.directives)
  | links _ ih =>
    subst ih
    exact neutralizeLinks_eq_self_iff.mpr ht.links

/-! Fenced blocks between stretches of prose -/

def OpensNone (ls : List Text) : Prop := ∀ l ∈ ls, fenceOpening? l = none

instance (ls : List Text) : Decidable (OpensNone ls) := inferInstanceAs (Decidable (∀ l ∈ ls, fenceOpening? l = none))

/-- Whole lines that no pass takes apart, and that open no block before and after they are sanitized. -/
structure IsProse (t : Text) : Prop where
  stretch : ∀ u, Passed t u → IsStretch u
  before : OpensNone (splitAt '\n' t)
  after : OpensNone (splitAt '\n' (sanitize t))

/-- A closed block of whole lines with nothing to be taken out. -/
inductive IsVerbatim : Text → Prop
  | mk {t first marker info last : Text} {body : List Text} (hlines : splitAt '\n' t = first :: (body ++ [last, []]))
      (ho : fenceOpening? first = some (marker, info)) (hb : ∀ l ∈ body, endsBlock marker l = false)
      (hl : endsBlock marker last = true) (hclean : Clean t) (hstretch : IsStretch t) : IsVerbatim t

/-- Prose and verbatim blocks in any order, and at the end any text that opens no block before and after it is
sanitized. -/
inductive IsArranged : Text → Prop
  | rest {t : Text} (hbefore : OpensNone (splitAt '\n' t)) (hafter : OpensNone (splitAt '\n' (sanitize t))) : IsArranged t
  | prose {p t : Text} (hp : IsProse p) (h : IsArranged t) : IsArranged (p ++ t)
  | block {b t : Text} (hb : IsVerbatim b) (h : IsArranged t) : IsArranged (b ++ t)

theorem IsStretch.exists_lines (h : IsStretch t) :
    ∃ ls, (∀ r, splitAt '\n' (t ++ r) = ls ++ splitAt '\n' r) ∧ ls ⊆ splitAt '\n' t := by
  cases hlast : t.getLast? with
  | none =>
    obtain rfl := List.getLast?_eq_none_iff.mp hlast
    exact ⟨[], fun r => rfl, List.nil_subset _⟩
  | some c =>
    obtain rfl := h.ended c hlast
    obtain ⟨q, rfl⟩ := List.getLast?_eq_some_iff.mp hlast
    refine ⟨splitAt '\n' q, fun r => ?_, ?_⟩
    · rw [List.append_assoc, List.singleton_append, Text.splitAt_append_cons]
    · rw [Text.splitAt_append_cons]
      exact List.subset_append_left _ _

theorem fencesFrom_opensNone {ls : List Text} (h : OpensNone ls) (n : Nat) (rest : List Text) :
    fencesFrom n none (ls ++ rest) = fencesFrom (n + ls.length) none rest := by
  induction ls generalizing n with
  | nil => rfl
  | cons l ls ih =>
    obtain ⟨hl, hls⟩ := List.forall_mem_cons.mp h
    rw [List.cons_append, fencesFrom, hl]
    dsimp only
    rw [ih hls, List.length_cons, Nat.add_assoc, Nat.add_comm 1]

/-- A block without its line. -/
def said (f : Fence) : Text × Text := (f.info, f.content)

theorem map_said_opensNone (h : IsStretch p) (hp : OpensNone (splitAt '\n' p)) (n : Nat) (t : Text) :
    ∃ k, fencesFrom n none (splitAt '\n' (p ++ t)) = fencesFrom k none (splitAt '\n' t) := by
  obtain ⟨ls, hsplit, hsub⟩ := h.exists_lines
  refine ⟨n + ls.length, ?_⟩
  rw [hsplit, fencesFrom_opensNone fun l hl => hp l (hsub hl)]

/-- Every block of an arranged text is still there when it is sanitized, and no other. -/
theorem IsArranged.map_said (h : IsArranged t) (n m : Nat) :
    (fencesFrom n none (splitAt '\n' (sanitize t))).map said = (fencesFrom m none (splitAt '\n' t)).map said := by
  induction h generalizing n m with
  | rest hbefore hafter =>
    have hnone : ∀ k, fencesFrom k none [] = [] := fun k => rfl
    have hbefore := fencesFrom_opensNone hbefore m []
    have hafter := fencesFrom_opensNone hafter n []
    rw [List.append_nil, hnone] at hbefore hafter
    rw [hbefore, hafter]
  | @prose p t hp h ih =>
    rw [sanitize_append hp.stretch]
    obtain ⟨j, hj⟩ := map_said_opensNone (hp.stretch _ (iterate_round_eq (Nat.le_refl _) ▸ passed_iterate p _)) hp.after n
      (sanitize t)
    obtain ⟨k, hk⟩ := map_said_opensNone (hp.stretch p .start) hp.before m t
    rw [hj, hk, ih]
  | @block b t hb h ih =>
    obtain ⟨hlines, ho, hbody, hl, hclean, hstretch⟩ := hb
    rename_i first marker info last body
    have hpassed : ∀ u, Passed b u → IsStretch u := fun u hu => hclean.eq_of_passed hu ▸ hstretch
    have hsame : sanitize b = b := sanitize_eq_self_iff_round.mpr (clean_iff.mp hclean)
    obtain ⟨ls, hsplit, -⟩ := hstretch.exists_lines
    have hls : ls ++ [[]] = first :: (body ++ [last]) ++ [[]] := by
      have hend : splitAt '\n' ([] : Text) = [[]] := rfl
      have hwhole := hsplit []
      rw [List.append_nil, hlines, hend] at hwhole
      rw [← hwhole]
      simp
    rw [sanitize_append hpassed, hsame, hsplit, hsplit, List.append_cancel_right hls, List.cons_append,
      List.cons_append, List.append_assoc, List.append_assoc, List.singleton_append, List.singleton_append,
      Markup.fencesFrom_block ho hbody hl, Markup.fencesFrom_block ho hbody hl, List.map_cons, List.map_cons, ih]
    rfl

end Sanitize
end Runbook
