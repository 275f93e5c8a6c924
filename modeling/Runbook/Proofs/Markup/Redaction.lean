import Runbook.Proofs.Markup.Mark

/-!
Each pass of the sanitizer leaves a text as it is or makes it shorter. So the rounds come to an end, and where they
end no pass has anything left to do.
-/
namespace Runbook.Sanitize

open Text (Shrinks Silent Shortens)

variable {b : Option Char} {t u : Text} {n : Nat}

theorem lineEnd?_le_length (h : lineEnd? t = some n) : n ≤ t.length := by
  have hlen := congrArg List.length (t.takeWhile_append_dropWhile (p := Text.isGap))
  rw [List.length_append] at hlen
  unfold lineEnd? at h
  split at h
  · cases h
    omega
  · rename_i hd
    rw [hd] at hlen
    cases h
    simp at hlen
    omega
  · rename_i hd
    rw [hd] at hlen
    cases h
    simp at hlen
    omega
  · cases h

theorem commentAtStart_le_length (h : commentAtStart t = some n) : n ≤ t.length := by
  obtain ⟨s, -, hs, rfl⟩ := commentAtStart_eq_some_iff.mp h
  exact hs.length_le

/-- What is read as a whole line holds a directive comment, and no more than the text. -/
theorem wholeLine_eq_some (h : wholeLine b t = some ((), n)) :
    n ≤ t.length ∧ ∃ s, Directive.IsComment s ∧ s <:+: t := by
  unfold wholeLine at h
  split at h
  · obtain ⟨k, hk, h⟩ := Option.bind_eq_some_iff.mp h
    obtain ⟨e, he, h⟩ := Option.bind_eq_some_iff.mp h
    cases h
    have hk' := commentAtStart_le_length hk
    have he' := lineEnd?_le_length he
    obtain ⟨s, hs, hst, _⟩ := commentAtStart_eq_some_iff.mp hk
    have hb := (List.takeWhile_sublist Text.isGap (l := t)).length_le
    simp only [List.length_drop] at hk' he'
    exact ⟨by omega, s, hs, hst.isInfix.trans (List.drop_suffix _ t).isInfix⟩
  · cases h

theorem shrinks_wholeLine : Shrinks wholeLine fun _ => [] := by
  intro b t _ n h
  exact ⟨Nat.zero_le n, (wholeLine_eq_some h).1⟩

theorem shrinks_span : Shrinks span fun _ => [] := by
  intro b t _ n h
  obtain ⟨k, hk, he⟩ := Option.map_eq_some_iff.mp h
  cases he
  exact ⟨Nat.zero_le n, commentAtStart_le_length hk⟩

theorem shrinks_links : Shrinks ContentLink.atStart ContentLink.inert := by
  rintro b t ⟨text, hash⟩ n h
  obtain ⟨s, hs, ht, hn⟩ := ContentLink.atStart_eq_some_iff.mp h
  have := ContentLink.length_inert_lt hs
  have := ht.length_le
  constructor <;> omega

theorem silent_wholeLine (h : ∀ s, Directive.IsComment s → ¬ s <:+: t) : Silent wholeLine b t := by
  rw [Text.silent_iff]
  rintro p r rfl - ⟨_, n, hr⟩
  obtain ⟨-, s, hs, hsr⟩ := wholeLine_eq_some hr
  exact h s hs (hsr.trans (List.suffix_append p r).isInfix)

theorem shortens_strip : Shortens ZeroWidth.strip := by
  intro t
  by_cases h : ZeroWidth.strip t = t
  · exact .inl h
  · refine .inr (Nat.lt_of_le_of_ne (List.length_filter_le _ t) fun he => h ?_)
    exact List.filter_sublist.eq_of_length he

theorem shortens_removeDirectives : Shortens removeDirectives :=
  shrinks_wholeLine.shortens.comp shrinks_span.shortens

theorem shortens_neutralizeLinks : Shortens neutralizeLinks := shrinks_links.shortens

theorem shortens_round : Shortens round :=
  (shortens_strip.comp shortens_removeDirectives).comp shortens_neutralizeLinks

theorem strip_eq_self_iff : ZeroWidth.strip t = t ↔ ∀ c ∈ t, ZeroWidth.isZeroWidth c = false := by
  rw [ZeroWidth.strip, List.filter_eq_self]
  simp

theorem removeDirectives_eq_self_iff :
    removeDirectives t = t ↔ ∀ s, Directive.IsComment s → ¬ s <:+: t := by
  rw [← silent_span_iff (b := none), ← Text.substitute_eq_self_iff shrinks_span]
  constructor
  · intro h
    exact ((shrinks_wholeLine.shortens.comp_eq_self_iff shrinks_span.shortens).mp h).2
  · intro h
    have hs := silent_span_iff.mp ((Text.substitute_eq_self_iff shrinks_span).mp h)
    rw [removeDirectives, Text.substitute_of_silent (silent_wholeLine hs), h]

theorem neutralizeLinks_eq_self_iff :
    neutralizeLinks t = t ↔ ∀ s, (∃ text hash, ContentLink.IsLink text hash s) → ¬ s <:+: t := by
  rw [← ContentLink.silent_atStart_iff (b := none)]
  exact Text.substitute_eq_self_iff shrinks_links

theorem round_eq_self_iff :
    round t = t ↔ ZeroWidth.strip t = t ∧ removeDirectives t = t ∧ neutralizeLinks t = t := by
  rw [← and_assoc, ← shortens_strip.comp_eq_self_iff shortens_removeDirectives]
  exact (shortens_strip.comp shortens_removeDirectives).comp_eq_self_iff shortens_neutralizeLinks

/-- The loop of rounds, with no bound on their number. -/
inductive RunsTo : Text → Text → Prop
  | stop {t : Text} (h : round t = t) : RunsTo t t
  | next {t u : Text} (h : round t ≠ t) (hu : RunsTo (round t) u) : RunsTo t u

theorem runsTo_settle (h : t.length ≤ n) : RunsTo t (settle n t) := by
  induction n generalizing t with
  | zero =>
    obtain rfl := List.length_eq_zero_iff.mp (Nat.le_zero.mp h)
    exact .stop rfl
  | succ n ih =>
    rw [settle]
    split
    · exact .stop ‹_›
    · rename_i hne
      have := shortens_round.length_lt hne
      exact .next hne (ih (by omega))

theorem runsTo_sanitize (t : Text) : RunsTo t (sanitize t) := runsTo_settle (Nat.le_refl _)

theorem RunsTo.eq {v : Text} (hu : RunsTo t u) (hv : RunsTo t v) : u = v := by
  induction hu with
  | stop h =>
    cases hv with
    | stop _ => rfl
    | next hne _ => exact (hne h).elim
  | next hne _ ih =>
    cases hv with
    | stop h => exact (hne h).elim
    | next _ hv => exact ih hv

theorem RunsTo.round_eq (h : RunsTo t u) : round u = u := by
  induction h with
  | stop h => exact h
  | next _ _ ih => exact ih

theorem RunsTo.length_le (h : RunsTo t u) : u.length ≤ t.length := by
  induction h with
  | stop _ => exact Nat.le_refl _
  | next _ _ ih => exact Nat.le_trans ih (shortens_round.length_le _)

theorem round_sanitize (t : Text) : round (sanitize t) = sanitize t := (runsTo_sanitize t).round_eq

theorem sanitize_eq_self_iff_round : sanitize t = t ↔ round t = t := by
  constructor
  · intro h
    rw [← h]
    exact round_sanitize t
  · intro h
    exact (runsTo_sanitize t).eq (.stop h)

/-- A text with nothing to be taken out. -/
structure Clean (t : Text) : Prop where
  hidden : ∀ c ∈ t, ZeroWidth.isZeroWidth c = false
  directives : ∀ s, Directive.IsComment s → ¬ s <:+: t
  links : ∀ s, (∃ text hash, ContentLink.IsLink text hash s) → ¬ s <:+: t

theorem clean_iff : Clean t ↔ round t = t := by
  rw [round_eq_self_iff, strip_eq_self_iff, removeDirectives_eq_self_iff, neutralizeLinks_eq_self_iff]
  constructor
  · rintro ⟨hz, hd, hl⟩
    exact ⟨hz, hd, hl⟩
  · rintro ⟨hz, hd, hl⟩
    exact ⟨hz, hd, hl⟩

theorem clean_sanitize (t : Text) : Clean (sanitize t) := clean_iff.mpr (round_sanitize t)

/-- The rounds end, as each one that changes the text makes it shorter. Where they end every pass leaves the text as
it is, and nothing happens at all exactly to a text that was clean before. -/
theorem sanitize_is_normal_form (t : Text) :
    (∀ s, round s ≠ s → (round s).length < s.length) ∧
    (∀ u, RunsTo t u ↔ u = sanitize t) ∧
    ZeroWidth.strip (sanitize t) = sanitize t ∧
    removeDirectives (sanitize t) = sanitize t ∧
    neutralizeLinks (sanitize t) = sanitize t ∧
    sanitize (sanitize t) = sanitize t ∧
    (sanitize t).length ≤ t.length ∧
    (sanitize t = t ↔ Clean t) := by
  obtain ⟨hz, hd, hl⟩ := round_eq_self_iff.mp (round_sanitize t)
  refine ⟨fun s hs => shortens_round.length_lt hs, fun u => ⟨fun hu => ?_, fun hu => ?_⟩, hz, hd, hl,
    sanitize_eq_self_iff_round.mpr (round_sanitize t), (runsTo_sanitize t).length_le,
    sanitize_eq_self_iff_round.trans clean_iff.symm⟩
  · exact hu.eq (runsTo_sanitize t)
  · rw [hu]
    exact runsTo_sanitize t

end Runbook.Sanitize
