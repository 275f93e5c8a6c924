import Runbook.Proofs.Markup.Redaction
import Runbook.Proofs.Text.Lines

/-!
Content links whose targets are taken away. One pass takes all of them: it leaves the brackets of a text where they are,
so a bracket that closes the text of a link was followed by the same target before, and the link was read then.
-/
namespace Runbook

open Text (Reads Silent hitsFrom piecesFrom)

variable {b : Option Char} {t u p w r s hash : Text} {ls : List ContentLink} {n : Nat} {c : Char}

namespace ContentLink

/-! The two halves of a link -/

/-- A target is written with blanks, digits and its parenthesis. -/
theorem IsTarget.written (h : IsTarget hash s) : ∀ c ∈ s, (Text.isBlank c || isHexDigit c || c = ')') = true := by
  obtain ⟨h₁, hh, -, h₂⟩ := h
  intro c hc
  simp only [List.mem_append, List.mem_singleton] at hc
  rcases hc with ((hc | hc) | hc) | rfl
  · rw [h₁ c hc]
    rfl
  · rw [hh c hc, Bool.or_true]
    rfl
  · rw [h₂ c hc]
    rfl
  · rfl

theorem IsTarget.ne_nil (h : IsTarget hash s) : s ≠ [] := by
  obtain ⟨-, -, -, -⟩ := h
  simp

/-- The target of a content link comes next. -/
def IsTargeted (r : Text) : Prop := ∃ hash s, IsTarget hash s ∧ '(' :: s <+: r

/-- A link is read at an opening bracket if a target comes after the next closing one. -/
theorem reads_cons_iff : Reads atStart b (c :: t) ↔
    c = '[' ∧ ∃ w r, t = w ++ ']' :: r ∧ ']' ∉ w ∧ IsTargeted r := by
  rw [reads_atStart_iff]
  constructor
  · rintro ⟨_, ⟨text, hash, @⟨target, htext, htarget⟩⟩, post, hpost⟩
    obtain ⟨rfl, rfl⟩ := List.cons.inj hpost
    exact ⟨rfl, text, '(' :: (target ++ post), by simp, htext, hash, target, htarget, post, rfl⟩
  · rintro ⟨rfl, w, _, rfl, hw, hash, target, htarget, post, rfl⟩
    exact ⟨_, ⟨w, hash, .mk hw htarget⟩, post, by simp⟩

theorem not_isTargeted_empty (r : Text) : ¬ IsTargeted ("(#)" ++ r) := by
  rintro ⟨hash, s, hs, hpre⟩
  have hpre : s <+: '#' :: (')' :: r) := (List.cons_prefix_cons.mp hpre).2
  cases s with
  | nil => exact hs.ne_nil rfl
  | cons c s =>
    obtain ⟨rfl, -⟩ := List.cons_prefix_cons.mp hpre
    exact absurd (hs.written '#' List.mem_cons_self) (by decide)

/-- Up to a closing bracket that no target follows nothing is read, if nothing is read after it. -/
theorem silent_bracketed (hw : ']' ∉ w) (hr : ¬ IsTargeted r) (hs : ∀ b, Silent atStart b r) (b : Option Char) :
    Silent atStart b (w ++ ']' :: r) := by
  induction w generalizing b with
  | nil =>
    refine ⟨fun hread => ?_, hs _⟩
    exact absurd (reads_cons_iff.mp hread).1 (by decide)
  | cons c w ih =>
    rw [List.mem_cons, not_or] at hw
    refine ⟨fun hread => ?_, ih hw.2 _⟩
    obtain ⟨-, w', r', heq, hw', hr'⟩ := reads_cons_iff.mp hread
    obtain ⟨-, rfl⟩ := Text.first_inj hw.2 hw' heq
    exact hr hr'

theorem inert_eq (text hash : Text) : inert (text, hash) = '[' :: text ++ "](" ++ "#)" := by simp [inert]

/-! The whole text -/

/-- From line `n` on, the second text is the first with nothing but a mark left of the targets of the listed links. A
character is kept where no link starts. -/
inductive Retargets : Nat → Text → List ContentLink → Text → Prop
  | nil (n : Nat) : Retargets n [] [] []
  | kept {n : Nat} {c : Char} {t u : Text} {ls : List ContentLink}
    (hc : ∀ s, (∃ text hash, IsLink text hash s) → ¬ s <+: c :: t)
    (rest : Retargets (if c = '\n' then n + 1 else n) t ls u) : Retargets n (c :: t) ls (c :: u)
  | link {n : Nat} {text hash target t u : Text} {ls : List ContentLink} (htext : ']' ∉ text)
    (htarget : IsTarget hash target) (rest : Retargets (n + ('[' :: text ++ "](" ++ target).count '\n') t ls u) :
    Retargets n ('[' :: text ++ "](" ++ target ++ t) (⟨text, hash.lower, n⟩ :: ls) ('[' :: text ++ "](" ++ "#)" ++ u)

theorem retargets_piecesFrom (b : Option Char) (k : Nat) (t : Text) (n o : Nat) : Retargets n (t.drop k)
    ((hitsFrom o n (piecesFrom atStart b k t)).map fun h => ⟨h.value.1, h.value.2.lower, h.line⟩)
    ((piecesFrom atStart b k t).flatMap (Text.Piece.replaced inert)) := by
  fun_induction piecesFrom atStart b k t generalizing n o with
  | case1 =>
    rw [List.drop_nil]
    exact .nil n
  | case2 b k c t ih => exact ih n o
  | case3 b c t a m hm ih =>
    obtain ⟨text, hash⟩ := a
    obtain ⟨_, @⟨target, htext, htarget⟩, ⟨post, hpost⟩, hlen⟩ := atStart_eq_some_iff.mp hm
    rw [Nat.succ_eq_add_one] at hlen
    have hsource : (c :: t).take (m + 1) = '[' :: text ++ "](" ++ target := by rw [← hpost, ← hlen, List.take_left]
    have hafter : (c :: t).drop (m + 1) = post := by rw [← hpost, ← hlen, List.drop_left]
    rw [List.drop_succ_cons] at hafter
    rw [hafter] at ih
    rw [hitsFrom, List.map_cons, List.flatMap_cons, hsource, List.drop_zero, ← hpost, Text.Piece.replaced, inert_eq]
    exact .link htext htarget (ih _ _)
  | case4 b c t hm ih =>
    refine .kept (fun s hs hpre => ?_) (ih _ _)
    obtain ⟨a, m, hread⟩ := reads_atStart_iff.mpr ⟨s, hs, hpre⟩
    exact hm a m hread

/-- What has no opening bracket in it stands before the first rewritten link. -/
theorem Retargets.prefix_of_prefix (h : Retargets n t ls u) (hp : p <+: u) (hopen : '[' ∉ p) : p <+: t := by
  induction h generalizing p with
  | nil => exact hp
  | kept _ _ ih =>
    cases p with
    | nil => exact List.nil_prefix
    | cons d p =>
      rw [List.mem_cons, not_or] at hopen
      obtain ⟨rfl, hrest⟩ := List.cons_prefix_cons.mp hp
      exact List.cons_prefix_cons.mpr ⟨rfl, ih hrest hopen.2⟩
  | link =>
    cases p with
    | nil => exact List.nil_prefix
    | cons d p =>
      obtain ⟨rfl, -⟩ := List.cons_prefix_cons.mp hp
      exact (hopen List.mem_cons_self).elim

theorem Retargets.isTargeted (h : Retargets n t ls u) (hu : IsTargeted u) : IsTargeted t := by
  obtain ⟨hash, s, hs, hpre⟩ := hu
  refine ⟨hash, s, hs, h.prefix_of_prefix hpre fun hopen => ?_⟩
  rcases List.mem_cons.mp hopen with hopen | hopen
  · exact absurd hopen (by decide)
  · exact absurd (hs.written '[' hopen) (by decide)

/-- A target after the first closing bracket was there before, and up to there nothing has changed. -/
theorem Retargets.exists_targeted (h : Retargets n t ls u) (hu : u = w ++ ']' :: r) (hw : ']' ∉ w)
    (hr : IsTargeted r) : ∃ r', t = w ++ ']' :: r' ∧ IsTargeted r' := by
  induction h generalizing w with
  | nil => simp at hu
  | kept _ rest ih =>
    cases w with
    | nil =>
      obtain ⟨rfl, rfl⟩ := List.cons.inj hu
      exact ⟨_, rfl, rest.isTargeted hr⟩
    | cons d w =>
      rw [List.mem_cons, not_or] at hw
      obtain ⟨rfl, hrest⟩ := List.cons.inj hu
      obtain ⟨r', rfl, hr'⟩ := ih hrest hw.2
      exact ⟨r', rfl, hr'⟩
  | @link _ text _ _ _ u _ htext =>
    have hbrackets : ('[' :: text) ++ ']' :: ("(#)" ++ u) = w ++ ']' :: r := by simpa using hu
    have hopen : ']' ∉ '[' :: text := by simpa using htext
    obtain ⟨-, rfl⟩ := Text.first_inj hopen hw hbrackets
    exact (not_isTargeted_empty u hr).elim

/-- No link is left. -/
theorem Retargets.silent (h : Retargets n t ls u) (b : Option Char) : Silent atStart b u := by
  induction h generalizing b with
  | nil => trivial
  | kept hc rest ih =>
    refine ⟨fun hread => ?_, ih _⟩
    obtain ⟨rfl, w, r, hu, hw, hr⟩ := reads_cons_iff.mp hread
    obtain ⟨r', ht, hr'⟩ := rest.exists_targeted hu hw hr
    have hbefore : Reads atStart b ('[' :: _) := reads_cons_iff.mpr ⟨rfl, w, r', ht, hw, hr'⟩
    obtain ⟨s, hs, hpre⟩ := reads_atStart_iff.mp hbefore
    exact hc s hs hpre
  | @link _ text _ _ _ u _ htext _ _ ih =>
    have hopen : ']' ∉ '[' :: text := by simpa using htext
    have hempty : ∀ b, Silent atStart b ("(#)" ++ u) := by
      intro b
      refine ⟨?_, ?_, ?_, ih _⟩ <;> exact fun hread => absurd (reads_cons_iff.mp hread).1 (by decide)
    have hsilent := silent_bracketed hopen (not_isTargeted_empty u) hempty b
    simpa using hsilent

end ContentLink

namespace Sanitize

theorem retargets_neutralizeLinks (t : Text) : ContentLink.Retargets 1 t (ContentLink.all t) (neutralizeLinks t) :=
  ContentLink.retargets_piecesFrom none 0 t 1 0

/-- One pass over a text changes the targets of the content links that are found in it, each to a mark that leads nowhere,
and nothing else. It leaves no content link, so another pass changes nothing. -/
theorem links_retargeted_in_one_pass (t : Text) :
    ContentLink.Retargets 1 t (ContentLink.all t) (neutralizeLinks t) ∧
      ContentLink.all (neutralizeLinks t) = [] ∧ neutralizeLinks (neutralizeLinks t) = neutralizeLinks t := by
  have hpass := retargets_neutralizeLinks t
  have hsilent := hpass.silent none
  exact ⟨hpass, ContentLink.all_eq_nil hsilent, Text.substitute_of_silent hsilent⟩

-- the text of a link goes up to the first closing bracket, so the outer brackets make no link
example :
    let hash := Text.repeated 40 'e'
    neutralizeLinks ("[a [b](" ++ hash ++ ") c](" ++ hash ++ ")") = "[a [b](#) c](" ++ hash ++ ")" := by
  decide +kernel

end Sanitize
end Runbook
