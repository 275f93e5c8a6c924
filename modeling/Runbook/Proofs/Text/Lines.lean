import Mathlib.Data.List.Infix
import Runbook.Text.Basic

/-!
Lines put together again: the text they were cut from, with a line feed for each line end, or the very text where only
line feeds end a line.
-/
namespace Runbook.Text

variable {sep t a b l r : Text} {xs ys as bs : List Text} {c : Char}

theorem join_cons (h : xs ≠ []) : join sep (t :: xs) = t ++ sep ++ join sep xs := by
  cases xs with
  | nil => exact (h rfl).elim
  | cons u xs => rfl

theorem join_append (hx : xs ≠ []) (hy : ys ≠ []) :
    join sep (xs ++ ys) = join sep xs ++ sep ++ join sep ys := by
  induction xs with
  | nil => exact (hx rfl).elim
  | cons t xs ih =>
    by_cases h : xs = []
    · subst h
      exact join_cons hy
    · rw [List.cons_append, join_cons (by simp [h]), join_cons h, ih h]
      simp

/-- Consecutive lines put together stand inside all lines put together. -/
theorem join_infix (h : xs <:+: ys) : join sep xs <:+: join sep ys := by
  obtain ⟨p, q, rfl⟩ := h
  by_cases hx : xs = []
  · subst hx
    exact List.nil_infix
  have hq : join sep xs <+: join sep (xs ++ q) := by
    by_cases hq : q = []
    · subst hq
      rw [List.append_nil]
    · rw [join_append hx hq, List.append_assoc]
      exact List.prefix_append _ _
  have hp : join sep (xs ++ q) <:+ join sep (p ++ (xs ++ q)) := by
    by_cases hp : p = []
    · subst hp
      rw [List.nil_append]
    · rw [join_append hp (by simp [hx])]
      exact List.suffix_append _ _
  rw [List.append_assoc]
  exact hq.isInfix.trans hp.isInfix

theorem lines_ne_nil (t : Text) : lines t ≠ [] := by
  fun_cases lines t <;> simp_all

theorem lines_cons (hfeed : c ≠ '\n') (hreturn : c ≠ '\r') (t : Text) :
    ∃ l ls, lines (c :: t) = (c :: l) :: ls := by
  unfold lines
  split
  · rename_i heq
    cases heq
  · rename_i heq
    exact (hreturn (List.cons.inj heq).1).elim
  · rename_i heq
    obtain ⟨rfl, rfl⟩ := List.cons.inj heq
    rw [if_neg hfeed]
    split
    · exact ⟨[], [], rfl⟩
    · exact ⟨_, _, rfl⟩

theorem join_cons_cons (sep : Text) (c : Char) (t : Text) (xs : List Text) :
    join sep ((c :: t) :: xs) = c :: join sep (t :: xs) := by
  cases xs <;> rfl

theorem joinLines_cons_cons (c : Char) (t : Text) (xs : List Text) :
    joinLines ((c :: t) :: xs) = c :: joinLines (t :: xs) := join_cons_cons _ c t xs

theorem joinLines_nil_cons (h : xs ≠ []) : joinLines ([] :: xs) = '\n' :: joinLines xs := join_cons h

theorem unixLines_cons (h : ∀ r, c = '\r' → t = '\n' :: r → False) :
    unixLines (c :: t) = c :: unixLines t := by
  rw [unixLines]
  exact h

theorem joinLines_lines (t : Text) : joinLines (lines t) = unixLines t := by
  fun_induction lines t with
  | case1 => rfl
  | case2 t ih => rw [joinLines_nil_cons (lines_ne_nil t), ih, unixLines]
  | case3 t _ ih =>
    rw [joinLines_nil_cons (lines_ne_nil t), ih, unixLines]
    simp
  | case4 c t hcr hc hl ih => exact (lines_ne_nil t hl).elim
  | case5 c t hcr hc l ls hl ih =>
    rw [joinLines_cons_cons, ← hl, ih, unixLines_cons hcr]

/-- There is one line more than there are line feeds. -/
theorem length_lines (t : Text) : (lines t).length = t.count '\n' + 1 := by
  fun_induction lines t with
  | case1 => rfl
  | case2 t ih => simp [ih]
  | case3 t _ ih => simp [ih]
  | case4 c t hcr hc hl ih => exact (lines_ne_nil t hl).elim
  | case5 c t hcr hc l ls hl ih =>
    rw [hl] at ih
    simpa [hc] using ih

/-- Any cut of a text with line feeds for its line ends is a cut of the text itself. -/
theorem exists_of_unixLines_eq_append (h : unixLines t = a ++ b) :
    ∃ p q, t = p ++ q ∧ unixLines p = a ∧ unixLines q = b := by
  fun_induction unixLines t generalizing a with
  | case1 =>
    obtain ⟨rfl, rfl⟩ := List.nil_eq_append_iff.mp h
    exact ⟨[], [], rfl, rfl, rfl⟩
  | case2 t ih =>
    cases a with
    | nil => exact ⟨[], '\r' :: '\n' :: t, rfl, rfl, h⟩
    | cons d a =>
      obtain ⟨rfl, htab⟩ := List.cons.inj h
      obtain ⟨p, q, rfl, rfl, rfl⟩ := ih htab
      exact ⟨'\r' :: '\n' :: p, q, rfl, by rw [unixLines], rfl⟩
  | case3 c t hcr ih =>
    cases a with
    | nil => exact ⟨[], c :: t, rfl, rfl, (unixLines_cons hcr).trans h⟩
    | cons d a =>
      obtain ⟨rfl, htab⟩ := List.cons.inj h
      obtain ⟨p, q, rfl, rfl, rfl⟩ := ih htab
      refine ⟨c :: p, q, rfl, unixLines_cons ?_, rfl⟩
      rintro r rfl rfl
      exact hcr _ rfl rfl

theorem mem_unixLines (hc : c ≠ '\r') (h : c ∈ t) : c ∈ unixLines t := by
  fun_induction unixLines t with
  | case1 => exact h
  | case2 t ih =>
    rcases List.mem_cons.mp h with rfl | h
    · exact (hc rfl).elim
    · rcases List.mem_cons.mp h with rfl | h
      · exact List.mem_cons_self
      · exact List.mem_cons_of_mem _ (ih h)
  | case3 d t _ ih =>
    rcases List.mem_cons.mp h with rfl | h
    · exact List.mem_cons_self
    · exact List.mem_cons_of_mem _ (ih h)

/-- A text with a line feed nowhere in it was written as it is. -/
theorem eq_of_unixLines_eq (h : unixLines t = a) (ha : '\n' ∉ a) : t = a := by
  fun_induction unixLines t generalizing a with
  | case1 => exact h
  | case2 t ih => exact (ha (h ▸ List.mem_cons_self)).elim
  | case3 c t _ ih =>
    subst h
    rw [← ih rfl fun hm => ha (List.mem_cons_of_mem _ hm)]

theorem infix_of_unixLines (h : a <:+: unixLines t) (ha : '\n' ∉ a) : a <:+: t := by
  obtain ⟨p, q, hpq⟩ := h
  rw [List.append_assoc] at hpq
  obtain ⟨p, u, rfl, -, hu⟩ := exists_of_unixLines_eq_append hpq.symm
  obtain ⟨e, q, rfl, he, -⟩ := exists_of_unixLines_eq_append hu
  obtain rfl := eq_of_unixLines_eq he ha
  exact ⟨p, q, List.append_assoc ..⟩

theorem infix_of_infix_concat (h : a <:+: t ++ [c]) (hc : c ∉ a) : a <:+: t := by
  rcases List.infix_concat_iff.mp h with h | h
  · rcases List.suffix_concat_iff.mp h with rfl | ⟨u, rfl, -⟩
    · exact List.nil_infix
    · simp at hc
  · exact h

/-! Pieces between separators -/

theorem splitAt_of_not_mem (h : c ∉ l) : splitAt c l = [l] := by
  induction l with
  | nil => rfl
  | cons d l ih =>
    have hd : d ≠ c := fun he => h (he ▸ List.mem_cons_self)
    rw [splitAt, if_neg hd, ih fun hm => h (List.mem_cons_of_mem d hm)]

theorem splitAt_ne_nil (c : Char) (t : Text) : splitAt c t ≠ [] := by
  fun_cases splitAt c t <;> simp_all

/-- A separator parts the pieces before it from those after it. -/
theorem splitAt_append_cons (c : Char) (a b : Text) : splitAt c (a ++ c :: b) = splitAt c a ++ splitAt c b := by
  induction a with
  | nil => simp [splitAt]
  | cons d a ih =>
    rw [List.cons_append, splitAt, splitAt, ih]
    split
    · rfl
    · cases h : splitAt c a with
      | nil => exact (splitAt_ne_nil c a h).elim
      | cons l ls => rfl

theorem splitAt_append (h : c ∉ l) (r : Text) : splitAt c (l ++ c :: r) = l :: splitAt c r := by
  rw [splitAt_append_cons, splitAt_of_not_mem h, List.singleton_append]

theorem join_splitAt (c : Char) (t : Text) : join [c] (splitAt c t) = t := by
  fun_induction splitAt c t with
  | case1 => rfl
  | case2 t ih => rw [join_cons (splitAt_ne_nil c t), ih, List.nil_append, List.singleton_append]
  | case3 d t _ hl => exact (splitAt_ne_nil c t hl).elim
  | case4 d t _ l ls hl ih => rw [join_cons_cons, ← hl, ih]

theorem joinLines_splitAt (t : Text) : joinLines (splitAt '\n' t) = t := join_splitAt '\n' t

theorem splitAt_join (hx : xs ≠ []) (h : ∀ x ∈ xs, c ∉ x) : splitAt c (join [c] xs) = xs := by
  induction xs with
  | nil => exact (hx rfl).elim
  | cons x xs ih =>
    obtain ⟨hc, hxs⟩ := List.forall_mem_cons.mp h
    cases xs with
    | nil => exact splitAt_of_not_mem hc
    | cons y ys =>
      rw [join_cons (by simp), List.append_assoc, List.singleton_append, splitAt_append hc, ih (by simp) hxs]

/-- A text has one way to be cut at its first separator. -/
theorem first_inj {f g s : Text} (hf : c ∉ f) (hg : c ∉ g) (h : f ++ c :: r = g ++ c :: s) :
    f = g ∧ r = s := by
  have hs := congrArg (splitAt c) h
  rw [splitAt_append hf, splitAt_append hg] at hs
  obtain ⟨rfl, -⟩ := List.cons.inj hs
  exact ⟨rfl, by simpa using h⟩

theorem eq_nil_or_of_head (h : ∀ d ∈ r.head?, d = c) : r = [] ∨ ∃ s, r = c :: s := by
  cases r with
  | nil => exact .inl rfl
  | cons d s => exact .inr ⟨s, by rw [h d rfl]⟩

theorem mem_of_getLast (h : ∀ d ∈ l.getLast?, d = c) (hl : l ≠ []) : c ∈ l := by
  have hm := List.getLast?_eq_some_getLast hl
  rw [← h _ hm]
  exact List.getLast_mem hl

/-- A piece is what stands between two separators, or between one and an end of the text. -/
theorem mem_splitAt_iff : l ∈ splitAt c t ↔
    ∃ p q, t = p ++ (l ++ q) ∧ c ∉ l ∧ (∀ d ∈ p.getLast?, d = c) ∧ ∀ d ∈ q.head?, d = c := by
  induction hn : t.length using Nat.strongRecOn generalizing t with
  | ind n ih =>
    by_cases h : c ∈ t
    · obtain ⟨f, r, rfl, hf⟩ := List.eq_append_cons_of_mem h
      rw [splitAt_append hf, List.mem_cons, ih r.length (by simp at hn; omega) rfl]
      constructor
      · rintro (rfl | ⟨p, q, rfl, hl, hp, hq⟩)
        · exact ⟨[], c :: r, rfl, hf, by simp, by simp⟩
        · refine ⟨f ++ c :: p, q, by simp, hl, fun d hd => ?_, hq⟩
          cases p with
          | nil => simpa using hd.symm
          | cons e p => exact hp d (by simpa using hd)
      · rintro ⟨p, q, he, hl, hp, hq⟩
        by_cases hcp : c ∈ p
        · obtain ⟨g, p, rfl, hg⟩ := List.eq_append_cons_of_mem hcp
          rw [List.append_assoc, List.cons_append] at he
          obtain ⟨rfl, rfl⟩ := first_inj hf hg he
          refine .inr ⟨p, q, rfl, hl, fun d hd => hp d ?_, hq⟩
          cases p with
          | nil => cases hd
          | cons e p => simpa using hd
        · obtain rfl : p = [] := by
            by_contra hne
            exact hcp (mem_of_getLast hp hne)
          rcases eq_nil_or_of_head hq with rfl | ⟨s, rfl⟩
          · rw [List.nil_append, List.append_nil] at he
            exact (hl (he ▸ h)).elim
          · exact .inl (first_inj hf hl he).1.symm
    · rw [splitAt_of_not_mem h, List.mem_singleton]
      constructor
      · rintro rfl
        exact ⟨[], [], by simp, h, by simp, by simp⟩
      · rintro ⟨p, q, rfl, -, hp, hq⟩
        simp only [List.mem_append, not_or] at h
        obtain rfl : p = [] := by
          by_contra hne
          exact h.1 (mem_of_getLast hp hne)
        rcases eq_nil_or_of_head hq with rfl | ⟨s, rfl⟩
        · simp
        · exact (h.2.2 List.mem_cons_self).elim

/-! Lines with their ends -/

/-- Some lines with their ends. -/
def ended (ls : List Text) : Text := ls.flatMap (· ++ ['\n'])

theorem joinLines_append (hbs : bs ≠ []) (as : List Text) : joinLines (as ++ bs) = ended as ++ joinLines bs := by
  induction as with
  | nil => rfl
  | cons a as ih =>
    have hne : as ++ bs ≠ [] := by simp [hbs]
    have hcons : ended (a :: as) = a ++ ['\n'] ++ ended as := rfl
    rw [List.cons_append, joinLines, join_cons hne, ← joinLines, ih, hcons, List.append_assoc (a ++ ['\n'])]

theorem getLast_ended (as : List Text) : ∀ c ∈ (ended as).getLast?, c = '\n' := by
  cases as using List.reverseRecOn with
  | nil => simp [ended]
  | append_singleton as a => simp [ended, eq_comm]

theorem count_ended_cons (a : Text) (as : List Text) :
    (ended (a :: as)).count '\n' = a.count '\n' + 1 + (ended as).count '\n' := by
  have hcons : ended (a :: as) = a ++ ['\n'] ++ ended as := rfl
  rw [hcons, List.count_append, List.count_append, List.count_singleton_self]

theorem length_le_count_ended (as : List Text) : as.length ≤ (ended as).count '\n' := by
  induction as with
  | nil => exact Nat.zero_le _
  | cons a as ih =>
    rw [count_ended_cons, List.length_cons]
    omega

/-- There are as many line feeds as lines exactly when none stands inside a line. -/
theorem count_ended_eq_iff : (ended as).count '\n' = as.length ↔ ∀ l ∈ as, '\n' ∉ l := by
  induction as with
  | nil => simp [ended]
  | cons a as ih =>
    have hrest := length_le_count_ended as
    rw [List.forall_mem_cons, ← ih, ← List.count_eq_zero, count_ended_cons, List.length_cons]
    omega

theorem count_ended (h : ∀ l ∈ as, '\n' ∉ l) : (ended as).count '\n' = as.length := count_ended_eq_iff.mpr h

/-- Lines in a row start with the first of them. -/
theorem joinLines_append_rest (has : as ≠ []) (bs : List Text) :
    ∃ r, joinLines (as ++ bs) = joinLines as ++ r ∧ ∀ c ∈ r.head?, c = '\n' := by
  by_cases hbs : bs = []
  · refine ⟨[], ?_, by simp⟩
    rw [hbs, List.append_nil, List.append_nil]
  · refine ⟨'\n' :: joinLines bs, ?_, by simp⟩
    rw [joinLines, join_append has hbs, List.append_assoc]
    rfl

/-! Final characters -/

theorem dropFinal_concat (c : Char) (t : Text) : dropFinal c (t ++ [c]) = t := by simp [dropFinal]

theorem dropFinal_of_ne (h : ∀ d ∈ t.getLast?, d ≠ c) : dropFinal c t = t :=
  if_neg fun hl => h c hl rfl

theorem eq_or_eq_concat_dropFinal (c : Char) (t : Text) : t = dropFinal c t ∨ t = dropFinal c t ++ [c] := by
  unfold dropFinal
  split
  · rename_i h
    obtain ⟨s, rfl⟩ := List.getLast?_eq_some_iff.mp h
    exact .inr (by simp)
  · exact .inl rfl

theorem dropFinal_cons (d : Char) (h : t ≠ []) : dropFinal c (d :: t) = d :: dropFinal c t := by
  rw [dropFinal, dropFinal, List.getLast?_cons_of_ne_nil h, List.dropLast_cons_of_ne_nil h]
  split <;> rfl

theorem dropFinal_cons_of_ne {d : Char} (h : d ≠ c) (t : Text) : dropFinal c (d :: t) = d :: dropFinal c t := by
  cases t with
  | nil => exact dropFinal_of_ne (by simpa using h)
  | cons e t => exact dropFinal_cons d (by simp)

/-- Where carriage returns stand before line feeds only, the lines are the raw lines without them. -/
theorem lines_eq_map (h : ∀ s ∈ t.tails, s.head? = some '\r' → s.tail.head? = some '\n') :
    lines t = (splitAt '\n' t).map (dropFinal '\r') := by
  fun_induction lines t with
  | case1 => rfl
  | case2 t ih =>
    simp only [List.tails_cons, List.forall_mem_cons] at h
    rw [ih h.2.2, splitAt, if_neg (by decide), splitAt, if_pos rfl]
    rfl
  | case3 t _ ih =>
    simp only [List.tails_cons, List.forall_mem_cons] at h
    rw [ih h.2, splitAt, if_pos rfl]
    rfl
  | case4 c t hcr hc hl ih => exact (lines_ne_nil t hl).elim
  | case5 c t hcr hc l ls hl ih =>
    simp only [List.tails_cons, List.forall_mem_cons] at h
    have hne : c ≠ '\r' := by
      rintro rfl
      cases t with
      | nil => simp at h
      | cons d t => exact hcr t rfl (by simpa using h.1)
    rw [splitAt, if_neg hc]
    have ht := (ih h.2).symm.trans hl
    cases hs : splitAt '\n' t with
    | nil => exact (splitAt_ne_nil '\n' t hs).elim
    | cons m ms =>
      rw [hs, List.map_cons] at ht
      obtain ⟨rfl, rfl⟩ := List.cons.inj ht
      rw [List.map_cons, dropFinal_cons_of_ne hne]

/-- Without carriage returns, lines are what stands between the line feeds. -/
theorem lines_of_no_return (h : '\r' ∉ t) : lines t = splitAt '\n' t := by
  have htails : ∀ s ∈ t.tails, s.head? = some '\r' → s.tail.head? = some '\n' := by
    intro s hs hhead
    exact (h ((List.mem_tails s t).mp hs |>.subset (List.mem_of_mem_head? hhead))).elim
  have hkept : ∀ l ∈ splitAt '\n' t, dropFinal '\r' l = id l := by
    intro l hl
    obtain ⟨p, q, rfl, -⟩ := mem_splitAt_iff.mp hl
    apply dropFinal_of_ne
    rintro c hc rfl
    apply h
    simp [List.mem_of_mem_getLast? hc]
  rw [lines_eq_map htails, List.map_congr_left hkept, List.map_id]

end Runbook.Text
