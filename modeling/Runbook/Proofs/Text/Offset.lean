import Mathlib.Data.List.Pairwise
import Runbook.Proofs.Text.Lines

/-! Raw lines with the offsets at which they start. -/
namespace Runbook.Text

variable {t l p q : Text} {ls xs ys : List Text} {as bs : List (Nat × Text)} {x y : Nat × Text} {o : Nat}

/-- Lines with their offsets, the first at `o`. Each but the last has a line feed after it. -/
def linesFrom (o : Nat) : List Text → List (Nat × Text)
  | [] => []
  | l :: ls => (o, l) :: linesFrom (o + l.length + 1) ls

def lineStarts (t : Text) : List (Nat × Text) := linesFrom 0 (splitAt '\n' t)

theorem length_ended_cons (l : Text) (ls : List Text) : (ended (l :: ls)).length = l.length + 1 + (ended ls).length := by
  simp only [ended, List.flatMap_cons, List.length_append, List.length_singleton]

theorem ended_append (xs ys : List Text) : ended (xs ++ ys) = ended xs ++ ended ys := List.flatMap_append

theorem length_ended_concat (xs : List Text) (l : Text) :
    (ended (xs ++ [l])).length = (ended xs).length + l.length + 1 := by
  rw [ended_append, List.length_append, length_ended_cons]
  exact (Nat.add_assoc ..).symm

/-- The last line end of all is the only one that lines put together lack. -/
theorem joinLines_concat_feed (h : xs ≠ []) : joinLines xs ++ ['\n'] = ended xs := by
  have hjoin : joinLines (xs ++ [[]]) = ended xs ++ joinLines [[]] := joinLines_append (by simp) xs
  rw [joinLines, join_append h (by simp)] at hjoin
  simpa [joinLines, join] using hjoin

theorem splitAt_ended (h : ∀ l ∈ ls, '\n' ∉ l) : splitAt '\n' (ended ls) = ls ++ [[]] := by
  have hjoin : joinLines (ls ++ [[]]) = ended ls ++ [] := joinLines_append (by simp) ls
  rw [List.append_nil] at hjoin
  rw [← hjoin, joinLines, splitAt_join (by simp)]
  intro l hl
  rcases List.mem_append.mp hl with hl | hl
  · exact h l hl
  · obtain rfl := List.mem_singleton.mp hl
    exact List.not_mem_nil

theorem eq_of_ended_eq {ks : List Text} (hk : ∀ k ∈ ks, '\n' ∉ k) (hlength : ks.length = ls.length)
    (h : ended ls = ended ks) : ls = ks := by
  have hl : ∀ l ∈ ls, '\n' ∉ l := count_ended_eq_iff.mp (by rw [h, count_ended hk, hlength])
  have hsplit := congrArg (splitAt '\n') h
  rw [splitAt_ended hl, splitAt_ended hk] at hsplit
  exact List.append_cancel_right hsplit

theorem linesFrom_append (o : Nat) (xs ys : List Text) :
    linesFrom o (xs ++ ys) = linesFrom o xs ++ linesFrom (o + (ended xs).length) ys := by
  induction xs generalizing o with
  | nil => rfl
  | cons l xs ih =>
    rw [List.cons_append, linesFrom, ih, length_ended_cons, linesFrom, List.cons_append]
    congr 3
    omega

/-- Where the lines with offsets are cut, the lines are cut. -/
theorem exists_of_linesFrom_eq (h : linesFrom o ls = as ++ bs) :
    ∃ xs ys, ls = xs ++ ys ∧ as = linesFrom o xs ∧ bs = linesFrom (o + (ended xs).length) ys := by
  induction as generalizing o ls with
  | nil => exact ⟨[], ls, rfl, rfl, h.symm⟩
  | cons a as ih =>
    cases ls with
    | nil => cases h
    | cons l ls =>
      obtain ⟨rfl, hrest⟩ := List.cons.inj h
      obtain ⟨xs, ys, rfl, rfl, rfl⟩ := ih hrest
      refine ⟨l :: xs, ys, rfl, rfl, ?_⟩
      rw [length_ended_cons]
      congr 1
      omega

theorem exists_of_linesFrom_eq_cons (h : linesFrom o ls = as ++ x :: bs) :
    ∃ xs ys, ls = xs ++ x.2 :: ys ∧ as = linesFrom o xs ∧ x.1 = o + (ended xs).length ∧
      bs = linesFrom (x.1 + x.2.length + 1) ys := by
  obtain ⟨xs, zs, rfl, rfl, hzs⟩ := exists_of_linesFrom_eq h
  cases zs with
  | nil => cases hzs
  | cons l ys =>
    obtain ⟨rfl, rfl⟩ := List.cons.inj hzs
    exact ⟨xs, ys, rfl, rfl, rfl, rfl⟩

@[simp] theorem map_snd_linesFrom (o : Nat) (ls : List Text) : (linesFrom o ls).map Prod.snd = ls := by
  induction ls generalizing o with
  | nil => rfl
  | cons l ls ih => rw [linesFrom, List.map_cons, ih]

theorem exists_mem_linesFrom (h : l ∈ ls) (o : Nat) : ∃ x ∈ linesFrom o ls, x.2 = l := by
  rw [← map_snd_linesFrom o ls] at h
  exact List.mem_map.mp h

theorem mem_of_mem_linesFrom (h : x ∈ linesFrom o ls) : x.2 ∈ ls := by
  rw [← map_snd_linesFrom o ls]
  exact List.mem_map_of_mem h

theorem le_of_mem_linesFrom (h : x ∈ linesFrom o ls) : o ≤ x.1 := by
  obtain ⟨as, bs, heq⟩ := List.append_of_mem h
  obtain ⟨xs, ys, -, -, hx, -⟩ := exists_of_linesFrom_eq_cons heq
  omega

theorem lt_of_mem_linesFrom (h : x ∈ linesFrom o ls) : x.1 + x.2.length < o + (ended ls).length := by
  obtain ⟨as, bs, heq⟩ := List.append_of_mem h
  obtain ⟨xs, ys, rfl, -, hx, -⟩ := exists_of_linesFrom_eq_cons heq
  rw [ended_append, List.length_append, length_ended_cons]
  omega

/-- Each line ends before the next one starts. -/
theorem pairwise_linesFrom (o : Nat) (ls : List Text) :
    (linesFrom o ls).Pairwise fun x y => x.1 + x.2.length < y.1 := by
  induction ls generalizing o with
  | nil => exact .nil
  | cons l ls ih =>
    refine .cons (fun y hy => ?_) (ih _)
    exact le_of_mem_linesFrom hy

/-- No two lines overlap. -/
theorem eq_or_lt_or_lt_of_mem (hx : x ∈ lineStarts t) (hy : y ∈ lineStarts t) :
    x = y ∨ x.1 + x.2.length < y.1 ∨ y.1 + y.2.length < x.1 := by
  have hpair : (lineStarts t).Pairwise fun x y => x.1 + x.2.length < y.1 ∨ y.1 + y.2.length < x.1 :=
    (pairwise_linesFrom 0 _).imp .inl
  have : Std.Symm fun x y : Nat × Text => x.1 + x.2.length < y.1 ∨ y.1 + y.2.length < x.1 := ⟨fun _ _ => Or.symm⟩
  by_cases heq : x = y
  · exact .inl heq
  · exact .inr (hpair.forall hx hy heq)

/-! Offsets in the text -/

theorem mem_lineStarts_of_split (h : splitAt '\n' t = xs ++ l :: ys) : ((ended xs).length, l) ∈ lineStarts t := by
  rw [lineStarts, h, linesFrom_append, Nat.zero_add]
  exact List.mem_append_right _ List.mem_cons_self

theorem exists_of_mem_lineStarts (h : x ∈ lineStarts t) :
    ∃ xs ys, splitAt '\n' t = xs ++ x.2 :: ys ∧ x.1 = (ended xs).length := by
  obtain ⟨as, bs, heq⟩ := List.append_of_mem h
  obtain ⟨xs, ys, hsplit, -, hx, -⟩ := exists_of_linesFrom_eq_cons heq
  exact ⟨xs, ys, hsplit, by omega⟩

/-- What stands before a line is the lines before it with their ends. -/
theorem eq_of_split (h : splitAt '\n' t = xs ++ ys) (hne : ys ≠ []) : t = ended xs ++ joinLines ys := by
  rw [← joinLines_append hne, ← h, joinLines_splitAt]

theorem drop_of_split (h : splitAt '\n' t = xs ++ ys) (hne : ys ≠ []) : t.drop (ended xs).length = joinLines ys := by
  conv_lhs => rw [eq_of_split h hne, List.drop_left]

theorem feedless_of_split (h : splitAt '\n' t = xs ++ ys) : ∀ l ∈ xs ++ ys, '\n' ∉ l := by
  intro l hl
  rw [← h] at hl
  obtain ⟨-, -, -, hno, -⟩ := mem_splitAt_iff.mp hl
  exact hno

theorem count_of_split (h : splitAt '\n' t = xs ++ ys) (hne : ys ≠ []) :
    (t.take (ended xs).length).count '\n' = xs.length := by
  have hcount := count_ended fun l hl => feedless_of_split h l (List.mem_append_left ys hl)
  conv_lhs => rw [eq_of_split h hne, List.take_left, hcount]

theorem le_length_of_mem (h : x ∈ lineStarts t) : x.1 + x.2.length ≤ t.length := by
  obtain ⟨xs, ys, hsplit, hx⟩ := exists_of_mem_lineStarts h
  obtain ⟨r, hr, -⟩ := joinLines_append_rest (List.cons_ne_nil x.2 []) ys
  have hlen := congrArg List.length hr
  have htext := congrArg List.length (eq_of_split hsplit (by simp))
  simp only [List.singleton_append, List.length_append, joinLines, join] at hlen htext
  omega

/-- A line with lines behind it ends before the text does. -/
theorem lt_length_of_split (h : splitAt '\n' t = xs ++ l :: ys) (hne : ys ≠ []) :
    (ended xs).length + l.length < t.length := by
  have hlen := congrArg List.length (eq_of_split h (by simp))
  rw [joinLines, join_cons hne] at hlen
  simp only [List.length_append, List.length_singleton] at hlen
  omega

/-- The lines that start behind one are those that come after it. -/
theorem mem_linesFrom_of_split (h : splitAt '\n' t = xs ++ l :: ys) (hx : x ∈ lineStarts t)
    (hlt : (ended xs).length < x.1) : x ∈ linesFrom ((ended xs).length + l.length + 1) ys := by
  rw [lineStarts, h, linesFrom_append, Nat.zero_add] at hx
  rcases List.mem_append.mp hx with hx | hx
  · have := lt_of_mem_linesFrom hx
    omega
  · rcases List.mem_cons.mp hx with rfl | hx
    · exact (Nat.lt_irrefl _ hlt).elim
    · exact hx

/-- A line with its offset is what stands there between two line feeds, or between one and an end of the text. -/
theorem mem_lineStarts (hp : ∀ c ∈ p.getLast?, c = '\n') (hl : '\n' ∉ l) (hq : ∀ c ∈ q.head?, c = '\n') :
    (p.length, l) ∈ lineStarts (p ++ (l ++ q)) := by
  have hrest : ∃ ys, splitAt '\n' (l ++ q) = l :: ys := by
    rcases eq_nil_or_of_head hq with rfl | ⟨s, rfl⟩
    · exact ⟨[], by rw [List.append_nil, splitAt_of_not_mem hl]⟩
    · exact ⟨splitAt '\n' s, splitAt_append hl s⟩
  obtain ⟨ys, hys⟩ := hrest
  cases p using List.reverseRecOn with
  | nil =>
    rw [List.nil_append, lineStarts, hys]
    exact List.mem_cons_self
  | append_singleton p c =>
    obtain rfl : c = '\n' := hp c (by simp)
    have hended : ended (splitAt '\n' p) = p ++ ['\n'] := by
      rw [← joinLines_concat_feed (splitAt_ne_nil _ _), joinLines_splitAt]
    have hsplit : splitAt '\n' (p ++ ['\n'] ++ (l ++ q)) = splitAt '\n' p ++ l :: ys := by
      rw [List.append_assoc, List.singleton_append, splitAt_append_cons, hys]
    rw [← hended] at hsplit ⊢
    exact mem_lineStarts_of_split hsplit

end Runbook.Text
