import Runbook.Proofs.Text.Digit
import Runbook.Report.Display

/-!
The last lines of an output, under a notice of how many are left out. Where no line at all is wanted, the notice tells of
all lines and yet all of them are shown.
-/
namespace Runbook.Display

open Text (joinLines splitAt)

variable {t : Text} {n : Nat}

/-- The lines of an output; the line feeds at its end do not count. -/
def outputLines (t : Text) : List Text := splitAt '\n' (lineBody t)

/-- The line that tells how many lines are left out. -/
def notice (left : Nat) : Text := "... [" ++ Text.ofNat left ++ " more lines] ..."

/-- All lines where no more than `most` are there. Else the last `most` of them, under a notice that makes up for the rest. -/
structure IsTail (most : Nat) (ls shown : List Text) : Prop where
  all : ls.length ≤ most → shown = ls
  last : most < ls.length → ∃ left kept, shown = notice left :: kept ∧ kept <:+ ls ∧ kept.length = most ∧
    left + kept.length = ls.length

/-- What a text shows of an output. Nothing is shown of an empty one. -/
structure ShowsTail (most : Nat) (t shown : Text) : Prop where
  empty : t = [] → shown = []
  lines : t ≠ [] → IsTail most (outputLines t) (splitAt '\n' shown)

theorem feed_not_mem_notice (left : Nat) : '\n' ∉ notice left := by
  intro h
  rcases List.mem_append.mp h with h | h
  · rcases List.mem_append.mp h with h | h
    · exact absurd h (by decide)
    · exact absurd (Text.isAlphanum_of_mem_ofNat h) (by decide)
  · exact absurd h (by decide)

theorem outputLines_ne_nil (t : Text) : outputLines t ≠ [] := Text.splitAt_ne_nil _ _

theorem feed_not_mem_outputLines {l : Text} (h : l ∈ outputLines t) : '\n' ∉ l := by
  obtain ⟨-, -, -, hl, -⟩ := Text.mem_splitAt_iff.mp h
  exact hl

theorem lastItems_pos {α : Type} (hn : 0 < n) (as : List α) : lastItems n as = as.drop (as.length - n) := by
  rw [lastItems, if_pos (by exact_mod_cast hn), Int.toNat_natCast]

theorem lastItems_suffix {α : Type} (n : Int) (as : List α) : lastItems n as <:+ as := by
  rw [lastItems]
  split <;> exact List.drop_suffix _ _

/-- The lines that are shown, read back from the text. -/
theorem splitAt_tail (ht : t ≠ []) (most : Nat) : splitAt '\n' (tail most t) =
    if (outputLines t).length ≤ most then outputLines t
    else notice ((outputLines t).length - most) :: lastItems most (outputLines t) := by
  have hne : t.isEmpty = false := by simpa using ht
  have hsplit : splitAt '\n' (lineBody t) = outputLines t := rfl
  rw [tail, hne, if_neg (by simp), hsplit]
  dsimp only
  by_cases hall : (outputLines t).length ≤ most
  · rw [if_pos hall, if_pos (by exact_mod_cast hall), joinLines,
      Text.splitAt_join (outputLines_ne_nil t) fun l hl => feed_not_mem_outputLines hl]
  · have hleft : Text.ofInt ((outputLines t).length - most) = Text.ofNat ((outputLines t).length - most) := by
      rw [← Int.ofNat_sub (Nat.le_of_not_le hall)]
      rfl
    rw [if_neg hall, if_neg (by exact_mod_cast hall), hleft, joinLines, Text.splitAt_join (List.cons_ne_nil _ _)]
    · rfl
    · refine List.forall_mem_cons.mpr ⟨feed_not_mem_notice _, fun l hl => ?_⟩
      exact feed_not_mem_outputLines ((lastItems_suffix _ _).subset hl)

/-- An output is shown by its last lines, with a notice that makes up for the rest, unless no line is wanted of it. Then
all of them are left out by the notice and shown below it. -/
theorem showsTail_iff (most : Nat) (t : Text) :
    (ShowsTail most t (tail most t) ↔ most ≠ 0 ∨ t = []) ∧
      (t ≠ [] → splitAt '\n' (tail 0 t) = notice (outputLines t).length :: outputLines t) := by
  have hsome : 0 < (outputLines t).length := List.length_pos_iff.mpr (outputLines_ne_nil t)
  have hzero (ht : t ≠ []) : splitAt '\n' (tail 0 t) = notice (outputLines t).length :: outputLines t := by
    have hsplit := splitAt_tail ht 0
    rw [if_neg (by omega), Nat.sub_zero] at hsplit
    exact hsplit
  refine ⟨⟨fun hshows => ?_, fun hwanted => ?_⟩, hzero⟩
  · by_contra hnot
    obtain ⟨hmost, ht⟩ := not_or.mp hnot
    obtain rfl := not_not.mp hmost
    obtain ⟨left, kept, hkept, -, hlength, -⟩ := (hshows.lines ht).last hsome
    obtain ⟨-, rfl⟩ := List.cons.inj ((hzero ht).symm.trans hkept)
    omega
  · refine ⟨fun ht => by rw [ht]; rfl, fun ht => ⟨fun hall => ?_, fun hmore => ?_⟩⟩
    · rw [splitAt_tail ht, if_pos hall]
    · have hmost : 0 < most := Nat.pos_of_ne_zero (hwanted.resolve_right ht)
      refine ⟨(outputLines t).length - most, lastItems most (outputLines t), ?_, lastItems_suffix _ _, ?_, ?_⟩
      · rw [splitAt_tail ht, if_neg (by omega)]
      all_goals
        rw [lastItems_pos hmost, List.length_drop]
        omega

/-- One line, and none wanted. -/
theorem tail_shows_unwantedLine :
    tail 0 "a" = "... [1 more lines] ...\na" ∧ outputLines "a" = ["a".toList] ∧ ¬ ShowsTail 0 "a" (tail 0 "a") := by
  refine ⟨rfl, rfl, fun hshows => ?_⟩
  obtain ⟨left, kept, hkept, -, hlength, -⟩ := (hshows.lines (by simp)).last (by decide)
  have htwo := congrArg List.length hkept
  rw [List.length_cons, hlength] at htwo
  exact absurd htwo (by decide)

end Runbook.Display
