import Runbook.Proofs.Markup.FenceEnd

/-!
Where the two readers of closing lines differ. The reader of lines takes any white space around a closing run; the reader of
raw lines takes spaces before it, and spaces, tabs and carriage returns after it. They differ on no other line.
-/
namespace Runbook.Markup

open Text (isBlank)

variable {marker l before run rest : Text} {n : Nat}

/-- At most three spaces, a closing run, and then spaces, tabs and carriage returns. -/
def IsClosingLine (marker l : Text) : Prop :=
  ∃ indent run rest, l = indent ++ (run ++ rest) ∧ IsIndent indent ∧ IsEndRun marker run ∧
    ∀ c ∈ rest, isLineEndBlank c = true

/-- A closing run with white space around it that a closing line may not have: some other than spaces before it, or some
other than spaces, tabs and carriage returns after it. -/
def IsOddlyBlank (marker l : Text) : Prop :=
  ∃ before run rest, l = before ++ (run ++ rest) ∧ (∀ c ∈ before, isBlank c = true) ∧ IsEndRun marker run ∧
    (∀ c ∈ rest, isBlank c = true) ∧ (l.takeWhile (· = ' ')).length ≤ 3 ∧
    ((∃ c ∈ before, c ≠ ' ') ∨ ∃ c ∈ rest, isLineEndBlank c = false)

theorem isBlank_of_isLineEndBlank {c : Char} (h : isLineEndBlank c = true) : isBlank c = true := by
  simp only [isLineEndBlank, Text.isGap, Bool.or_eq_true, decide_eq_true_eq] at h
  rcases h with (rfl | rfl) | rfl <;> rfl

theorem IsIndent.isBlank {indent : Text} (h : IsIndent indent) : ∀ c ∈ indent, isBlank c = true := by
  intro c hc
  cases h.1 c hc
  rfl

/-- The blanks around a closing run are determined by the line. -/
theorem IsEndRun.around (hend : IsEndRun marker run) (hm : IsMarker marker) (hb : ∀ c ∈ before, isBlank c = true)
    (hr : ∀ c ∈ rest, isBlank c = true) :
    (before ++ (run ++ rest)).takeWhile isBlank = before ∧
      ((before ++ (run ++ rest)).dropWhile isBlank).dropWhile (!isBlank ·) = rest := by
  have hrun : ∀ c ∈ run, isBlank c = false := fun c hc => (hm.isFenceChar (hend.2 c hc)).not_blank
  have hhead : ∀ c ∈ (run ++ rest).head?, isBlank c = false := by
    intro c hc
    rw [List.head?_append_of_ne_nil _ (hend.ne_nil hm)] at hc
    exact hrun c (List.mem_of_mem_head? hc)
  have hinside : ∀ c ∈ run, (!isBlank c) = true := by simpa using hrun
  have hnext : ∀ c ∈ rest.head?, (!isBlank c) = false := by
    intro c hc
    simpa using hr c (List.mem_of_mem_head? hc)
  exact ⟨Text.takeWhile_run hb hhead, by rw [Text.dropWhile_run hb hhead, Text.dropWhile_run hinside hnext]⟩

theorem IsClosingLine.not_isOddlyBlank (h : IsClosingLine marker l) (hm : IsMarker marker) :
    ¬ IsOddlyBlank marker l := by
  rintro ⟨before, run', rest', hl, hbefore, hend', hrest', -, hodd⟩
  obtain ⟨indent, run, rest, rfl, hindent, hend, hrest⟩ := h
  obtain ⟨hfirst, hlast⟩ := hend.around hm hindent.isBlank fun c hc => isBlank_of_isLineEndBlank (hrest c hc)
  obtain ⟨hfirst', hlast'⟩ := hend'.around hm hbefore hrest'
  rw [← hl, hfirst] at hfirst'
  rw [← hl, hlast] at hlast'
  subst hfirst' hlast'
  rcases hodd with ⟨c, hc, hne⟩ | ⟨c, hc, hne⟩
  · exact hne (hindent.1 c hc)
  · rw [hrest c hc] at hne
    cases hne

theorem closesFence_iff_isClosingLine_or (hm : IsMarker marker) :
    closesFence marker l = true ↔ IsClosingLine marker l ∨ IsOddlyBlank marker l := by
  rw [closesFence_iff hm]
  constructor
  · rintro ⟨before, run, rest, hl, hbefore, hend, hrest, hindent⟩
    by_cases hspaces : ∀ c ∈ before, c = ' '
    · by_cases hlast : ∀ c ∈ rest, isLineEndBlank c = true
      · have hrun : ∀ c ∈ (run ++ rest).head?, decide (c = ' ') = false :=
          fun c hc => decide_eq_false (hend.not_space hm rest c hc)
        rw [hl, Text.takeWhile_run (by simpa using hspaces) hrun] at hindent
        exact .inl ⟨before, run, rest, hl, ⟨hspaces, hindent⟩, hend, hlast⟩
      · refine .inr ⟨before, run, rest, hl, hbefore, hend, hrest, hindent, .inr ?_⟩
        simpa using hlast
    · refine .inr ⟨before, run, rest, hl, hbefore, hend, hrest, hindent, .inl ?_⟩
      simpa using hspaces
  · rintro (⟨indent, run, rest, rfl, hindent, hend, hrest⟩ | ⟨before, run, rest, hl, hbefore, hend, hrest, hindent, -⟩)
    · have hrun : ∀ c ∈ (run ++ rest).head?, decide (c = ' ') = false :=
        fun c hc => decide_eq_false (hend.not_space hm rest c hc)
      refine ⟨indent, run, rest, rfl, hindent.isBlank, hend, fun c hc => isBlank_of_isLineEndBlank (hrest c hc), ?_⟩
      rw [Text.takeWhile_run (by simpa using hindent.1) hrun]
      exact hindent.2
    · exact ⟨before, run, rest, hl, hbefore, hend, hrest, hindent⟩

/-- Where spaces are the only blanks of a line, both readers end a block on it or neither does. -/
theorem endsBlock_eq_closesFence (hm : IsMarker marker) (hl : ∀ c ∈ l, isBlank c = true → c = ' ') :
    endsBlock marker l = closesFence marker l := by
  rw [Bool.eq_iff_iff, endsBlock_iff hm, closesFence_iff_isClosingLine_or hm]
  refine (or_iff_left ?_).symm
  rintro ⟨before, run, rest, rfl, hbefore, -, hrest, -, ⟨c, hc, hne⟩ | ⟨c, hc, hne⟩⟩
  · exact hne (hl c (by simp [hc]) (hbefore c hc))
  · obtain rfl := hl c (by simp [hc]) (hrest c hc)
    cases hne

theorem readLine_code_outside (marker : Text) (n : Nat) (l : Text) :
    (readLine (.code marker) n l).2 = .outside ↔ closesFence marker l = true := by
  simp only [readLine]
  split
  · exact iff_of_true rfl ‹_›
  · exact iff_of_false nofun ‹_›

/-- Both readers end a block on its closing lines. The reader of lines ends it on oddly blank ones too, and the readers
agree on all lines but these. -/
theorem readLine_agrees_iff (hm : IsMarker marker) (n : Nat) (l : Text) :
    (endsBlock marker l = true ↔ IsClosingLine marker l) ∧
      ((readLine (.code marker) n l).2 = .outside ↔ IsClosingLine marker l ∨ IsOddlyBlank marker l) ∧
      (((readLine (.code marker) n l).2 = .outside ↔ endsBlock marker l = true) ↔ ¬ IsOddlyBlank marker l) := by
  have hraw : endsBlock marker l = true ↔ IsClosingLine marker l := endsBlock_iff hm
  have hread : (readLine (.code marker) n l).2 = .outside ↔ IsClosingLine marker l ∨ IsOddlyBlank marker l := by
    rw [readLine_code_outside, closesFence_iff_isClosingLine_or hm]
  refine ⟨hraw, hread, ?_⟩
  rw [hraw, hread]
  constructor
  · intro hagree hodd
    exact (hagree.mp (.inr hodd)).not_isOddlyBlank hm hodd
  · intro hodd
    exact or_iff_left hodd

/-- Three spaces before a longer run, and all the blanks after it that a closing line may have. -/
theorem readLine_agrees_iff_longRun :
    IsMarker ("~~~" : Text) ∧ (readLine (.code "~~~") 4 "   ~~~~~ \t\r").2 = .outside ∧
      endsBlock "~~~" "   ~~~~~ \t\r" = true := by
  have hm : IsMarker ("~~~" : Text) := ⟨le_rfl, '~', .inr rfl, by simp⟩
  have hends : endsBlock "~~~" "   ~~~~~ \t\r" = true := rfl
  obtain ⟨hraw, hread, -⟩ := readLine_agrees_iff hm 4 "   ~~~~~ \t\r"
  exact ⟨hm, hread.mpr (.inl (hraw.mp hends)), hends⟩

/-- A tab before the run: the block ends for the reader of lines only. -/
theorem readLine_disagrees_tab :
    IsMarker ("\x60\x60\x60" : Text) ∧ ('\n' ∉ ("\t\x60\x60\x60" : Text)) ∧
      (readLine (.code "\x60\x60\x60") 2 "\t\x60\x60\x60").2 = .outside ∧
      endsBlock "\x60\x60\x60" "\t\x60\x60\x60" = false :=
  ⟨⟨le_rfl, '\x60', .inl rfl, by simp⟩, by simp, rfl, rfl⟩

end Runbook.Markup
