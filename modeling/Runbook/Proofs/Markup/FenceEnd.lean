import Runbook.Proofs.Markup.FenceLine

/-!
The last line of a fenced block, for a reader of lines and for a reader of raw lines. They differ in the blanks that may
stand around the closing run.
-/
namespace Runbook.Markup

open Text (isBlank dropFinal)

variable {t l r x y marker : Text} {c : Char}

/-- The characters of a marker, as many at least. -/
def IsEndRun (marker run : Text) : Prop := marker.length ≤ run.length ∧ ∀ c ∈ run, c ∈ marker

theorem IsMarker.eq_of_mem (h : IsMarker marker) {d : Char} (hc : c ∈ marker) (hd : d ∈ marker) : c = d := by
  obtain ⟨-, e, -, he⟩ := h
  rw [he c hc, he d hd]

theorem IsEndRun.ne_nil (h : IsEndRun marker x) (hm : IsMarker marker) : x ≠ [] := by
  rintro rfl
  have hlen := hm.1
  have hle := h.1
  rw [List.length_nil] at hle
  omega

theorem IsEndRun.not_mem (h : IsEndRun marker x) (hm : IsMarker marker) (hc : ¬ IsFenceChar c) : c ∉ x :=
  fun hx => hc (hm.isFenceChar (h.2 c hx))

theorem IsEndRun.not_space (h : IsEndRun marker x) (hm : IsMarker marker) (y : Text) :
    ∀ d ∈ (x ++ y).head?, d ≠ ' ' := by
  intro d hd
  rw [List.head?_append_of_ne_nil _ (h.ne_nil hm)] at hd
  rintro rfl
  exact h.not_mem hm (by rintro (h | h) <;> exact absurd h (by decide)) (List.mem_of_mem_head? hd)

theorem IsFenceChar.not_blank (h : IsFenceChar c) : isBlank c = false := by
  rcases h with rfl | rfl <;> rfl

theorem endsBlock_iff (hm : IsMarker marker) : endsBlock marker l = true ↔
    ∃ indent run rest, l = indent ++ (run ++ rest) ∧ IsIndent indent ∧ IsEndRun marker run ∧
      ∀ c ∈ rest, isLineEndBlank c = true := by
  obtain ⟨c, marker, rfl⟩ := List.exists_cons_of_ne_nil hm.ne_nil
  have hmem : ∀ d, d ∈ c :: marker ↔ d = c :=
    fun d => ⟨fun hd => hm.eq_of_mem hd List.mem_cons_self, fun hd => hd ▸ List.mem_cons_self⟩
  unfold endsBlock
  constructor
  · intro h
    cases hi : indented? l with
    | none =>
      rw [hi] at h
      cases h
    | some t =>
      obtain ⟨indent, hindent, rfl, -⟩ := indented?_eq_some_iff.mp hi
      obtain ⟨run, rest, rfl, hrun, hrest⟩ := Text.exists_run (· = c) t
      rw [hi] at h
      dsimp only at h
      rw [Text.takeWhile_run hrun hrest, Text.dropWhile_run hrun hrest, Bool.and_eq_true, decide_eq_true_eq,
        List.all_eq_true] at h
      exact ⟨indent, run, rest, rfl, hindent, ⟨h.1, fun d hd => (hmem d).mpr (by simpa using hrun d hd)⟩, h.2⟩
  · rintro ⟨indent, run, rest, rfl, hindent, hend, hrest⟩
    have hrun : ∀ d ∈ run, decide (d = c) = true := fun d hd => by simpa using (hmem d).mp (hend.2 d hd)
    have hfence : IsFenceChar c := hm.isFenceChar List.mem_cons_self
    have hnext : ∀ d ∈ rest.head?, decide (d = c) = false := by
      intro d hd
      have hblank := hrest d (List.mem_of_mem_head? hd)
      rw [decide_eq_false_iff_not]
      rintro rfl
      rcases hfence with rfl | rfl <;> exact absurd hblank (by decide)
    rw [indented?_eq_some_iff.mpr ⟨indent, hindent, rfl, hend.not_space hm rest⟩]
    dsimp only
    rw [Text.takeWhile_run hrun hnext, Text.dropWhile_run hrun hnext, Bool.and_eq_true, decide_eq_true_eq,
      List.all_eq_true]
    exact ⟨hend.1, hrest⟩

theorem isSome_indented?_iff : (indented? l).isSome = true ↔ (l.takeWhile (· = ' ')).length ≤ 3 := by
  have hlen : l.length - (l.dropWhile (· = ' ')).length = (l.takeWhile (· = ' ')).length := by
    have := congrArg List.length (List.takeWhile_append_dropWhile (p := (· = ' ')) (l := l))
    rw [List.length_append] at this
    omega
  unfold indented?
  dsimp only
  rw [hlen]
  split
  · exact iff_of_true rfl ‹_›
  · exact iff_of_false (by simp) ‹_›

theorem closesFence_iff (hm : IsMarker marker) : closesFence marker l = true ↔
    ∃ before run rest, l = before ++ (run ++ rest) ∧ (∀ c ∈ before, isBlank c = true) ∧ IsEndRun marker run ∧
      (∀ c ∈ rest, isBlank c = true) ∧ (l.takeWhile (· = ' ')).length ≤ 3 := by
  obtain ⟨c, marker, rfl⟩ := List.exists_cons_of_ne_nil hm.ne_nil
  have hmem : ∀ d, d ∈ c :: marker ↔ d = c :=
    fun d => ⟨fun hd => hm.eq_of_mem hd List.mem_cons_self, fun hd => hd ▸ List.mem_cons_self⟩
  simp only [closesFence, Bool.and_eq_true, Bool.not_eq_true', List.isEmpty_eq_false_iff, List.all_eq_true,
    decide_eq_true_eq, List.head?_cons, Option.some_inj, isSome_indented?_iff]
  constructor
  · rintro ⟨⟨⟨-, hall⟩, hlen⟩, hindent⟩
    obtain ⟨b, e, hl, hb, he⟩ := Text.exists_strip l
    exact ⟨b, l.strip, e, hl, hb, ⟨hlen, fun d hd => (hmem d).mpr (hall d hd)⟩, he, hindent⟩
  · rintro ⟨b, run, e, hl, hb, hend, he, hindent⟩
    have hrun : ∀ d ∈ run, isBlank d = false := fun d hd => (hm.isFenceChar (hend.2 d hd)).not_blank
    have hstrip : l.strip = run := by
      rw [hl]
      exact Text.trim_run hb he (fun d hd => hrun d (List.mem_of_mem_head? hd))
        fun d hd => hrun d (List.mem_of_mem_getLast? hd)
    rw [hstrip]
    exact ⟨⟨⟨hend.ne_nil hm, fun d hd => (hmem d).mp (hend.2 d hd)⟩, hend.1⟩, hindent⟩

/-! A carriage return at the end of a line -/

theorem exists_of_concat_eq_append (h : l ++ [c] = x ++ y) (hc : c ∉ x) : ∃ s, y = s ++ [c] ∧ l = x ++ s := by
  rcases List.append_eq_append_iff.mp h with ⟨a, rfl, ha⟩ | ⟨s, rfl, rfl⟩
  · cases a with
    | nil => exact ⟨[], ha.symm, by simp⟩
    | cons d a =>
      obtain ⟨rfl, -⟩ := List.cons.inj ha
      exact (hc (by simp)).elim
  · exact ⟨s, rfl, rfl⟩

theorem IsIndent.no_return (h : IsIndent x) : '\r' ∉ x := fun hx => absurd (h.1 _ hx) (by decide)

theorem not_isFenceChar_return : ¬ IsFenceChar '\r' := by
  rintro (h | h) <;> exact absurd h (by decide)

theorem endsBlock_concat (hm : IsMarker marker) (l : Text) :
    endsBlock marker (l ++ ['\r']) = endsBlock marker l := by
  rw [Bool.eq_iff_iff, endsBlock_iff hm, endsBlock_iff hm]
  constructor
  · rintro ⟨indent, run, rest, hl, hindent, hend, hrest⟩
    rw [← List.append_assoc] at hl
    have hno : '\r' ∉ indent ++ run := by
      rw [List.mem_append, not_or]
      exact ⟨hindent.no_return, hend.not_mem hm not_isFenceChar_return⟩
    obtain ⟨s, rfl, rfl⟩ := exists_of_concat_eq_append hl hno
    exact ⟨indent, run, s, by simp, hindent, hend, fun d hd => hrest d (List.mem_append_left _ hd)⟩
  · rintro ⟨indent, run, rest, rfl, hindent, hend, hrest⟩
    refine ⟨indent, run, rest ++ ['\r'], by simp, hindent, hend, fun d hd => ?_⟩
    rcases List.mem_append.mp hd with hd | hd
    · exact hrest d hd
    · rw [List.mem_singleton.mp hd]
      rfl

theorem fenceOpening?_concat (l : Text) : fenceOpening? (l ++ ['\r']) = fenceOpening? l := by
  have hblank : ∀ c ∈ (['\r'] : Text), isBlank c = true := List.forall_mem_singleton.mpr rfl
  refine Option.ext fun ⟨marker, info⟩ => ?_
  rw [fenceOpening?_eq_some_iff, fenceOpening?_eq_some_iff]
  constructor
  · rintro ⟨indent, rest, hl, hi, hm, hrest, hinfo, hallow⟩
    rw [← List.append_assoc] at hl
    have hno : '\r' ∉ indent ++ marker := by
      rw [List.mem_append, not_or]
      exact ⟨hi.no_return, fun h => not_isFenceChar_return (hm.isFenceChar h)⟩
    obtain ⟨s, rfl, rfl⟩ := exists_of_concat_eq_append hl hno
    refine ⟨indent, s, by simp, hi, hm, fun c hc => hrest c ?_, ?_, hallow⟩
    · rw [List.head?_append, hc]
      rfl
    · rw [hinfo, Text.strip, Text.trim_append hblank, Text.strip]
  · rintro ⟨indent, rest, rfl, hi, hm, hrest, hinfo, hallow⟩
    refine ⟨indent, rest ++ ['\r'], by simp, hi, hm, fun c hc => ?_, ?_, hallow⟩
    · cases rest with
      | nil =>
        obtain rfl : '\r' = c := Option.mem_some_iff.mp hc
        exact fun h => not_isFenceChar_return (hm.isFenceChar h)
      | cons d rest => exact hrest c hc
    · rw [hinfo, Text.strip, Text.strip, Text.trim_append hblank]

theorem endsBlock_dropFinal (hm : IsMarker marker) (r : Text) :
    endsBlock marker (dropFinal '\r' r) = endsBlock marker r := by
  rcases Text.eq_or_eq_concat_dropFinal '\r' r with h | h
  · rw [← h]
  · rw [h, Text.dropFinal_concat, endsBlock_concat hm]

theorem fenceOpening?_dropFinal (r : Text) : fenceOpening? (dropFinal '\r' r) = fenceOpening? r := by
  rcases Text.eq_or_eq_concat_dropFinal '\r' r with h | h
  · rw [← h]
  · rw [h, Text.dropFinal_concat, fenceOpening?_concat]

end Runbook.Markup
