import Runbook.Proofs.Text.Offset
import Runbook.Proofs.Text.Substitution
import Runbook.Report.Basic

/-!
Tables as they are read: one line for each row, and in each line one cell between any two bars that do not follow a
backslash. Rows stay rows where no cell holds a line feed or a bar of that kind.
-/
namespace Runbook.Report

variable {before : Option Char} {t : Text} {cells : List Text} {n : Nat}

open Text (ended join lastBefore)

/-- How many bars part the cells of a line: those that do not follow a backslash. -/
def boundaries : (before : Option Char) → Text → Nat
  | _, [] => 0
  | before, c :: t => (if c = '|' ∧ before ≠ some '\\' then 1 else 0) + boundaries (some c) t

/-- A line of so many cells: it begins and ends with a boundary, and a boundary stands between any two cells. -/
structure IsRow (n : Nat) (line : Text) : Prop where
  feed : '\n' ∉ line
  first : line.head? = some '|'
  last : ∃ inner, line = inner ++ ['|'] ∧ inner.getLast? ≠ some '\\'
  boundaries : boundaries none line = n + 1

/-- So many rows of so many cells each, and nothing else. -/
def IsTable (rows cells : Nat) (t : Text) : Prop :=
  ∃ ls, t = ended ls ∧ ls.length = rows ∧ ∀ l ∈ ls, IsRow cells l

/-- A text that neither ends a line nor parts a cell. -/
def FitsCell (t : Text) : Prop := '\n' ∉ t ∧ boundaries none t = 0

instance (t : Text) : Decidable (FitsCell t) := inferInstanceAs (Decidable (_ ∧ _))

theorem boundaries_append (before : Option Char) (s t : Text) :
    boundaries before (s ++ t) = boundaries before s + boundaries (lastBefore before s) t := by
  induction s generalizing before with
  | nil => exact (Nat.zero_add _).symm
  | cons c s ih => rw [List.cons_append, boundaries, boundaries, ih, Text.lastBefore_cons, Nat.add_assoc]

/-- Only a backslash before a text makes a difference. -/
theorem boundaries_eq (h : before ≠ some '\\') (t : Text) : boundaries before t = boundaries none t := by
  cases t with
  | nil => rfl
  | cons c t => simp [boundaries, h]

theorem boundaries_of_no_bar (h : '|' ∉ t) (before : Option Char) : boundaries before t = 0 := by
  induction t generalizing before with
  | nil => rfl
  | cons c t ih =>
    rw [List.mem_cons, not_or] at h
    rw [boundaries, ih h.2, if_neg fun hc => h.1 hc.1.symm]

theorem fitsCell_of_forall (h : ∀ c ∈ t, c ≠ '\n' ∧ c ≠ '|') : FitsCell t :=
  ⟨fun hm => (h _ hm).1 rfl, boundaries_of_no_bar (fun hm => (h _ hm).2 rfl) none⟩

/-! Cells that the report makes -/

theorem boundaries_escapeBars (before : Option Char) (t : Text) : boundaries before (escapeBars t) = 0 := by
  induction t generalizing before with
  | nil => rfl
  | cons c t ih =>
    have hcons : escapeBars (c :: t) = (if c = '|' then "\\|".toList else [c]) ++ escapeBars t := List.flatMap_cons
    rw [hcons, boundaries_append, ih, Nat.add_zero]
    split
    · rfl
    · rename_i hc
      exact boundaries_of_no_bar (by simpa using Ne.symm hc) before

theorem feed_mem_escapeBars : '\n' ∈ escapeBars t ↔ '\n' ∈ t := by
  rw [escapeBars, List.mem_flatMap]
  constructor
  · rintro ⟨c, hc, hfeed⟩
    split at hfeed
    · exact absurd hfeed (by decide)
    · rwa [List.mem_singleton.mp hfeed]
  · exact fun h => ⟨'\n', h, by simp⟩

/-- With its bars escaped a text fits a cell unless it has a line feed. -/
theorem fitsCell_escapeBars : FitsCell (escapeBars t) ↔ '\n' ∉ t := by
  rw [FitsCell, feed_mem_escapeBars, boundaries_escapeBars]
  exact and_iff_left rfl

theorem fitsCell_code : FitsCell (code t) ↔ FitsCell t := by
  have hopening : lastBefore none "\x60".toList ≠ some '\\' := by decide
  have hfeed : '\n' ∈ code t ↔ '\n' ∈ t := by simp [code]
  have hcount : boundaries none (code t) = boundaries none t := by
    have hback : '|' ∉ "\x60".toList := by decide
    rw [code, boundaries_append, boundaries_append, boundaries_eq hopening, boundaries_of_no_bar hback,
      boundaries_of_no_bar hback, Nat.zero_add, Nat.add_zero]
  rw [FitsCell, FitsCell, hfeed, hcount]

/-! Rows -/

/-- A row without its end. -/
def rowLine (cells : List Text) : Text := "| " ++ join " | " cells ++ " |"

theorem row_eq (cells : List Text) : row cells = rowLine cells ++ ['\n'] := by
  have hend : (" |\n" : Text) = " |" ++ ['\n'] := by decide
  rw [row, rowLine, hend, List.append_assoc, List.append_assoc, List.append_assoc]

theorem feed_mem_rowLine : '\n' ∈ rowLine cells ↔ ∃ c ∈ cells, '\n' ∈ c := by
  have hbar : '\n' ∉ " | ".toList := by decide
  have hjoin : '\n' ∈ join " | " cells ↔ ∃ c ∈ cells, '\n' ∈ c := by
    induction cells with
    | nil => simp [join]
    | cons c cells ih =>
      by_cases hnil : cells = []
      · simp [hnil, join]
      · rw [Text.join_cons hnil, List.mem_append, List.mem_append, or_iff_left hbar, ih, List.exists_mem_cons_iff]
  have hstart : '\n' ∉ "| ".toList := by decide
  have hend : '\n' ∉ " |".toList := by decide
  rw [rowLine, List.mem_append, List.mem_append, or_iff_right hstart, or_iff_left hend, hjoin]

/-- Between the cells there is one boundary fewer than there are cells, and more only where a cell has some of its own. -/
theorem boundaries_join (h : before ≠ some '\\') (hcells : cells ≠ []) :
    cells.length ≤ boundaries before (join " | " cells) + 1 ∧
      (boundaries before (join " | " cells) + 1 = cells.length ↔ ∀ c ∈ cells, boundaries none c = 0) := by
  induction cells generalizing before with
  | nil => exact (hcells rfl).elim
  | cons c cells ih =>
    rw [List.forall_mem_cons]
    by_cases hnil : cells = []
    · subst hnil
      simp [join, boundaries_eq h]
    · have hspace : lastBefore before (c ++ " | ") = some ' ' := by
        rw [Text.lastBefore_append]
        rfl
      have hbar (b : Option Char) : boundaries b " | " = 1 := by
        cases b <;> rfl
      have hcount : boundaries before (join " | " (c :: cells)) =
          boundaries none c + 1 + boundaries (some ' ') (join " | " cells) := by
        rw [Text.join_cons hnil, boundaries_append, hspace, boundaries_append, hbar, boundaries_eq h]
      obtain ⟨hle, hrest⟩ : cells.length ≤ boundaries (some ' ') (join " | " cells) + 1 ∧
          (boundaries (some ' ') (join " | " cells) + 1 = cells.length ↔ ∀ c ∈ cells, boundaries none c = 0) :=
        ih (by decide) hnil
      rw [hcount, ← hrest, List.length_cons]
      omega

theorem boundaries_rowLine_iff (hcells : cells ≠ []) :
    boundaries none (rowLine cells) = cells.length + 1 ↔ ∀ c ∈ cells, boundaries none c = 0 := by
  have hopening : lastBefore none "| ".toList ≠ some '\\' := by decide
  have hend (b : Option Char) : boundaries b " |" = 1 := by
    cases b <;> rfl
  have hstart : boundaries none "| " = 1 := rfl
  obtain ⟨hle, hjoin⟩ := boundaries_join hopening hcells
  rw [rowLine, boundaries_append, boundaries_append, hend, hstart, ← hjoin]
  omega

/-- A line of cells is a row of as many cells exactly when each of them fits. -/
theorem isRow_rowLine_iff (hcells : cells ≠ []) : IsRow cells.length (rowLine cells) ↔ ∀ c ∈ cells, FitsCell c := by
  constructor
  · intro hrow c hc
    refine ⟨fun hfeed => hrow.feed (feed_mem_rowLine.mpr ⟨c, hc, hfeed⟩), ?_⟩
    exact (boundaries_rowLine_iff hcells).mp hrow.boundaries c hc
  · intro hfits
    refine ⟨?_, rfl, ⟨"| " ++ join " | " cells ++ [' '], ?_, ?_⟩, ?_⟩
    · rw [feed_mem_rowLine]
      rintro ⟨c, hc, hfeed⟩
      exact (hfits c hc).1 hfeed
    · rw [rowLine, List.append_assoc _ [' ']]
      rfl
    · rw [List.getLast?_concat]
      decide
    · exact (boundaries_rowLine_iff hcells).mpr fun c hc => (hfits c hc).2

/-- Rows of cells are a table of as many rows exactly when every cell fits. -/
theorem isTable_rows_iff {α : Type} {f : α → List Text} {as : List α} (hn : n ≠ 0) (hf : ∀ a ∈ as, (f a).length = n) :
    IsTable as.length n (as.flatMap fun a => row (f a)) ↔ ∀ a ∈ as, ∀ c ∈ f a, FitsCell c := by
  have hrows : (as.flatMap fun a => row (f a)) = ended (as.map fun a => rowLine (f a)) := by
    simp only [ended, List.flatMap_map, row_eq]
  have hone : ∀ a ∈ as, (IsRow n (rowLine (f a)) ↔ ∀ c ∈ f a, FitsCell c) := by
    intro a ha
    have hne : f a ≠ [] := List.ne_nil_of_length_pos (by rw [hf a ha]; exact Nat.pos_of_ne_zero hn)
    rw [← isRow_rowLine_iff hne, hf a ha]
  rw [hrows]
  constructor
  · rintro ⟨ls, hended, hlength, hls⟩ a ha
    -- with as many lines as there are rows, no line feed is left for the cells
    obtain rfl := Text.eq_of_ended_eq (fun l hl => (hls l hl).feed) (by rw [hlength, List.length_map]) hended
    exact (hone a ha).mp (hls _ (List.mem_map_of_mem ha))
  · intro hfits
    exact ⟨_, rfl, List.length_map .., List.forall_mem_map.mpr fun a ha => (hone a ha).mpr (hfits a ha)⟩

end Runbook.Report
