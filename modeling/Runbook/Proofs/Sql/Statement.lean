import Runbook.Proofs.Sql.Lexeme

/-!
What a SQL text loses when it is split into statements: white space, its terminators, and a last stretch in which nothing
stands but white space and comments.
-/
namespace Runbook.Sql

open Text (isBlank isRowEnd rows strip)

variable {t x r e b l : Text} {ls : List Text} {c : Char}

/-! Rows -/

theorem isBlank_of_isRowEnd (h : isRowEnd c = true) : isBlank c = true := by
  simp only [isRowEnd, isBlank, Bool.or_eq_true, Bool.and_eq_true, decide_eq_true_eq] at h ⊢
  omega

theorem rows_cons (hc : isRowEnd c = false) (t : Text) :
    rows (c :: t) = match rows t with
      | [] => [[c]]
      | l :: ls => (c :: l) :: ls := by
  have hcr : c ≠ '\r' := by
    rintro rfl
    cases hc
  rw [rows]
  · exact if_neg (by simp [hc])
  · intro u hu
    exact (hcr hu).elim

theorem rows_rowEnd (hc : isRowEnd c = true) (ht : c = '\r' → t.head? ≠ some '\n') : rows (c :: t) = [] :: rows t := by
  rw [rows, if_pos hc]
  rintro u hu rfl
  exact ht hu rfl

theorem rows_newline (t : Text) : rows ('\n' :: t) = [] :: rows t := by
  apply rows_rowEnd rfl
  intro h
  cases h

/-- Both characters of a line end together end one row. -/
theorem rows_return (t : Text) : rows ('\r' :: '\n' :: t) = rows ('\n' :: t) := by
  rw [rows_newline, rows]

theorem prefix_of_rows (h : rows t = l :: ls) : l <+: t := by
  fun_induction rows t generalizing l ls with
  | case1 => cases h
  | case2 t ih =>
    cases h
    exact List.nil_prefix
  | case3 c t _ hc ih =>
    cases h
    exact List.nil_prefix
  | case4 c t _ hc hnil ih =>
    cases h
    exact List.cons_prefix_cons.mpr ⟨rfl, List.nil_prefix⟩
  | case5 c t _ hc l' ls' hrows ih =>
    cases h
    exact List.cons_prefix_cons.mpr ⟨rfl, ih hrows⟩

/-- A line feed ends a row whatever stands before it. -/
theorem exists_rows_append (x r : Text) : ∃ l ls, rows (x ++ '\n' :: r) = l :: ls ++ rows r := by
  induction x with
  | nil => exact ⟨[], [], rows_newline r⟩
  | cons c x ih =>
    obtain ⟨l, ls, hrows⟩ := ih
    rw [List.cons_append]
    cases hc : isRowEnd c with
    | true =>
      by_cases hbreak : c = '\r' ∧ (x ++ '\n' :: r).head? = some '\n'
      · obtain ⟨rfl, hhead⟩ := hbreak
        obtain ⟨u, hu⟩ := List.head?_eq_some_iff.mp hhead
        rw [hu, rows_return, ← hu]
        exact ⟨l, ls, hrows⟩
      · rw [rows_rowEnd hc fun hcr hhead => hbreak ⟨hcr, hhead⟩, hrows]
        exact ⟨[], l :: ls, rfl⟩
    | false =>
      rw [rows_cons hc, hrows]
      exact ⟨c :: l, ls, rfl⟩

/-! Texts of which every row is blank or a comment -/

theorem strip_cons_of_isBlank (hc : isBlank c = true) (t : Text) : strip (c :: t) = strip t := by
  rw [strip, Text.trim, List.dropWhile_cons_of_pos hc]
  rfl

theorem isOnlyComments_iff : isOnlyComments t = true ↔ ∀ row ∈ rows t, strip row = [] ∨ ("--" : Text) <+: strip row := by
  simp [isOnlyComments, Text.startsWith_iff]

theorem isOnlyComments_tail (hc : isBlank c = true) (h : isOnlyComments (c :: t) = true) : isOnlyComments t = true := by
  rw [isOnlyComments_iff] at h ⊢
  cases hend : isRowEnd c with
  | true =>
    by_cases hbreak : c = '\r' ∧ t.head? = some '\n'
    · obtain ⟨rfl, hhead⟩ := hbreak
      obtain ⟨u, rfl⟩ := List.head?_eq_some_iff.mp hhead
      rwa [rows_return] at h
    · rw [rows_rowEnd hend fun hcr hhead => hbreak ⟨hcr, hhead⟩] at h
      exact fun row hrow => h row (List.mem_cons_of_mem _ hrow)
  | false =>
    rw [rows_cons hend] at h
    cases hrows : rows t with
    | nil => simp
    | cons l ls =>
      rw [hrows] at h
      obtain ⟨hl, hls⟩ := List.forall_mem_cons.mp h
      rw [strip_cons_of_isBlank hc] at hl
      exact List.forall_mem_cons.mpr ⟨hl, hls⟩

theorem isOnlyComments_after_newline (h : isOnlyComments (x ++ '\n' :: r) = true) : isOnlyComments r = true := by
  rw [isOnlyComments_iff] at h ⊢
  obtain ⟨l, ls, hrows⟩ := exists_rows_append x r
  intro row hrow
  apply h
  rw [hrows]
  exact List.mem_append_right _ hrow

/-- What is not blank begins with two hyphens. -/
theorem isOnlyComments_head (hc : isBlank c = false) (h : isOnlyComments (c :: t) = true) : c = '-' ∧ t.head? = some '-' := by
  rw [isOnlyComments_iff] at h
  have hend : isRowEnd c = false := by
    cases hend : isRowEnd c with
    | true => rw [isBlank_of_isRowEnd hend] at hc; cases hc
    | false => rfl
  obtain ⟨w, ls, hrows, hw⟩ : ∃ w ls, rows (c :: t) = (c :: w) :: ls ∧ w <+: t := by
    rw [rows_cons hend]
    cases hrows : rows t with
    | nil => exact ⟨[], [], rfl, List.nil_prefix⟩
    | cons l ls => exact ⟨l, ls, rfl, prefix_of_rows hrows⟩
  obtain ⟨b, e, hrow, hb, he⟩ := Text.exists_strip (c :: w)
  have hrest := h (c :: w) (hrows ▸ List.mem_cons_self)
  have hnone : b = [] := by
    cases b with
    | nil => rfl
    | cons d b =>
      obtain ⟨rfl, -⟩ := List.cons.inj hrow
      rw [hb c List.mem_cons_self] at hc
      cases hc
  subst hnone
  rcases hrest with hempty | ⟨s, hs⟩
  · rw [hempty] at hrow
    rw [he c (by rw [List.nil_append, List.nil_append] at hrow; rw [← hrow]; exact List.mem_cons_self)] at hc
    cases hc
  · rw [← hs] at hrow
    obtain ⟨rfl, hw'⟩ := List.cons.inj hrow
    obtain ⟨u, rfl⟩ := hw
    rw [hw']
    exact ⟨rfl, rfl⟩

/-! Their lexemes -/

theorem lexemes_cons_of_isBlank (h : isBlank c = true) (t : Text) : lexemes (c :: t) = .other c :: lexemes t := by
  apply lexemes_other
  · rintro (rfl | rfl) <;> cases h
  · rintro ⟨rfl, -⟩
    cases h

theorem isCommentary_append (hb : ∀ c ∈ b, isBlank c = true) (h : ∀ l ∈ lexemes t, l.isCommentary = true) :
    ∀ l ∈ lexemes (b ++ t), l.isCommentary = true := by
  induction b with
  | nil => exact h
  | cons c b ih =>
    rw [List.forall_mem_cons] at hb
    rw [List.cons_append, lexemes_cons_of_isBlank hb.1, List.forall_mem_cons]
    exact ⟨hb.1, ih hb.2⟩

theorem isCommentary_of_blank (hb : ∀ c ∈ b, isBlank c = true) : ∀ l ∈ lexemes b, l.isCommentary = true := by
  have happend := isCommentary_append (t := []) hb (by simp [lexemes])
  rwa [List.append_nil] at happend

/-- Rows end at more characters than comments do, so a comment may hold rows that are comments again. -/
theorem isCommentary_of_isOnlyComments (h : isOnlyComments r = true) (he : ∀ c ∈ e, isBlank c = true) :
    ∀ l ∈ lexemes (r ++ e), l.isCommentary = true := by
  induction hn : r.length using Nat.strongRecOn generalizing r e with
  | ind n ih =>
    cases r with
    | nil => exact isCommentary_of_blank he
    | cons c r =>
      rw [List.length_cons] at hn
      cases hc : isBlank c with
      | true =>
        rw [List.cons_append, lexemes_cons_of_isBlank hc, List.forall_mem_cons]
        exact ⟨hc, ih r.length (by omega) (isOnlyComments_tail hc h) he rfl⟩
      | false =>
        obtain ⟨rfl, hhead⟩ := isOnlyComments_head hc h
        obtain ⟨r, rfl⟩ := List.head?_eq_some_iff.mp hhead
        rw [List.cons_append, List.cons_append, lexemes_comment, List.forall_mem_cons]
        refine ⟨rfl, ?_⟩
        by_cases hr : '\n' ∈ r
        · obtain ⟨a, s, rfl, ha⟩ := List.eq_append_cons_of_mem hr
          rw [List.append_assoc, List.cons_append, through_append_cons ha]
          refine ih s.length ?_ (isOnlyComments_after_newline (x := '-' :: '-' :: a) h) he rfl
          simp only [List.length_cons, List.length_append] at hn
          omega
        · -- the comment takes the blanks at the end along, up to their first line feed
          by_cases hline : '\n' ∈ e
          · obtain ⟨a, s, rfl, ha⟩ := List.eq_append_cons_of_mem hline
            rw [← List.append_assoc, through_append_cons (by simp [hr, ha])]
            exact isCommentary_of_blank fun c hc => he c (by simp [hc])
          · rw [through_of_not_mem (by simp [hr, hline])]
            simp [lexemes]

/-! Statements -/

/-- A text without its white space. -/
def solid (t : Text) : Text := t.filter (!isBlank ·)

theorem solid_append (t r : Text) : solid (t ++ r) = solid t ++ solid r := List.filter_append ..

theorem solid_of_blank (hb : ∀ c ∈ b, isBlank c = true) : solid b = [] := by
  rw [solid, List.filter_eq_nil_iff]
  intro c hc
  simp [hb c hc]

theorem solid_strip (t : Text) : solid (strip t) = solid t := by
  obtain ⟨b, e, ht, hb, he⟩ := Text.exists_strip t
  conv_rhs => rw [ht]
  rw [solid_append, solid_append, solid_of_blank hb, solid_of_blank he, List.nil_append, List.append_nil]

/-- What stands in runs of lexemes, without white space around it; nothing for a run of white space. -/
def bodies (runs : List (List Lexeme)) : List Text := (runs.map fun run => strip (sourceOf run)).filter (· ≠ [])

variable {run : List Lexeme} {runs : List (List Lexeme)}

theorem bodies_cons (h : strip (sourceOf run) ≠ []) : bodies (run :: runs) = strip (sourceOf run) :: bodies runs := by
  rw [bodies, List.map_cons, List.filter_cons_of_pos (by simpa using h)]
  rfl

theorem bodies_cons_of_blank (h : strip (sourceOf run) = []) : bodies (run :: runs) = bodies runs := by
  rw [bodies, List.map_cons, List.filter_cons_of_neg (by simpa using h)]
  rfl

theorem filterMap_ended? (runs : List (List Lexeme)) :
    (runs.map sourceOf).filterMap ended? = (bodies runs).map (· ++ [';']) := by
  induction runs with
  | nil => rfl
  | cons run runs ih =>
    rw [List.map_cons]
    by_cases hrun : strip (sourceOf run) = []
    · have hnone : ended? (sourceOf run) = none := if_pos (List.isEmpty_iff.mpr hrun)
      rw [List.filterMap_cons_none hnone, ih, bodies_cons_of_blank hrun]
    · have hsome : ended? (sourceOf run) = some (strip (sourceOf run) ++ [';']) :=
        if_neg fun h => hrun (List.isEmpty_iff.mp h)
      rw [List.filterMap_cons_some hsome, ih, bodies_cons hrun, List.map_cons]

theorem solid_bodies (runs : List (List Lexeme)) : solid (bodies runs).flatten = solid (sourceOf runs.flatten) := by
  induction runs with
  | nil => rfl
  | cons run runs ih =>
    rw [List.flatten_cons, sourceOf_append, solid_append, ← ih, ← solid_strip (sourceOf run)]
    by_cases hrun : strip (sourceOf run) = []
    · rw [bodies_cons_of_blank hrun, hrun]
      rfl
    · rw [bodies_cons hrun, List.flatten_cons, solid_append]

/-- A last stretch that makes no statement: it is blank, or every row of it is blank or a comment. -/
def IsDropped (last : List Lexeme) : Prop :=
  strip (sourceOf last) = [] ∨ isOnlyComments (strip (sourceOf last)) = true

theorem isCommentary_of_isDropped {last ls : List Lexeme} (h : IsDropped last) (hlast : lexemes t = ls ++ last) :
    ∀ l ∈ last, l.isCommentary = true := by
  have honly : isOnlyComments (strip (sourceOf last)) = true := by
    rcases h with h | h
    · rw [h]
      rfl
    · exact h
  obtain ⟨b, e, hsource, hb, he⟩ := Text.exists_strip (sourceOf last)
  have hall := isCommentary_append hb (isCommentary_of_isOnlyComments honly he)
  rwa [← hsource, lexemes_sourceOf_suffix hlast] at hall

/-- The lexemes of a text, cut at its terminators, are its statements: what stands in each run that a terminator ends, with
a semicolon, and what stands in the last run, which is dropped only if it holds nothing but white space and comments. No
other character is lost or moved. -/
theorem statements_of_lexemes (t : Text) : sourceOf (lexemes t) = t ∧ ∃ ended last, IsCut (lexemes t) ended last ∧
    (¬ IsDropped last → statements t = (bodies ended).map (· ++ [';']) ++ [strip (sourceOf last)] ∧
      solid (bodies ended ++ [strip (sourceOf last)]).flatten = solid (sourceOf (ended.flatten ++ last))) ∧
    (IsDropped last → statements t = (bodies ended).map (· ++ [';']) ∧
      solid (bodies ended).flatten = solid (sourceOf ended.flatten) ∧ ∀ l ∈ last, l.isCommentary = true) := by
  refine ⟨sourceOf_lexemes t, ?_⟩
  obtain ⟨ended, last, hcut, hstretches⟩ := exists_isCut t
  have hstatements : statements t = (bodies ended).map (· ++ [';']) ++ (last? (sourceOf last)).toList := by
    rw [statements, hstretches, filterMap_ended?]
  refine ⟨ended, last, hcut, fun hkept => ?_, fun hdropped => ?_⟩
  · have hlast : last? (sourceOf last) = some (strip (sourceOf last)) := by
      apply if_neg
      intro h
      exact hkept (h.imp_left List.isEmpty_iff.mp)
    refine ⟨by rw [hstatements, hlast]; rfl, ?_⟩
    rw [List.flatten_append, solid_append, solid_bodies, List.flatten_singleton, solid_strip, sourceOf_append, solid_append]
  · have hlast : last? (sourceOf last) = none := by
      apply if_pos
      exact hdropped.imp_left List.isEmpty_iff.mpr
    refine ⟨by rw [hstatements, hlast]; simp, solid_bodies ended, ?_⟩
    exact isCommentary_of_isDropped hdropped hcut.joined

-- a comment in which another row begins is kept, though it is one lexeme
example : statements "SELECT ';'; -- a\u2028b" = ["SELECT ';';".toList, "-- a\u2028b".toList] := by decide +kernel

end Runbook.Sql
