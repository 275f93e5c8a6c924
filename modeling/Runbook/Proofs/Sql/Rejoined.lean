import Runbook.Proofs.Sql.Statement
import Runbook.Proofs.Text.Lines

/-!
Statements put on lines and split again. The semicolon that is kept with a statement ends it there too, unless a comment
stands right before it: the line feed that ended the comment is gone, and the semicolon is part of the comment.
-/
namespace Runbook.Sql

open Text (isBlank strip joinLines)

variable {t u r x y b e : Text} {c : Char} {l : Lexeme} {run ls ms : List Lexeme} {mode : Mode} {current : Text}

/-! Texts that the next semicolon ends, and texts that it does not end -/

def Lexeme.IsSpace (l : Lexeme) : Prop := ∃ c, l = .other c ∧ isBlank c = true

/-- The last lexeme that is not white space is a comment. -/
def EndsInComment (run : List Lexeme) : Prop := ∃ ls s e, run = ls ++ .comment s :: e ∧ ∀ l ∈ e, l.IsSpace

theorem endsInComment_cons_iff :
    EndsInComment (l :: run) ↔ EndsInComment run ∨ (∃ s, l = .comment s) ∧ ∀ m ∈ run, m.IsSpace := by
  constructor
  · rintro ⟨ls, s, e, heq, he⟩
    cases ls with
    | nil =>
      obtain ⟨rfl, rfl⟩ := List.cons.inj heq
      exact .inr ⟨⟨s, rfl⟩, he⟩
    | cons m ls =>
      obtain ⟨-, rfl⟩ := List.cons.inj heq
      exact .inl ⟨ls, s, e, rfl, he⟩
  · rintro (⟨ls, s, e, rfl, he⟩ | ⟨⟨s, rfl⟩, hrun⟩)
    · exact ⟨l :: ls, s, e, rfl, he⟩
    · exact ⟨[], s, run, rfl, hrun⟩

theorem endsInComment_cons_of_ne (h : ∀ s, l ≠ .comment s) : EndsInComment (l :: run) ↔ EndsInComment run := by
  rw [endsInComment_cons_iff, or_iff_left]
  rintro ⟨⟨s, hs⟩, -⟩
  exact h s hs

/-- A semicolon after the text is a terminator, the first one. -/
def Closes (y : Text) : Prop :=
  ∃ ms, sourceOf ms = y ∧ Lexeme.terminator ∉ ms ∧ ∀ r, lexemes (y ++ ';' :: r) = ms ++ .terminator :: lexemes r

/-- A semicolon after the text belongs to a comment that goes on to the end of the line. -/
def Swallows (y : Text) : Prop :=
  ∃ ms z, sourceOf ms ++ z = y ∧ Lexeme.terminator ∉ ms ∧
    ∀ r, lexemes (y ++ ';' :: r) = ms ++ .comment (z ++ ';' :: (through '\n' r).1) :: lexemes (through '\n' r).2

/-- A lexeme before a rest is read as one, whatever stands after the rest as long as it does not begin with a hyphen. -/
structure IsFirst (l : Lexeme) (rest : Text) : Prop where
  solid : l.source ≠ []
  inside : l ≠ .terminator
  reads : ∀ s, (s.head? = some '-' → rest.head? = some '-') → lexemes (l.source ++ s) = l :: lexemes s

theorem IsFirst.append (h : IsFirst l y) (hr : r.head? ≠ some '-') : IsFirst l (y ++ r) where
  solid := h.solid
  inside := h.inside
  reads := by
    intro s hs
    apply h.reads
    intro hhead
    cases y with
    | nil => exact (hr (hs hhead)).elim
    | cons c y => exact hs hhead

theorem IsFirst.reads_append (h : IsFirst l y) (hr : r.head? ≠ some '-') :
    lexemes (l.source ++ (y ++ r)) = l :: lexemes (y ++ r) := (h.append hr).reads _ id

theorem Closes.push (h : Closes y) (hl : IsFirst l y) : Closes (l.source ++ y) := by
  obtain ⟨ms, rfl, hms, hall⟩ := h
  refine ⟨l :: ms, rfl, by simp [hl.inside.symm, hms], fun r => ?_⟩
  rw [List.append_assoc, hl.reads_append (by simp), hall, List.cons_append]

theorem Swallows.push (h : Swallows y) (hl : IsFirst l y) : Swallows (l.source ++ y) := by
  obtain ⟨ms, z, rfl, hms, hall⟩ := h
  refine ⟨l :: ms, z, by rw [sourceOf_cons, List.append_assoc], by simp [hl.inside.symm, hms], fun r => ?_⟩
  rw [List.append_assoc, hl.reads_append (by simp), hall, List.cons_append]

theorem swallows_comment (h : '\n' ∉ y) : Swallows ('-' :: '-' :: y) := by
  refine ⟨[], '-' :: '-' :: y, rfl, List.not_mem_nil, fun r => ?_⟩
  have hsemi : through '\n' (';' :: r) = (';' :: (through '\n' r).1, (through '\n' r).2) := by
    rw [through, if_neg (by decide)]
  rw [List.cons_append, List.cons_append, lexemes_comment, through_append_of_not_mem h, hsemi]
  rfl

/-! What is read before a terminator -/

/-- A run of lexemes is all that is read of a text before the terminator that follows it. -/
structure IsRead (u r : Text) (run : List Lexeme) : Prop where
  reads : lexemes (u ++ ';' :: r) = run ++ .terminator :: lexemes r
  inside : Lexeme.terminator ∉ run

theorem IsRead.sourceOf_eq (h : IsRead u r run) : sourceOf run = u := by
  have hsource := sourceOf_lexemes (u ++ ';' :: r)
  rw [h.reads, sourceOf_append, sourceOf_cons, sourceOf_lexemes] at hsource
  exact List.append_cancel_right hsource

theorem IsRead.exists_cons (h : IsRead u r run) (hu : u ≠ []) :
    ∃ l run', run = l :: run' ∧ l ≠ .terminator ∧ l.source.length ≤ u.length := by
  have hsource := h.sourceOf_eq
  cases run with
  | nil => exact (hu hsource.symm).elim
  | cons l run =>
    refine ⟨l, run, rfl, ?_, ?_⟩
    · rintro rfl
      exact h.inside List.mem_cons_self
    · rw [← hsource, sourceOf_cons, List.length_append]
      omega

theorem IsRead.tail (h : IsRead (l.source ++ u) r run) (hl : IsFirst l u) :
    ∃ run', run = l :: run' ∧ IsRead u r run' := by
  obtain ⟨m, run', rfl, -, -⟩ := h.exists_cons (by simp [hl.solid])
  have hreads := h.reads
  rw [List.append_assoc, hl.reads_append (by simp), List.cons_append] at hreads
  obtain ⟨rfl, hrest⟩ := List.cons.inj hreads
  exact ⟨run', rfl, hrest, fun hm => h.inside (List.mem_cons_of_mem _ hm)⟩

/-- What goes up to a mark has the mark before the terminator. -/
theorem IsRead.mem_of_through {p : Text} (h : IsRead (p ++ u) r run) (hp : p ≠ []) (hc : c ≠ ';')
    (hfirst : lexemes (p ++ (u ++ ';' :: r)) = l :: ls) (hl : l.source = p ++ (through c (u ++ ';' :: r)).1) : c ∈ u := by
  by_contra hmem
  obtain ⟨m, run', rfl, -, hlen⟩ := h.exists_cons (by simp [hp])
  have hreads := h.reads
  rw [List.append_assoc, hfirst, List.cons_append] at hreads
  obtain ⟨rfl, -⟩ := List.cons.inj hreads
  rw [hl, through_append_of_not_mem hmem, through, if_neg (Ne.symm hc)] at hlen
  simp only [List.length_append, List.length_cons] at hlen
  omega

theorem lexemes_terminator (r : Text) : lexemes (';' :: r) = .terminator :: lexemes r :=
  lexemes_other (by decide) (by simp)

theorem IsRead.eq_nil (h : IsRead [] r run) : run = [] := by
  have hreads := h.reads
  rw [List.nil_append, lexemes_terminator, ← List.nil_append (.terminator :: lexemes r)] at hreads
  exact (List.append_cancel_right hreads).symm

theorem isFirst_literal (hc : c = '\x27' ∨ c = '"') (h : c ∉ x) (u : Text) : IsFirst (.literal (c :: (x ++ [c]))) u where
  solid := by simp [Lexeme.source]
  inside := nofun
  reads := by
    intro s _
    rw [Lexeme.source, List.cons_append, List.append_assoc, List.singleton_append, lexemes_literal hc,
      through_append_cons h]

theorem isFirst_comment (h : '\n' ∉ x) (u : Text) : IsFirst (.comment ('-' :: '-' :: (x ++ ['\n']))) u where
  solid := by simp [Lexeme.source]
  inside := nofun
  reads := by
    intro s _
    rw [Lexeme.source, List.cons_append, List.cons_append, List.append_assoc, List.singleton_append, lexemes_comment,
      through_append_cons h]

theorem isFirst_other (hq : ¬ (c = '\x27' ∨ c = '"')) (hd : ¬ (c = '-' ∧ u.head? = some '-')) (hc : c ≠ ';') :
    IsFirst (.other c) u where
  solid := by simp [Lexeme.source]
  inside := by simpa [Lexeme.terminator] using hc
  reads := fun _ hs => lexemes_other hq fun hhead => hd ⟨hhead.1, hs hhead.2⟩

theorem isFirst_of_isBlank (hc : isBlank c = true) (u : Text) : IsFirst (.other c) u := by
  apply isFirst_other
  · rintro (rfl | rfl) <;> cases hc
  · rintro ⟨rfl, -⟩
    cases hc
  · rintro rfl
    cases hc

theorem IsRead.isSpace (h : IsRead e r run) (he : ∀ c ∈ e, isBlank c = true) : ∀ l ∈ run, l.IsSpace := by
  induction e generalizing run with
  | nil => simp [h.eq_nil]
  | cons c e ih =>
    rw [List.forall_mem_cons] at he
    obtain ⟨run', rfl, hrun⟩ := IsRead.tail (l := .other c) h (isFirst_of_isBlank he.1 e)
    rw [List.forall_mem_cons]
    exact ⟨⟨c, rfl, he.1⟩, ih hrun he.2⟩

theorem not_endsInComment_of_isSpace (h : ∀ l ∈ run, l.IsSpace) : ¬ EndsInComment run := by
  rintro ⟨ls, s, e, rfl, -⟩
  obtain ⟨c, hc, -⟩ := h (.comment s) (by simp)
  cases hc

theorem isBlank_of_isSpace (h : ∀ l ∈ run, l.IsSpace) : ∀ c ∈ sourceOf run, isBlank c = true := by
  intro c hc
  obtain ⟨l, hl, hc⟩ := List.mem_flatMap.mp hc
  obtain ⟨d, rfl, hd⟩ := h l hl
  obtain rfl := List.mem_singleton.mp hc
  exact hd

/-- A text that does not end in white space. -/
def IsSolid (y : Text) : Prop := ∀ c ∈ y.getLast?, isBlank c = false

theorem IsSolid.of_append (h : IsSolid (b ++ y)) : IsSolid y := by
  intro c hc
  apply h
  rw [List.getLast?_append, Option.mem_def.mp hc]
  rfl

theorem head?_ne_of_blank (he : ∀ c ∈ e, isBlank c = true) : e.head? ≠ some '-' := by
  intro h
  cases he '-' (List.mem_of_mem_head? h)

/-- The first lexeme of a text that does not end in white space ends in the text, unless it is a comment without its line
feed. -/
theorem IsRead.exists_first (h : IsRead (c :: y ++ e) r run) (hy : IsSolid (c :: y)) (he : ∀ c ∈ e, isBlank c = true) :
    (∃ l rest, c :: y = l.source ++ rest ∧ IsFirst l rest ∧ ∀ s, l = .comment s → rest ≠ []) ∨
      ∃ z, c :: y = '-' :: '-' :: z ∧ '\n' ∉ z ∧ EndsInComment run := by
  rcases lexemes_cases c (y ++ (e ++ ';' :: r)) with ⟨hq, hread⟩ | ⟨rfl, t, ht, hread⟩ | ⟨hq, hd, hread⟩
  · rw [← List.append_assoc] at hread
    have hmem : c ∈ y ++ e := by
      apply IsRead.mem_of_through (p := [c]) h (by simp) _ hread rfl
      rintro rfl
      simp at hq
    have hc : c ∈ y := by
      rcases List.mem_append.mp hmem with hc | hc
      · exact hc
      · have hblank := he c hc
        rcases hq with rfl | rfl <;> cases hblank
    obtain ⟨a, rest, rfl, ha⟩ := List.eq_append_cons_of_mem hc
    exact .inl ⟨.literal (c :: (a ++ [c])), rest, by simp [Lexeme.source], isFirst_literal hq ha rest, by rintro s ⟨⟩⟩
  · obtain ⟨z, rfl⟩ : ∃ z, y = '-' :: z := by
      cases y with
      | nil =>
        cases e with
        | nil => cases ht
        | cons d e =>
          obtain ⟨rfl, -⟩ := List.cons.inj ht
          exact (head?_ne_of_blank he rfl).elim
      | cons d z =>
        obtain ⟨rfl, -⟩ := List.cons.inj ht
        exact ⟨z, rfl⟩
    obtain rfl : z ++ (e ++ ';' :: r) = t := (List.cons.inj ht).2
    rw [← List.append_assoc] at hread
    have hmem : '\n' ∈ z ++ e :=
      IsRead.mem_of_through (p := ['-', '-']) h (by simp) (by decide) hread (by rw [List.append_assoc]; rfl)
    by_cases hz : '\n' ∈ z
    · obtain ⟨a, rest, rfl, ha⟩ := List.eq_append_cons_of_mem hz
      refine .inl ⟨.comment ('-' :: '-' :: (a ++ ['\n'])), rest, by simp [Lexeme.source], isFirst_comment ha rest, ?_⟩
      rintro - - rfl
      cases hy '\n' (List.getLast?_concat (l := '-' :: '-' :: a))
    · obtain ⟨a, f, rfl, ha⟩ := List.eq_append_cons_of_mem ((List.mem_append.mp hmem).resolve_left hz)
      have hread : IsRead ((Lexeme.comment ('-' :: '-' :: (z ++ a ++ ['\n']))).source ++ f) r run := by
        simpa [Lexeme.source] using h
      obtain ⟨run', rfl, hrun⟩ := hread.tail (isFirst_comment (by simp [hz, ha]) f)
      refine .inr ⟨z, rfl, hz, endsInComment_cons_iff.mpr (.inr ⟨⟨_, rfl⟩, hrun.isSpace fun d hd => he d ?_⟩)⟩
      simp [hd]
  · refine .inl ⟨.other c, y, rfl, isFirst_other hq ?_ ?_, by rintro s ⟨⟩⟩
    · rintro ⟨rfl, hhead⟩
      exact hd ⟨rfl, by rw [List.head?_append, hhead]; rfl⟩
    · rintro rfl
      obtain ⟨m, run', rfl, hm, -⟩ := h.exists_cons (by simp)
      have hreads := h.reads
      rw [List.append_assoc, List.cons_append, hread] at hreads
      exact hm (List.cons.inj hreads).1.symm

/-- What is read of a text that does not end in white space says whether a semicolon right after it is a terminator, though
white space stood before the terminator that was read. -/
theorem closes_or_swallows (h : IsRead (y ++ e) r run) (hy : IsSolid y) (he : ∀ c ∈ e, isBlank c = true) :
    Closes y ∧ ¬ EndsInComment run ∨ Swallows y ∧ EndsInComment run := by
  induction hn : y.length using Nat.strongRecOn generalizing y run with
  | ind n ih =>
    cases y with
    | nil =>
      refine .inl ⟨⟨[], rfl, List.not_mem_nil, lexemes_terminator⟩, ?_⟩
      exact not_endsInComment_of_isSpace (h.isSpace he)
    | cons c y =>
      rcases h.exists_first hy he with ⟨l, rest, heq, hl, hcomment⟩ | ⟨z, heq, hz, hends⟩
      · rw [heq] at h hy hn ⊢
        have hlen : rest.length < n := by
          have := List.length_pos_iff.mpr hl.solid
          rw [← hn, List.length_append]
          omega
        have hrest : IsSolid rest := hy.of_append
        rw [List.append_assoc] at h
        obtain ⟨run', rfl, hrun⟩ := h.tail (hl.append (head?_ne_of_blank he))
        -- a comment with something solid after it is not the last lexeme
        have hends : EndsInComment (l :: run') ↔ EndsInComment run' := by
          rw [endsInComment_cons_iff, or_iff_left]
          rintro ⟨⟨s, hs⟩, hspace⟩
          have hd := List.getLast?_eq_some_getLast (hcomment s hs)
          have hblank := isBlank_of_isSpace hspace (rest.getLast (hcomment s hs))
          rw [hrun.sourceOf_eq, hrest _ hd] at hblank
          cases hblank (List.mem_append_left _ (List.mem_of_getLast? hd))
        rw [hends]
        rcases ih rest.length hlen hrun hrest rfl with ⟨hcloses, hno⟩ | ⟨hswallows, hyes⟩
        · exact .inl ⟨hcloses.push hl, hno⟩
        · exact .inr ⟨hswallows.push hl, hyes⟩
      · rw [heq]
        exact .inr ⟨swallows_comment hz, hends⟩

/-! The stretches of what is read -/

theorem stretches_lexeme (h : lexemes t = l :: ls) (hl : l ≠ .terminator) :
    stretches t = onto l.source (stretches (sourceOf ls)) := by
  cases t with
  | nil => simp [lexemes] at h
  | cons c t =>
    rcases lexemes_cases c t with ⟨hq, hread⟩ | ⟨rfl, r, rfl, hread⟩ | ⟨hq, hd, hread⟩
    · obtain ⟨rfl, rfl⟩ := List.cons.inj (h.symm.trans hread)
      rw [sourceOf_lexemes, stretches_literal hq]
      rfl
    · obtain ⟨rfl, rfl⟩ := List.cons.inj (h.symm.trans hread)
      rw [sourceOf_lexemes, stretches_comment]
      rfl
    · obtain ⟨rfl, rfl⟩ := List.cons.inj (h.symm.trans hread)
      rw [sourceOf_lexemes, stretches_other hq hd (by simpa [Lexeme.terminator] using hl)]
      rfl

theorem stretches_append (h : lexemes t = ms ++ ls) (hms : Lexeme.terminator ∉ ms) :
    stretches t = onto (sourceOf ms) (stretches (sourceOf ls)) := by
  induction ms generalizing t with
  | nil =>
    rw [List.nil_append] at h
    rw [← h, sourceOf_lexemes]
    obtain ⟨_ | _, _⟩ := stretches t <;> rfl
  | cons l ms ih =>
    rw [List.mem_cons, not_or] at hms
    rw [List.cons_append] at h
    have hrest : lexemes (sourceOf (ms ++ ls)) = ms ++ ls := lexemes_sourceOf_suffix (show lexemes t = [l] ++ (ms ++ ls) from h)
    rw [stretches_lexeme h (Ne.symm hms.1), ih hrest hms.2, onto_onto, sourceOf_cons]

theorem Closes.stretches_eq (h : Closes y) (r : Text) :
    stretches (y ++ ';' :: r) = (y :: (stretches r).1, (stretches r).2) := by
  obtain ⟨ms, rfl, hms, hall⟩ := h
  have hrest : sourceOf (.terminator :: lexemes r) = ';' :: r := by
    rw [sourceOf_cons, sourceOf_lexemes]
    rfl
  rw [stretches_append (hall r) hms, hrest, stretches_terminator, onto, List.append_nil]

theorem Swallows.stretches_eq (h : Swallows y) (r : Text) :
    stretches (y ++ ';' :: r) = onto (y ++ ';' :: (through '\n' r).1) (stretches (through '\n' r).2) := by
  obtain ⟨ms, z, rfl, hms, hall⟩ := h
  have hread := (hall r).trans (List.append_cons ..)
  rw [stretches_append hread (by simpa [Lexeme.terminator] using hms), sourceOf_append, sourceOf_lexemes]
  simp [sourceOf, Lexeme.source]

/-- What a text holds of stretches does not change when white space goes. -/
theorem stretches_cons_of_isBlank (hc : isBlank c = true) (t : Text) : stretches (c :: t) = onto [c] (stretches t) := by
  rw [stretches_lexeme (lexemes_cons_of_isBlank hc t) (isFirst_of_isBlank hc t).inside, sourceOf_lexemes]
  rfl

theorem stretchesFrom_append (h : (stretchesFrom mode current (t ++ u)).1 = []) :
    stretchesFrom mode current t = ([], current.reverse ++ t) := by
  induction t generalizing mode current with
  | nil => simp [stretchesFrom]
  | cons c t ih =>
    rw [List.cons_append, stretchesFrom] at h
    rw [stretchesFrom]
    split at h
    · cases h
    · rename_i hsplit
      rw [if_neg hsplit]
      cases t with
      | nil => simp [stretchesFrom]
      | cons d t =>
        have hmode : mode.after c (d :: t ++ u) = mode.after c (d :: t) := rfl
        rw [hmode] at h
        rw [ih h]
        simp

theorem onto_fst_eq_nil_iff {p : List Text × Text} : (onto x p).1 = [] ↔ p.1 = [] := by
  obtain ⟨_ | _, _⟩ := p <;> simp [onto]

theorem stretches_strip (h : (stretches x).1 = []) : stretches (strip x) = ([], strip x) := by
  obtain ⟨b, e, hx, hb, -⟩ := Text.exists_strip x
  generalize strip x = y at hx
  subst hx
  apply stretchesFrom_append (u := e)
  induction b with
  | nil => exact h
  | cons c b ih =>
    rw [List.forall_mem_cons] at hb
    rw [List.cons_append, stretches_cons_of_isBlank hb.1, onto_fst_eq_nil_iff] at h
    exact ih hb.2 h

/-! Statements -/

/-- The statement's last character is a terminator when the statement is read on its own. -/
def IsTerminated (s : Text) : Prop := (lexemes s).getLast? = some .terminator

instance (s : Text) : Decidable (IsTerminated s) := inferInstanceAs (Decidable (_ = _))

theorem Closes.isTerminated (h : Closes y) : IsTerminated (y ++ [';']) := by
  obtain ⟨ms, -, -, hall⟩ := h
  rw [IsTerminated, hall]
  simp [lexemes]

theorem Swallows.not_isTerminated (h : Swallows y) : ¬ IsTerminated (y ++ [';']) := by
  obtain ⟨ms, z, -, -, hall⟩ := h
  rw [IsTerminated, hall]
  simp [through, lexemes, Lexeme.terminator]

/-- A statement that does not end takes in what stands on the next line. -/
theorem Swallows.statements_ne (hy : Swallows y) (r s : Text) (ss : List Text) :
    statements (y ++ ';' :: '\n' :: r) ≠ (y ++ [';']) :: s :: ss := by
  intro heq
  have hline : through '\n' ('\n' :: r) = (['\n'], r) := rfl
  rw [statements, hy.stretches_eq, hline] at heq
  cases hr : stretches r with
  | mk ended last =>
    rw [hr] at heq
    cases ended with
    | nil =>
      have hlen := congrArg List.length heq
      simp only [onto, List.filterMap_nil, List.nil_append, List.length_cons, Option.length_toList] at hlen
      split at hlen <;> omega
    | cons x ended =>
      -- the first stretch begins with the whole statement, so there is more in it than in the statement
      have hmore : (solid y).length < (solid (strip (y ++ [';', '\n'] ++ x))).length := by
        rw [solid_strip, solid_append, solid_append, List.length_append, List.length_append,
          show (solid [';', '\n']).length = 1 by decide]
        omega
      have hended : ended? (y ++ [';', '\n'] ++ x) = some (strip (y ++ [';', '\n'] ++ x) ++ [';']) := by
        rw [ended?, if_neg]
        rw [List.isEmpty_iff]
        intro hnil
        rw [hnil] at hmore
        exact Nat.not_lt_zero _ hmore
      rw [onto, List.filterMap_cons_some hended, List.cons_append] at heq
      have hsame := List.append_cancel_right (List.cons.inj heq).1
      rw [hsame] at hmore
      exact Nat.lt_irrefl _ hmore

/-- What stands before the semicolon that is kept with a statement. -/
structure IsKept (y : Text) : Prop where
  ne_nil : y ≠ []
  strip_eq : strip y = y
  reads : Closes y ∨ Swallows y

theorem statements_of_unended (h : stretches t = ([], t)) (hs : strip t = t) (ht : t ≠ []) :
    statements t = if isOnlyComments t = true then [] else [t] := by
  rw [statements, h]
  simp only [last?, hs, List.isEmpty_iff, ht, false_or]
  split <;> rfl

theorem statements_newline (t : Text) : statements ('\n' :: t) = statements t := by
  have hstrip (s : Text) : strip ('\n' :: s) = strip s := strip_cons_of_isBlank rfl s
  rw [statements, statements, stretches_cons_of_isBlank rfl]
  cases stretches t with
  | mk ended last =>
    cases ended with
    | nil =>
      simp [onto, last?, hstrip]
    | cons s ended => simp [onto, List.filterMap_cons, ended?, hstrip]

namespace IsKept

variable (h : IsKept y)
include h

theorem ended?_eq : ended? y = some (y ++ [';']) := by
  rw [ended?, h.strip_eq, if_neg (by simp [h.ne_nil])]

theorem statements_of_closes (hy : Closes y) (r : Text) :
    statements (y ++ ';' :: r) = (y ++ [';']) :: statements r := by
  rw [statements, hy.stretches_eq, List.filterMap_cons_some h.ended?_eq, List.cons_append]
  rfl

theorem strip_concat : strip (y ++ [';']) = y ++ [';'] := by
  have htrim := Text.trim_run (b := []) (q := []) (t := y ++ [';']) (f := isBlank) (by simp) (by simp) ?_ (by simp; decide)
  · simpa [strip] using htrim
  · intro c hc
    rw [List.head?_append_of_ne_nil _ h.ne_nil] at hc
    apply Text.head_trim isBlank y
    rwa [← strip, h.strip_eq]

theorem statements_of_swallows (hy : Swallows y) :
    statements (y ++ [';']) = if isOnlyComments (y ++ [';']) = true then [] else [y ++ [';']] := by
  have hstretches : stretches (y ++ [';']) = ([], y ++ [';']) := by
    rw [hy.stretches_eq]
    simp [through, stretches, stretchesFrom, onto]
  exact statements_of_unended hstretches h.strip_concat (by simp)

end IsKept

/-- What splitting gives: statements that a semicolon ended, and at most one more, which is not only a comment. -/
structure IsSplit (ys us : List Text) : Prop where
  kept : ∀ y ∈ ys, IsKept y
  last : us = [] ∨ ∃ u, us = [u] ∧ statements u = [u] ∧ isOnlyComments u = false

theorem statements_joinLines_of_isSplit {ys us : List Text} (h : IsSplit ys us) :
    statements (joinLines (ys.map (· ++ [';']) ++ us)) = ys.map (· ++ [';']) ++ us ↔
      (∀ s ∈ (ys.map (· ++ [';']) ++ us).dropLast, IsTerminated s) ∧
        ∀ s ∈ (ys.map (· ++ [';']) ++ us).getLast?, IsTerminated s ∨ isOnlyComments s = false := by
  induction ys with
  | nil =>
    rcases h.last with rfl | ⟨u, rfl, hu, honly⟩
    · exact iff_of_true rfl (by simp)
    · exact iff_of_true hu (by simp [honly])
  | cons y ys ih =>
    obtain ⟨hy, hys⟩ := List.forall_mem_cons.mp h.kept
    have ih := ih ⟨hys, h.last⟩
    rw [List.map_cons, List.cons_append]
    generalize ys.map (· ++ [';']) ++ us = rest at ih ⊢
    cases rest with
    | nil =>
      rw [joinLines, Text.join]
      rcases hy.reads with hc | hs
      · exact iff_of_true (hy.statements_of_closes hc []) (by simp [hc.isTerminated])
      · rw [hy.statements_of_swallows hs]
        split
        · rename_i honly
          exact iff_of_false (by simp) (by simp [hs.not_isTerminated, honly])
        · rename_i honly
          exact iff_of_true rfl (by simp [honly])
    | cons s rest =>
      rw [joinLines, Text.join_cons (by simp), ← joinLines, List.append_assoc, List.append_assoc, List.singleton_append,
        List.singleton_append, List.dropLast_cons_of_ne_nil (by simp), List.forall_mem_cons, List.getLast?_cons_cons]
      rcases hy.reads with hc | hs
      · rw [hy.statements_of_closes hc, statements_newline, List.cons_inj_right, ih]
        simp [hc.isTerminated]
      · exact iff_of_false (hs.statements_ne _ s rest) fun hall => hs.not_isTerminated hall.1.1

/-! Runs between the terminators of a text -/

theorem IsRead.of_blank (h : IsRead (b ++ u) r run) (hb : ∀ c ∈ b, isBlank c = true) :
    ∃ run', IsRead u r run' ∧ (EndsInComment run ↔ EndsInComment run') := by
  induction b generalizing run with
  | nil => exact ⟨run, h, Iff.rfl⟩
  | cons c b ih =>
    rw [List.forall_mem_cons] at hb
    obtain ⟨run', rfl, hrun⟩ := IsRead.tail (l := .other c) h (isFirst_of_isBlank hb.1 _)
    obtain ⟨run'', hread, hends⟩ := ih hrun hb.2
    exact ⟨run'', hread, (endsInComment_cons_of_ne fun s hs => by cases hs).trans hends⟩

theorem IsRead.isKept (h : IsRead x r run) (hx : strip x ≠ []) :
    IsKept (strip x) ∧ (IsTerminated (strip x ++ [';']) ↔ ¬ EndsInComment run) := by
  obtain ⟨b, e, hcut, hb, he⟩ := Text.exists_strip x
  rw [hcut] at h
  obtain ⟨run', hread, hends⟩ := h.of_blank hb
  rw [hends]
  rcases closes_or_swallows hread (Text.last_trim isBlank x) he with ⟨hc, hno⟩ | ⟨hs, hyes⟩
  · exact ⟨⟨hx, Text.strip_strip x, .inl hc⟩, iff_of_true hc.isTerminated hno⟩
  · exact ⟨⟨hx, Text.strip_strip x, .inr hs⟩, iff_of_false hs.not_isTerminated (not_not_intro hyes)⟩

variable {ended : List (List Lexeme)} {last : List Lexeme}

theorem IsCut.isRead (h : IsCut (lexemes t) ended last) (hrun : run ∈ ended) : ∃ r, IsRead (sourceOf run) r run := by
  obtain ⟨pre, post, rfl⟩ := List.append_of_mem hrun
  obtain ⟨rest, hrest⟩ : ∃ rest, lexemes t = pre.flatMap (· ++ [.terminator]) ++ (run ++ .terminator :: rest) :=
    ⟨post.flatMap (· ++ [.terminator]) ++ last, by simp [h.joined]⟩
  refine ⟨sourceOf rest, ?_, h.ended run hrun⟩
  have hread := lexemes_sourceOf_suffix hrest
  have hcut : lexemes t = pre.flatMap (· ++ [.terminator]) ++ run ++ [.terminator] ++ rest := by
    rw [hrest]
    simp
  have hafter := lexemes_sourceOf_suffix hcut
  rw [hafter, ← hread, sourceOf_append, sourceOf_cons]
  rfl

theorem IsCut.isSplit (h : IsCut (lexemes t) ended last) : IsSplit (bodies ended) (last? (sourceOf last)).toList where
  kept := by
    intro y hy
    obtain ⟨hmem, hne⟩ := List.mem_filter.mp hy
    obtain ⟨run, hrun, rfl⟩ := List.mem_map.mp hmem
    obtain ⟨r, hread⟩ := h.isRead hrun
    exact (hread.isKept (by simpa using hne)).1
  last := by
    cases hu : last? (sourceOf last) with
    | none => exact .inl rfl
    | some u =>
      rw [last?] at hu
      split at hu
      · cases hu
      · rename_i hkept
        cases hu
        rw [not_or, List.isEmpty_iff, Bool.not_eq_true] at hkept
        have hread : lexemes (sourceOf last) = last ++ [] := by
          rw [List.append_nil]
          exact lexemes_sourceOf_suffix h.joined
        have hstretches := stretches_strip (x := sourceOf last) (by rw [stretches_append hread h.last]; rfl)
        refine .inr ⟨_, rfl, ?_, hkept.2⟩
        rw [statements_of_unended hstretches (Text.strip_strip _) hkept.1, hkept.2]
        rfl

/-- Split statements that are put on lines and split again stay as they are if and only if the semicolon of each but the last
is a terminator, and the last one does not come to nothing: where its semicolon is no terminator, it is not all comment. The
semicolon of a statement is no terminator exactly where a comment stands before it in the text. -/
theorem statements_joinLines_iff (t : Text) :
    (∃ ended last, IsCut (lexemes t) ended last ∧
      statements t = (bodies ended).map (· ++ [';']) ++ (last? (sourceOf last)).toList ∧
      ∀ run ∈ ended, strip (sourceOf run) ≠ [] →
        (IsTerminated (strip (sourceOf run) ++ [';']) ↔ ¬ EndsInComment run)) ∧
    (statements (joinLines (statements t)) = statements t ↔
      (∀ s ∈ (statements t).dropLast, IsTerminated s) ∧
        ∀ s ∈ (statements t).getLast?, IsTerminated s ∨ isOnlyComments s = false) := by
  obtain ⟨ended, last, hcut, hstretches⟩ := exists_isCut t
  have hstatements : statements t = (bodies ended).map (· ++ [';']) ++ (last? (sourceOf last)).toList := by
    rw [statements, hstretches, filterMap_ended?]
  refine ⟨⟨ended, last, hcut, hstatements, fun run hrun hne => ?_⟩, ?_⟩
  · obtain ⟨r, hread⟩ := hcut.isRead hrun
    exact (hread.isKept hne).2
  · rw [hstatements]
    exact statements_joinLines_of_isSplit hcut.isSplit

/-- A statement after a comment line that ends at its semicolon. -/
def remarkedScript : Text := "SELECT 1 -- one\n;\nSELECT 2"

theorem statements_joinLines_remarkedScript :
    statements remarkedScript = Text.ofStrings ["SELECT 1 -- one;", "SELECT 2"] ∧
    statements (joinLines (statements remarkedScript)) = Text.ofStrings ["SELECT 1 -- one;\nSELECT 2"] ∧
    statements (joinLines (statements remarkedScript)) ≠ statements remarkedScript := by
  decide +kernel

end Runbook.Sql
