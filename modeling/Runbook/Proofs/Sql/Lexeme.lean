import Runbook.Proofs.Text.Search
import Runbook.Sql.Statement

/-!
The lexemes of a SQL text: quoted literals, line comments, and single characters for all else. The stretches that the
splitter finds are the runs of lexemes between the semicolons that are lexemes of their own.
-/
namespace Runbook.Sql

variable {t r e : Text} {c q : Char} {mode : Mode} {ls ms : List Lexeme}

/-- The text up to and with the first `c`, and what follows it; without a `c` that is all of the text. -/
def through (c : Char) : Text → Text × Text
  | [] => ([], [])
  | d :: t => if d = c then ([d], t) else (d :: (through c t).1, (through c t).2)

theorem through_append (c : Char) (t : Text) : (through c t).1 ++ (through c t).2 = t := by
  fun_induction through c t with
  | case1 => rfl
  | case2 => rfl
  | case3 d t hd ih => rw [List.cons_append, ih]

theorem length_through (c : Char) (t : Text) : (through c t).2.length ≤ t.length := by
  have hlen := congrArg List.length (through_append c t)
  rw [List.length_append] at hlen
  omega

theorem through_append_of_not_mem (h : c ∉ t) (r : Text) :
    through c (t ++ r) = (t ++ (through c r).1, (through c r).2) := by
  induction t with
  | nil => rfl
  | cons d t ih =>
    rw [List.mem_cons, not_or] at h
    rw [List.cons_append, through, if_neg (Ne.symm h.1), ih h.2, List.cons_append]

theorem through_of_not_mem (h : c ∉ t) : through c t = (t, []) := by
  have hall := through_append_of_not_mem h []
  rwa [List.append_nil, through, List.append_nil] at hall

theorem through_append_cons (h : c ∉ t) (r : Text) : through c (t ++ c :: r) = (t ++ [c], r) := by
  rw [through_append_of_not_mem h, through, if_pos rfl]

inductive Lexeme
  | literal (source : Text)
  | comment (source : Text)
  | other (c : Char)
  deriving DecidableEq, Repr

namespace Lexeme

def source : Lexeme → Text
  | .literal s | .comment s => s
  | .other c => [c]

/-- The only lexeme that ends a statement. -/
def terminator : Lexeme := .other ';'

/-- White space and comments. -/
def isCommentary : Lexeme → Bool
  | .literal _ => false
  | .comment _ => true
  | .other c => Text.isBlank c

end Lexeme

/-- A literal goes from a quote to the next equal one, a comment from two hyphens through the line feed. -/
def lexemes : Text → List Lexeme
  | [] => []
  | c :: t =>
    have := length_through c t
    have := length_through '\n' t
    if c = '\x27' ∨ c = '"' then .literal (c :: (through c t).1) :: lexemes (through c t).2
    else if c = '-' ∧ t.head? = some '-' then .comment (c :: (through '\n' t).1) :: lexemes (through '\n' t).2
    else .other c :: lexemes t
termination_by t => t.length
decreasing_by all_goals simp only [List.length_cons]; omega

def sourceOf (ls : List Lexeme) : Text := ls.flatMap Lexeme.source

theorem sourceOf_cons (l : Lexeme) (ls : List Lexeme) : sourceOf (l :: ls) = l.source ++ sourceOf ls := rfl

theorem sourceOf_append (ls ms : List Lexeme) : sourceOf (ls ++ ms) = sourceOf ls ++ sourceOf ms := List.flatMap_append

theorem lexemes_literal (hc : c = '\x27' ∨ c = '"') (t : Text) :
    lexemes (c :: t) = .literal (c :: (through c t).1) :: lexemes (through c t).2 := by
  rw [lexemes, if_pos hc]

theorem lexemes_comment (t : Text) :
    lexemes ('-' :: '-' :: t) = .comment ('-' :: '-' :: (through '\n' t).1) :: lexemes (through '\n' t).2 := by
  rw [lexemes, if_neg (by decide), if_pos (by simp), through, if_neg (by decide)]

theorem lexemes_other (hc : ¬ (c = '\x27' ∨ c = '"')) (hd : ¬ (c = '-' ∧ t.head? = some '-')) :
    lexemes (c :: t) = .other c :: lexemes t := by
  rw [lexemes, if_neg hc, if_neg hd]

/-- The three ways in which a text begins. -/
theorem lexemes_cases (c : Char) (t : Text) :
    ((c = '\x27' ∨ c = '"') ∧ lexemes (c :: t) = .literal (c :: (through c t).1) :: lexemes (through c t).2) ∨
    (c = '-' ∧ ∃ r, t = '-' :: r ∧
      lexemes (c :: t) = .comment ('-' :: '-' :: (through '\n' r).1) :: lexemes (through '\n' r).2) ∨
    (¬ (c = '\x27' ∨ c = '"') ∧ ¬ (c = '-' ∧ t.head? = some '-') ∧ lexemes (c :: t) = .other c :: lexemes t) := by
  by_cases hq : c = '\x27' ∨ c = '"'
  · exact .inl ⟨hq, lexemes_literal hq t⟩
  · by_cases hd : c = '-' ∧ t.head? = some '-'
    · obtain ⟨rfl, hhead⟩ := hd
      obtain ⟨r, rfl⟩ := List.head?_eq_some_iff.mp hhead
      exact .inr (.inl ⟨rfl, r, rfl, lexemes_comment r⟩)
    · exact .inr (.inr ⟨hq, hd, lexemes_other hq hd⟩)

/-- Nothing of a text is outside its lexemes. -/
theorem sourceOf_lexemes (t : Text) : sourceOf (lexemes t) = t := by
  fun_induction lexemes t with
  | case1 => rfl
  | case2 c t _ _ hq ih => rw [sourceOf_cons, ih, Lexeme.source, List.cons_append, through_append]
  | case3 c t _ _ hq hd ih => rw [sourceOf_cons, ih, Lexeme.source, List.cons_append, through_append]
  | case4 c t _ _ hq hd ih => rw [sourceOf_cons, ih, Lexeme.source, List.singleton_append]

/-- From the end of any lexeme on, a text reads as it does on its own. -/
theorem lexemes_sourceOf_suffix (h : lexemes t = ls ++ ms) : lexemes (sourceOf ms) = ms := by
  induction hn : t.length using Nat.strongRecOn generalizing t ls with
  | ind n ih =>
    cases ls with
    | nil =>
      rw [List.nil_append] at h
      rw [← h, sourceOf_lexemes]
    | cons l ls =>
      cases t with
      | nil => simp [lexemes] at h
      | cons c t =>
        have htail : ∃ r, r.length < (c :: t).length ∧ lexemes r = ls ++ ms := by
          rcases lexemes_cases c t with ⟨-, hread⟩ | ⟨-, r, rfl, hread⟩ | ⟨-, -, hread⟩
          · have := length_through c t
            exact ⟨_, by simp only [List.length_cons]; omega, (List.cons.inj (hread.symm.trans h)).2⟩
          · have := length_through '\n' r
            exact ⟨_, by simp only [List.length_cons]; omega, (List.cons.inj (hread.symm.trans h)).2⟩
          · exact ⟨t, by simp, (List.cons.inj (hread.symm.trans h)).2⟩
        obtain ⟨r, hlen, hr⟩ := htail
        exact ih r.length (by omega) hr rfl

/-! Stretches -/

/-- Lexemes cut at the terminators: the runs that one ends, and the last one. -/
structure IsCut (ls : List Lexeme) (ended : List (List Lexeme)) (last : List Lexeme) : Prop where
  joined : ls = ended.flatMap (· ++ [.terminator]) ++ last
  ended : ∀ run ∈ ended, Lexeme.terminator ∉ run
  last : Lexeme.terminator ∉ last

/-- Stretches that begin with what has been read before. -/
def onto (head : Text) : List Text × Text → List Text × Text
  | ([], last) => ([], head ++ last)
  | (s :: ended, last) => ((head ++ s) :: ended, last)

theorem onto_onto (a b : Text) (p : List Text × Text) : onto a (onto b p) = onto (a ++ b) p := by
  obtain ⟨_ | _, _⟩ := p <;> simp [onto]

theorem stretchesFrom_eq_onto (mode : Mode) (current t : Text) :
    stretchesFrom mode current t = onto current.reverse (stretchesFrom mode [] t) := by
  induction t generalizing mode current with
  | nil => simp [stretchesFrom, onto]
  | cons c t ih =>
    rw [stretchesFrom, stretchesFrom]
    split
    · simp [onto]
    · rw [ih _ (c :: current), ih _ [c], onto_onto, List.reverse_cons, List.reverse_singleton]

/-- The modes that go on up to a character and no further. -/
inductive Mode.Until : Mode → Char → Prop
  | quoted (q : Char) : Until (.quoted q) q
  | comment : Until .comment '\n'

theorem Mode.Until.after_eq (h : Mode.Until mode q) (c : Char) (t : Text) :
    mode.after c t = if c = q then .plain else mode := by
  cases h <;> rfl

/-- Inside a literal or a comment nothing splits. -/
theorem stretchesFrom_until (h : Mode.Until mode q) (current t : Text) :
    stretchesFrom mode current t = stretchesFrom .plain ((through q t).1.reverse ++ current) (through q t).2 := by
  have hplain : mode ≠ .plain := by cases h <;> nofun
  induction t generalizing current with
  | nil => rfl
  | cons c t ih =>
    rw [stretchesFrom, if_neg fun hc => hplain hc.1, h.after_eq, through]
    by_cases hc : c = q
    · rw [if_pos hc, if_pos hc]
      rfl
    · rw [if_neg hc, if_neg hc, ih, List.reverse_cons, List.append_assoc, List.singleton_append]

theorem stretches_literal (hc : c = '\x27' ∨ c = '"') (t : Text) :
    stretches (c :: t) = onto (c :: (through c t).1) (stretches (through c t).2) := by
  have hne : c ≠ ';' := by rcases hc with rfl | rfl <;> decide
  have hmode : Mode.plain.after c t = .quoted c := if_pos hc
  rw [stretches, stretchesFrom, if_neg fun h => hne h.2, hmode, stretchesFrom_until (.quoted c), stretchesFrom_eq_onto]
  simp [stretches]

theorem stretches_comment (t : Text) :
    stretches ('-' :: '-' :: t) = onto ('-' :: '-' :: (through '\n' t).1) (stretches (through '\n' t).2) := by
  have hmode : Mode.plain.after '-' ('-' :: t) = .comment := rfl
  rw [stretches, stretchesFrom, if_neg (by simp), hmode, stretchesFrom_until .comment, stretchesFrom_eq_onto, through,
    if_neg (by decide)]
  simp [stretches]

theorem stretches_other (hc : ¬ (c = '\x27' ∨ c = '"')) (hd : ¬ (c = '-' ∧ t.head? = some '-')) (hne : c ≠ ';') :
    stretches (c :: t) = onto [c] (stretches t) := by
  have hmode : Mode.plain.after c t = .plain := (if_neg hc).trans (if_neg hd)
  rw [stretches, stretchesFrom, if_neg fun h => hne h.2, hmode, stretchesFrom_eq_onto]
  rfl

theorem stretches_terminator (t : Text) : stretches (';' :: t) = ([] :: (stretches t).1, (stretches t).2) := by
  rw [stretches, stretchesFrom, if_pos ⟨rfl, rfl⟩]
  rfl

variable {ended : List (List Lexeme)} {last : List Lexeme} {l : Lexeme}

theorem IsCut.push_terminator (h : IsCut ls ended last) : IsCut (.terminator :: ls) ([] :: ended) last where
  joined := by rw [h.joined]; rfl
  ended := List.forall_mem_cons.mpr ⟨List.not_mem_nil, h.ended⟩
  last := h.last

/-- Any other lexeme goes to the first run. -/
theorem IsCut.push (h : IsCut ls ended last) (hl : l ≠ .terminator) : ∃ ended' last', IsCut (l :: ls) ended' last' ∧
    (ended'.map sourceOf, sourceOf last') = onto l.source (ended.map sourceOf, sourceOf last) := by
  obtain ⟨rfl, hended, hlast⟩ := h
  cases ended with
  | nil => exact ⟨[], l :: last, ⟨rfl, by simp, by simp [hl.symm, hlast]⟩, rfl⟩
  | cons run ended =>
    rw [List.forall_mem_cons] at hended
    exact ⟨(l :: run) :: ended, last,
      ⟨rfl, List.forall_mem_cons.mpr ⟨by simp [hl.symm, hended.1], hended.2⟩, hlast⟩, rfl⟩

/-- The splitter ends its stretches at the terminators and nowhere else. -/
theorem exists_isCut (t : Text) : ∃ ended last, IsCut (lexemes t) ended last ∧
    stretches t = (ended.map sourceOf, sourceOf last) := by
  induction hn : t.length using Nat.strongRecOn generalizing t with
  | ind n ih =>
    cases t with
    | nil => exact ⟨[], [], ⟨by simp [lexemes], by simp, List.not_mem_nil⟩, rfl⟩
    | cons c t =>
      rw [List.length_cons] at hn
      have hlen (q : Char) := length_through q t
      rcases lexemes_cases c t with ⟨hq, hread⟩ | ⟨rfl, r, rfl, hread⟩ | ⟨hq, hd, hread⟩
      · obtain ⟨ended, last, hcut, hs⟩ := ih _ (by have := hlen c; omega) (through c t).2 rfl
        obtain ⟨ended', last', hcut', hs'⟩ := hcut.push (l := .literal (c :: (through c t).1)) nofun
        exact ⟨ended', last', hread ▸ hcut', by rw [stretches_literal hq, hs, hs']; rfl⟩
      · have := length_through '\n' r
        obtain ⟨ended, last, hcut, hs⟩ := ih _ (by simp only [List.length_cons] at hn; omega) (through '\n' r).2 rfl
        obtain ⟨ended', last', hcut', hs'⟩ := hcut.push (l := .comment ('-' :: '-' :: (through '\n' r).1)) nofun
        exact ⟨ended', last', hread ▸ hcut', by rw [stretches_comment, hs, hs']; rfl⟩
      · obtain ⟨ended, last, hcut, hs⟩ := ih _ (by omega) t rfl
        by_cases hsemi : c = ';'
        · subst hsemi
          exact ⟨[] :: ended, last, hread ▸ hcut.push_terminator, by rw [stretches_terminator, hs]; rfl⟩
        · obtain ⟨ended', last', hcut', hs'⟩ := hcut.push (l := .other c) (by simpa [Lexeme.terminator] using hsemi)
          exact ⟨ended', last', hread ▸ hcut', by rw [stretches_other hq hd hsemi, hs, hs']; rfl⟩

end Runbook.Sql
