import Runbook.Proofs.Text.Digit
import Runbook.Proofs.Text.Search
import Runbook.Text.Words

/-! A quoted text is read back as it was, alone or as the end of a word, whatever stands in it. -/
namespace Runbook.Words

variable {t w r : Text} {c : Char}

/-- Characters that a word takes as they stand. -/
def isPlain (c : Char) : Bool := !(isSpace c || isQuote c || c = '\\')

theorem isPlain_of_isSafe (h : isSafe c = true) : isPlain c = true := by
  rw [isPlain, Bool.not_eq_true', Bool.eq_false_iff]
  intro hc
  simp only [isSpace, isQuote, Bool.or_eq_true, decide_eq_true_eq] at hc
  rcases hc with ((((rfl | rfl) | rfl) | rfl) | rfl | rfl) | rfl <;> exact absurd h (by decide)

/-- Safe characters need no quotes; any other text is put between single ones. -/
theorem quote_cases (t : Text) :
    (t ≠ [] ∧ quote t = t ∧ ∀ c ∈ t, isSafe c = true) ∨ quote t = '\x27' :: (t.flatMap quoteChar ++ ['\x27']) := by
  unfold quote
  split
  · rename_i hnil
    rw [List.isEmpty_iff.mp hnil]
    exact .inr rfl
  · rename_i hne
    split
    · rename_i hsafe
      exact .inl ⟨by simpa using hne, rfl, by simpa using hsafe⟩
    · exact .inr rfl

/-! Reading -/

theorem splitFrom_bare_cons (hc : isPlain c = true) (w r : Text) :
    splitFrom .bare w (c :: r) = splitFrom .bare (c :: w) r := by
  simp only [isPlain, Bool.not_eq_true', Bool.or_eq_false_iff, decide_eq_false_iff_not] at hc
  obtain ⟨⟨hspace, hquote⟩, hslash⟩ := hc
  rw [splitFrom, hspace, hquote, if_neg (by simp), if_neg (by simp), if_neg hslash]

theorem splitFrom_between_cons (hc : isPlain c = true) (w r : Text) :
    splitFrom .between w (c :: r) = splitFrom .bare [c] r := by
  simp only [isPlain, Bool.not_eq_true', Bool.or_eq_false_iff, decide_eq_false_iff_not] at hc
  obtain ⟨⟨hspace, hquote⟩, hslash⟩ := hc
  rw [splitFrom, hspace, hquote, if_neg (by simp), if_neg (by simp), if_neg hslash]

theorem splitFrom_bare (h : ∀ c ∈ t, isPlain c = true) (w r : Text) :
    splitFrom .bare w (t ++ r) = splitFrom .bare (t.reverse ++ w) r := by
  induction t generalizing w with
  | nil => rfl
  | cons c t ih =>
    obtain ⟨hc, ht⟩ := List.forall_mem_cons.mp h
    rw [List.cons_append, splitFrom_bare_cons hc, ih ht, List.reverse_cons, List.append_assoc]
    rfl

/-- Plain characters and a space after them are a word. -/
theorem splitFrom_word (h : ∀ c ∈ t, isPlain c = true) (ht : t ≠ []) (w r : Text) :
    splitFrom .between w (t ++ ' ' :: r) = (t :: ·) <$> splitFrom .between [] r := by
  obtain ⟨c, t, rfl⟩ := List.exists_cons_of_ne_nil ht
  obtain ⟨hc, htail⟩ := List.forall_mem_cons.mp h
  have hend (w : Text) : splitFrom .bare w (' ' :: r) = (w.reverse :: ·) <$> splitFrom .between [] r := rfl
  rw [List.cons_append, splitFrom_between_cons hc, splitFrom_bare htail, hend]
  simp

/-- Inside single quotes a text is taken as it is, single quotes included. -/
theorem splitFrom_inside (t w r : Text) :
    splitFrom (.quoted '\x27') w (t.flatMap quoteChar ++ '\x27' :: r) = splitFrom .bare (t.reverse ++ w) r := by
  induction t generalizing w with
  | nil =>
    rw [List.flatMap_nil, List.nil_append, splitFrom, if_pos rfl]
    rfl
  | cons c t ih =>
    rw [List.flatMap_cons, List.append_assoc, List.reverse_cons, List.append_assoc, List.singleton_append, ← ih]
    by_cases hc : c = '\x27'
    · rw [hc]
      rfl
    · have hsame : quoteChar c = [c] := if_neg hc
      have hslash : ¬ (c = '\\' ∧ '\x27' = '"') := fun h => absurd h.2 (by decide)
      rw [hsame, List.singleton_append, splitFrom, if_neg hc, if_neg hslash]

theorem splitFrom_bare_quote (t w r : Text) :
    splitFrom .bare w (quote t ++ r) = splitFrom .bare (t.reverse ++ w) r := by
  rcases quote_cases t with ⟨-, hq, hsafe⟩ | hq
  · rw [hq]
    exact splitFrom_bare (fun c hc => isPlain_of_isSafe (hsafe c hc)) w r
  · have hopen (s : Text) : splitFrom .bare w ('\x27' :: s) = splitFrom (.quoted '\x27') w s := rfl
    rw [hq, List.cons_append, hopen, List.append_assoc]
    exact splitFrom_inside t w r

/-- What is quoted is a word of its own. -/
theorem splitFrom_quote (t w : Text) : splitFrom .between w (quote t) = .ok [t] := by
  have hend (w : Text) : splitFrom .bare w [] = .ok [w.reverse] := rfl
  rcases quote_cases t with ⟨hne, hq, hsafe⟩ | hq
  · obtain ⟨c, t, rfl⟩ := List.exists_cons_of_ne_nil hne
    have hplain : ∀ d ∈ c :: t, isPlain d = true := fun d hd => isPlain_of_isSafe (hsafe d hd)
    obtain ⟨hc, ht⟩ := List.forall_mem_cons.mp hplain
    have hread := splitFrom_bare ht [c] []
    rw [List.append_nil] at hread
    rw [hq, splitFrom_between_cons hc, hread, hend]
    simp
  · have hopen (s : Text) : splitFrom .between w ('\x27' :: s) = splitFrom (.quoted '\x27') [] s := rfl
    rw [hq, hopen, splitFrom_inside, hend]
    simp

/-- A quoted text that goes on a word is part of the word. -/
theorem splitFrom_append_quote (h : ∀ c ∈ w, isPlain c = true) (hw : w ≠ []) (t r : Text) :
    splitFrom .between r (w ++ quote t) = .ok [w ++ t] := by
  obtain ⟨c, w, rfl⟩ := List.exists_cons_of_ne_nil hw
  obtain ⟨hc, htail⟩ := List.forall_mem_cons.mp h
  have hread := splitFrom_bare_quote t (w.reverse ++ [c]) []
  have hend (w : Text) : splitFrom .bare w [] = .ok [w.reverse] := rfl
  rw [List.append_nil] at hread
  rw [List.cons_append, splitFrom_between_cons hc, splitFrom_bare htail, hread, hend]
  simp

/-! What stands in a quoted text -/

theorem quote_ne_nil (t : Text) : quote t ≠ [] := by
  rcases quote_cases t with ⟨hne, hq, -⟩ | hq
  · rwa [hq]
  · rw [hq]
    simp

theorem not_isBlank_of_isSafe (h : isSafe c = true) : Text.isBlank c = false := by
  have hc : 33 ≤ c.toNat ∧ c.toNat ≤ 122 := by
    simp only [isSafe, Bool.or_eq_true, decide_eq_true_eq] at h
    rcases h with (((((((((h | rfl) | rfl) | rfl) | rfl) | rfl) | rfl) | rfl) | rfl) | rfl) | rfl
    · have := Text.toNat_of_isAlphanum h
      omega
    all_goals decide
  simp only [Text.isBlank, Bool.or_eq_false_iff, Bool.and_eq_false_iff, decide_eq_false_iff_not]
  omega

theorem getLast_quote (t : Text) : ∀ c ∈ (quote t).getLast?, Text.isBlank c = false := by
  rcases quote_cases t with ⟨-, hq, hsafe⟩ | hq
  · rw [hq]
    intro c hc
    exact not_isBlank_of_isSafe (hsafe c (List.mem_of_mem_getLast? hc))
  · rw [hq, ← List.cons_append, List.getLast?_concat]
    rintro c ⟨⟩
    rfl

/-- What has no quotes in it stands in a quoted text only where it stands in the text. -/
theorem prefix_of_quoted {s : Text} (hs : '\x27' ∉ s) (h : s <+: t.flatMap quoteChar) : s <+: t := by
  induction t generalizing s with
  | nil => exact h
  | cons c t ih =>
    cases s with
    | nil => exact List.nil_prefix
    | cons d s =>
      rw [List.mem_cons, not_or] at hs
      rw [List.flatMap_cons] at h
      by_cases hc : c = '\x27'
      · rw [hc] at h
        exact (hs.1 (List.cons_prefix_cons.mp h).1.symm).elim
      · have hsame : quoteChar c = [c] := if_neg hc
        rw [hsame, List.singleton_append] at h
        obtain ⟨rfl, htail⟩ := List.cons_prefix_cons.mp h
        exact List.cons_prefix_cons.mpr ⟨rfl, ih hs.2 htail⟩

theorem infix_of_quoted {s : Text} (hs : ∀ c ∈ s, c ≠ '\x27' ∧ c ≠ '"') (h : s <:+: t.flatMap quoteChar) : s <:+: t := by
  induction t with
  | nil => exact h
  | cons c t ih =>
    rw [List.flatMap_cons] at h
    by_cases hc : c = '\x27'
    · rw [hc] at h
      have hquotes : ∀ d ∈ s, d ∉ quoteChar '\x27' := by
        intro d hd hin
        have hin : d ∈ ['\x27', '"', '\x27', '"', '\x27'] := hin
        simp [hs d hd] at hin
      exact (ih (Text.infix_of_append_left h hquotes)).trans (List.suffix_cons c t).isInfix
    · have hsame : quoteChar c = [c] := if_neg hc
      rw [hsame, List.singleton_append, List.infix_cons_iff] at h
      rcases h with h | h
      · rw [← List.singleton_append, ← hsame, ← List.flatMap_cons] at h
        exact (prefix_of_quoted (fun hq => (hs _ hq).1 rfl) h).isInfix
      · exact (ih h).trans (List.suffix_cons c t).isInfix

theorem infix_of_quote {s : Text} (hs : ∀ c ∈ s, c ≠ '\x27' ∧ c ≠ '"') (h : s <:+: quote t) : s <:+: t := by
  rcases quote_cases t with ⟨-, hq, -⟩ | hq
  · rwa [hq] at h
  · have hquote : ∀ c ∈ s, c ∉ (['\x27'] : Text) := by
      intro c hc hin
      exact (hs c hc).1 (List.mem_singleton.mp hin)
    rw [hq, ← List.singleton_append] at h
    exact infix_of_quoted hs (Text.infix_of_append_right (Text.infix_of_append_left h hquote) hquote)

end Runbook.Words
