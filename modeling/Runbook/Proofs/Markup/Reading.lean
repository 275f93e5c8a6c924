import Mathlib.Data.List.Infix
import Runbook.Markup.Token

/-! The tokens of consecutive lines are consecutive, and most kinds keep their line as it was. -/
namespace Runbook

/-- The kinds whose tokens hold the whole line. -/
def TokenKind.keepsLine : TokenKind → Bool
  | .codeLine | .comment | .commentOpen | .commentLine | .commentClose | .paragraph => true
  | .heading | .fenceOpen | .fenceClose | .listItem | .blank => false

namespace Markup

variable {mode : Mode} {n : Nat} {l : Text} {ls : List Text} {p s : List Token}

theorem readOutside_text (h : (readOutside n l).1.kind.keepsLine = true) :
    (readOutside n l).1.text = l := by
  revert h
  fun_cases readOutside n l <;> simp [TokenKind.keepsLine]

theorem readLine_text (h : (readLine mode n l).1.kind.keepsLine = true) :
    (readLine mode n l).1.text = l := by
  cases mode with
  | outside => exact readOutside_text h
  | code marker =>
    simp only [readLine] at h ⊢
    split at h <;> simp_all [TokenKind.keepsLine]
  | comment =>
    simp only [readLine]
    split <;> rfl

theorem texts_readLines (h : ∀ k ∈ readLines mode n ls, k.kind.keepsLine = true) :
    (readLines mode n ls).map (·.text) = ls := by
  induction ls generalizing mode n with
  | nil => rfl
  | cons l ls ih =>
    rw [readLines, List.map_cons, readLine_text (h _ List.mem_cons_self),
      ih fun k hk => h k (List.mem_cons_of_mem _ hk)]

/-- A cut of the tokens is a cut of the lines; the reader goes on in the mode that it has reached. -/
theorem exists_of_readLines_eq_append (h : readLines mode n ls = p ++ s) :
    ∃ as bs mode', ls = as ++ bs ∧ readLines mode n as = p ∧
      readLines mode' (n + as.length) bs = s := by
  induction p generalizing mode n ls with
  | nil => exact ⟨[], ls, mode, rfl, rfl, h⟩
  | cons k p ih =>
    cases ls with
    | nil => cases h
    | cons l ls =>
      rw [readLines, List.cons_append] at h
      obtain ⟨hk, htail⟩ := List.cons.inj h
      obtain ⟨as, bs, mode', rfl, hp, hs⟩ := ih htail
      refine ⟨l :: as, bs, mode', rfl, by rw [readLines, hk, hp], ?_⟩
      rw [List.length_cons, Nat.add_comm as.length, ← Nat.add_assoc]
      exact hs

/-- Tokens in a row that keep their lines hold lines in a row. -/
theorem texts_infix_lines {t : Text} (h : p <:+: tokenize t)
    (hp : ∀ k ∈ p, k.kind.keepsLine = true) : p.map (·.text) <:+: t.lines := by
  obtain ⟨a, b, h⟩ := h
  obtain ⟨as, bs, mode', hl, -, hs⟩ := exists_of_readLines_eq_append (h.symm.trans (List.append_assoc ..))
  obtain ⟨bs, cs, -, rfl, rfl, -⟩ := exists_of_readLines_eq_append hs
  exact ⟨as, cs, by rw [texts_readLines hp, hl, List.append_assoc]⟩

end Markup
end Runbook
