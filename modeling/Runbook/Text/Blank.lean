import Runbook.Text.Basic

/-! White space, and what is cut along it. -/
namespace Runbook.Text

/-- White space of all scripts, with the four separators U+001C to U+001F. -/
def isBlank (c : Char) : Bool :=
  let n := c.toNat
  (9 ≤ n && n ≤ 13) || (28 ≤ n && n ≤ 32) || n = 0x85 || n = 0xA0 || n = 0x1680 ||
    (0x2000 ≤ n && n ≤ 0x200A) || n = 0x2028 || n = 0x2029 || n = 0x202F || n = 0x205F || n = 0x3000

/-- A space or a tab. -/
def isGap (c : Char) : Bool := c = ' ' || c = '\t'

def strip (t : Text) : Text := trim isBlank t

def stripEnd (t : Text) : Text := dropEndWhile isBlank t

def words (t : Text) : List Text := wordsBy isBlank t

/-- The first word, empty when there is none. -/
def firstWord (t : Text) : Text := (t.dropWhile isBlank).takeWhile (!isBlank ·)

/-- What ends a line for `rows`. -/
def isRowEnd (c : Char) : Bool :=
  let n := c.toNat
  (10 ≤ n && n ≤ 13) || (28 ≤ n && n ≤ 30) || n = 0x85 || n = 0x2028 || n = 0x2029

/-- Rows end at any character that can end a line; what follows the last end is a row only if it is not empty. -/
def rows : Text → List Text
  | [] => []
  | '\r' :: '\n' :: t => [] :: rows t
  | c :: t =>
    if isRowEnd c then [] :: rows t
    else match rows t with
      | [] => [[c]]
      | l :: ls => (c :: l) :: ls

theorem isBlank_of_isWhitespace {c : Char} (h : c.isWhitespace = true) : isBlank c = true := by
  simp only [Char.isWhitespace, Bool.or_eq_true, decide_eq_true_eq] at h
  rcases h with ((rfl | rfl) | rfl) | rfl <;> decide

end Runbook.Text
