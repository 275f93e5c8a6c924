import Runbook.Value.Fault

/-! A place in a YAML text: what is still to read, and how far, on which line and in which column it stands. -/
namespace Runbook.Yaml

structure Cursor where
  rest : Text
  index : Nat
  line : Nat
  column : Nat
  deriving Repr

namespace Cursor

def ofText (t : Text) : Cursor := ⟨t, 0, 0, 0⟩

end Cursor

/-- Characters that end a line. -/
def isBreak (c : Char) : Bool :=
  c = '\n' || c = '\r' || c = '\u0085' || c = '\u2028' || c = '\u2029'

def isBreakOrSpace (c : Char) : Bool := c = ' ' || isBreak c

def isBreakOrGap (c : Char) : Bool := c = '\t' || isBreakOrSpace c

/-- Whether the text is at its end or goes on with a character of the class. -/
def endsWith (p : Char → Bool) : Text → Bool
  | [] => true
  | c :: _ => p c

/-- Whether it goes on with a character of the class. -/
def goesOn (p : Char → Bool) : Text → Bool
  | [] => false
  | c :: _ => p c

namespace Cursor

/-- One character further. A byte-order mark takes no column; of two characters that end a line together the
second one starts the next line. -/
def step (s : Cursor) : Cursor :=
  match s.rest with
  | [] => s
  | c :: t =>
    if isBreak c ∧ ¬(c = '\r' ∧ t.head? = some '\n') then ⟨t, s.index + 1, s.line + 1, 0⟩
    else if c = '\ufeff' then ⟨t, s.index + 1, s.line, s.column⟩
    else ⟨t, s.index + 1, s.line, s.column + 1⟩

def forward : Nat → Cursor → Cursor
  | 0, s => s
  | n + 1, s => forward n s.step

/-- The longest run of characters of a class, and the place after it. -/
def takeWhile (s : Cursor) (p : Char → Bool) : Text × Cursor :=
  let run := s.rest.takeWhile p
  (run, s.forward run.length)

def skipWhile (s : Cursor) (p : Char → Bool) : Cursor := (s.takeWhile p).2

def skipSpaces (s : Cursor) : Cursor := s.skipWhile (· = ' ')

/-- Spaces, but none in or after the given column. -/
def skipSpacesTo (column : Nat) (s : Cursor) : Cursor :=
  s.forward (min ((s.rest.takeWhile (· = ' ')).length) (column - s.column))

/-- A line end, if the text goes on with one, as the character that it counts as. -/
def lineBreak (s : Cursor) : Option Char × Cursor :=
  match s.rest with
  | '\r' :: '\n' :: _ => (some '\n', s.forward 2)
  | c :: _ =>
    if c = '\u2028' ∨ c = '\u2029' then (some c, s.step)
    else if isBreak c then (some '\n', s.step)
    else (none, s)
  | [] => (none, s)

/-- A comment, if one starts here. -/
def skipComment (s : Cursor) : Cursor :=
  if s.rest.head? = some '#' then s.skipWhile (!isBreak ·) else s

/-- Three marks at the start of a line with nothing but blank space after them. -/
def isMarker (mark : Char) (s : Cursor) : Bool :=
  match s.rest with
  | a :: b :: c :: t => a = mark && b = mark && c = mark && endsWith isBreakOrGap t
  | _ => false

def isDocumentMarker (s : Cursor) : Bool := s.isMarker '-' || s.isMarker '.'

end Cursor

/-- Characters that a YAML text may hold. -/
def isAllowed (c : Char) : Bool :=
  let n := c.toNat
  n = 9 || n = 10 || n = 13 || (0x20 ≤ n && n ≤ 0x7E) || n = 0x85 || (0xA0 ≤ n && n ≤ 0xD7FF) ||
    (0xE000 ≤ n && n ≤ 0xFFFD) || 0x10000 ≤ n

def isNameChar (c : Char) : Bool := c.isAlphanum || c = '-' || c = '_'

end Runbook.Yaml
