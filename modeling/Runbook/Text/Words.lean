import Runbook.Text.Basic

/-!
Shell words. A word ends at a space, tab or line end; single quotes keep all, double quotes all but the
backslash before a double quote or a backslash, and a backslash outside quotes the next character.
-/
namespace Runbook.Words

def isSpace (c : Char) : Bool := c = ' ' || c = '\t' || c = '\r' || c = '\n'

def isQuote (c : Char) : Bool := c = '"' || c = '\x27'

inductive State
  | between
  | bare
  | quoted (quote : Char)
  | escaped
  | escapedInDouble
  deriving DecidableEq, Repr

inductive Fault
  | openQuote
  | openEscape
  deriving DecidableEq, Repr

/-- The words of a text, where `word` holds what is read of the current one, last character first. -/
def splitFrom : State → Text → Text → Except Fault (List Text)
  | .between, _, [] => .ok []
  | .bare, word, [] => .ok [word.reverse]
  | .quoted _, _, [] => .error .openQuote
  | .escaped, _, [] | .escapedInDouble, _, [] => .error .openEscape
  | .between, _, c :: t =>
    if isSpace c then splitFrom .between [] t
    else if isQuote c then splitFrom (.quoted c) [] t
    else if c = '\\' then splitFrom .escaped [] t
    else splitFrom .bare [c] t
  | .bare, word, c :: t =>
    if isSpace c then (word.reverse :: ·) <$> splitFrom .between [] t
    else if isQuote c then splitFrom (.quoted c) word t
    else if c = '\\' then splitFrom .escaped word t
    else splitFrom .bare (c :: word) t
  | .quoted q, word, c :: t =>
    if c = q then splitFrom .bare word t
    else if c = '\\' ∧ q = '"' then splitFrom .escapedInDouble word t
    else splitFrom (.quoted q) (c :: word) t
  | .escaped, word, c :: t => splitFrom .bare (c :: word) t
  | .escapedInDouble, word, c :: t =>
    if c = '\\' ∨ c = '"' then splitFrom (.quoted '"') (c :: word) t
    else splitFrom (.quoted '"') (c :: '\\' :: word) t

def split (t : Text) : Except Fault (List Text) := splitFrom .between [] t

/-- Characters that need no quotes. -/
def isSafe (c : Char) : Bool :=
  c.isAlphanum || c = '_' || c = '@' || c = '%' || c = '+' || c = '=' || c = ':' || c = ',' || c = '.' ||
    c = '/' || c = '-'

/-- A single quote inside single quotes: they end, it stands in double ones, they start again. -/
def quoteChar (c : Char) : Text := if c = '\x27' then "'\"'\"'" else [c]

/-- One shell word that reads as the text. -/
def quote (t : Text) : Text :=
  if t.isEmpty then "''"
  else if t.all isSafe then t
  else '\x27' :: t.flatMap quoteChar ++ ['\x27']

def joined (ts : List Text) : Text := Text.join " " (ts.map quote)

end Runbook.Words
