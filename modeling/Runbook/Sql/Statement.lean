import Runbook.Text.Blank
import Runbook.Text.Fold
import Runbook.Text.Lower
import Runbook.Text.WordChar

/-!
SQL texts as statements. A semicolon ends a statement unless it stands in a quoted literal or in a line comment;
nothing else is lost but blank space at both ends.
-/
namespace Runbook.Sql

inductive Mode
  | plain
  | quoted (quote : Char)
  | comment
  deriving DecidableEq, Repr

/-- The mode after a character that ends no statement, where `rest` follows it. -/
def Mode.after (mode : Mode) (c : Char) (rest : Text) : Mode :=
  match mode with
  | .comment => if c = '\n' then .plain else .comment
  | .quoted q => if c = q then .plain else .quoted q
  | .plain =>
    if c = '\x27' ∨ c = '"' then .quoted c
    else if c = '-' ∧ rest.head? = some '-' then .comment
    else .plain

/-- The stretches between the semicolons that end a statement, and the last one, which none ends. `current` holds
what is read of a stretch, last character first. -/
def stretchesFrom (mode : Mode) (current : Text) : Text → List Text × Text
  | [] => ([], current.reverse)
  | c :: t =>
    if mode = .plain ∧ c = ';' then
      let (ended, last) := stretchesFrom .plain [] t
      (current.reverse :: ended, last)
    else stretchesFrom (mode.after c t) (c :: current) t

def stretches (t : Text) : List Text × Text := stretchesFrom .plain [] t

/-- Whether every row is blank or a comment. -/
def isOnlyComments (t : Text) : Bool :=
  t.rows.all fun row => row.strip.isEmpty || row.strip.startsWith "--"

/-- A stretch as a statement with its semicolon; a blank one is none. -/
def ended? (stretch : Text) : Option Text :=
  if stretch.strip.isEmpty then none else some (stretch.strip ++ [';'])

/-- The last stretch as a statement, unless it is blank or holds comments only. -/
def last? (stretch : Text) : Option Text :=
  if stretch.strip.isEmpty ∨ isOnlyComments stretch.strip then none else some stretch.strip

def statements (t : Text) : List Text :=
  (stretches t).1.filterMap ended? ++ (last? (stretches t).2).toList

def verbs : List Text :=
  ["create", "alter", "drop", "insert", "update", "delete", "select", "with"]

/-- The verb at the start of a text, as it is written there, if no word goes on after it. -/
def verbAt? (t word : Text) : Option Text :=
  match Text.afterFolded? word t with
  | some rest => if rest.head?.any Text.isWordChar then none else some (t.take word.length)
  | none => none

/-- The verb that a text begins with, in lower case. -/
def operation (t : Text) : Text :=
  match verbs.findSome? (verbAt? (t.dropWhile Text.isBlank)) with
  | some verb => verb.lower
  | none => "unknown"

/-- The first line of a statement, cut to `limit` characters of which the last three are dots. -/
def label (limit : Int) (t : Text) : Text :=
  let first := (t.strip.cut '\n').1
  if (first.length : Int) ≤ limit then first
  else
    let kept := if 3 ≤ limit then (limit - 3).toNat else first.length - (3 - limit).toNat
    first.take kept ++ "..."

end Runbook.Sql
