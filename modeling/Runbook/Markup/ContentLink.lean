import Runbook.Text.Pieces
import Runbook.Text.Blank
import Runbook.Text.Lower
import Runbook.Value.Basic

/-! Links whose target is a content hash: 40 or more hexadecimal digits. -/
namespace Runbook

structure ContentLink where
  text : Text
  hash : Text
  line : Nat
  deriving DecidableEq, Repr, Inhabited

namespace ContentLink

def isHexDigit (c : Char) : Bool := (Text.hexValue? c).isSome

/-- The target of a link after its opening parenthesis, and what follows the closing one. -/
def target? (t : Text) : Option (Text × Text) :=
  let t := t.dropWhile Text.isBlank
  let hash := t.takeWhile isHexDigit
  match (t.dropWhile isHexDigit).dropWhile Text.isBlank with
  | ')' :: rest => if 40 ≤ hash.length then some (hash, rest) else none
  | _ => none

/-- A link at the start of a text: its text, which holds no closing bracket, and its hash. -/
def atStart : Text.Pattern (Text × Text) := fun _ t =>
  match t with
  | '[' :: inside =>
    match inside.dropWhile (· ≠ ']') with
    | ']' :: '(' :: after =>
      (target? after).map fun (hash, rest) =>
        ((inside.takeWhile (· ≠ ']'), hash), t.length - rest.length)
    | _ => none
  | _ => none

def all (t : Text) : List ContentLink :=
  (Text.hits atStart t).map fun h => ⟨h.value.1, h.value.2.lower, h.line⟩

/-- A link with the same text and an empty target. -/
def inert (link : Text × Text) : Text := '[' :: link.1 ++ "](#)"

def toValue (l : ContentLink) : Value :=
  .ofFields (
    Fields.one "text" (.text l.text) ++ Fields.one "hash" (.text l.hash) ++
    Fields.one "line" (.int l.line))

end ContentLink
end Runbook
