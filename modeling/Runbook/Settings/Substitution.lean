import Runbook.Text.Pieces
import Runbook.Value.Basic

/-!
Environment variables in settings. Every text below a value may name variables as a dollar sign with the name in braces;
each place is replaced once, and the shape of the value stays.
-/
namespace Runbook.Substitution

/-- A variable at the start of the text: its name is not empty and goes up to the first closing brace. -/
def variableAt : Text.Pattern Text := fun _ t =>
  match t with
  | '$' :: '\x7b' :: rest =>
    let name := rest.takeWhile (· ≠ '\x7d')
    if name = [] ∨ name.length = rest.length then none else some (name, name.length + 3)
  | _ => none

/-- The text of all pieces; the first variable that is not set is the error. -/
def fill (environment : Fields Text) : List (Text.Piece Text) → Except Text Text
  | [] => .ok []
  | .plain c :: ps => (c :: ·) <$> fill environment ps
  | .hit name _ :: ps =>
    match Fields.get? name environment with
    | some value => (value ++ ·) <$> fill environment ps
    | none => .error name

def text (environment : Fields Text) (t : Text) : Except Text Text :=
  fill environment (Text.pieces variableAt t)

mutual

def value (environment : Fields Text) : Value → Except Text Value
  | .text t => .text <$> text environment t
  | .list xs => .list <$> values environment xs
  | .map es => .map <$> entries environment es
  | v => .ok v

def values (environment : Fields Text) : List Value → Except Text (List Value)
  | [] => .ok []
  | x :: xs => do
    let x ← value environment x
    .ok (x :: (← values environment xs))

def entries (environment : Fields Text) : List (Value × Value) → Except Text (List (Value × Value))
  | [] => .ok []
  | (k, v) :: es => do
    let v ← value environment v
    .ok ((k, v) :: (← entries environment es))

end

end Runbook.Substitution
