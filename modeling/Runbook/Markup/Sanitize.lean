import Runbook.Markup.Directive
import Runbook.Markup.ZeroWidth
import Runbook.Markup.ContentLink

/-!
A document without hidden characters, directive comments and content links. Taking one thing away may put
another one together, so the three passes are repeated until they change nothing.
-/
namespace Runbook.Sanitize

/-- A directive comment at the start of a text: blanks may come before its namespace. -/
def commentAtStart (t : Text) : Option Nat :=
  match t with
  | '<' :: '!' :: '-' :: '-' :: inside =>
    match Directive.namespace? (inside.dropWhile Text.isBlank) with
    | some (_, rest) => (Text.before? "-->" rest).map fun body => t.length - rest.length + body.length + 3
    | none => none
  | _ => none

def span : Text.Pattern Unit := fun _ t => (commentAtStart t).map ((), ·)

/-- What is left of a line after the blanks that may follow a comment: its end, or nothing at all. -/
def lineEnd? (t : Text) : Option Nat :=
  let blanks := (t.takeWhile Text.isGap).length
  match t.dropWhile Text.isGap with
  | [] => some blanks
  | '\n' :: _ => some (blanks + 1)
  | '\r' :: '\n' :: _ => some (blanks + 2)
  | _ => none

/-- A directive comment that is alone on its lines, together with their end. -/
def wholeLine : Text.Pattern Unit := fun before t =>
  if before = none ∨ before = some '\n' then do
    let blanks := (t.takeWhile Text.isGap).length
    let n ← commentAtStart (t.drop blanks)
    let e ← lineEnd? (t.drop (blanks + n))
    some ((), blanks + n + e)
  else none

def removeDirectives (t : Text) : Text :=
  (t.substitute wholeLine fun _ => []).substitute span fun _ => []

def neutralizeLinks (t : Text) : Text := t.substitute ContentLink.atStart ContentLink.inert

/-- Hidden characters go first: they can stand inside the marks of a directive. -/
def round (t : Text) : Text := neutralizeLinks (removeDirectives (ZeroWidth.strip t))

/-- Rounds until one changes nothing, at most `n`. -/
def settle : Nat → Text → Text
  | 0, t => t
  | n + 1, t => if round t = t then t else settle n (round t)

/-- A round that changes a text makes it shorter, so there are no more rounds than characters. -/
def sanitize (t : Text) : Text := settle t.length t

end Runbook.Sanitize
