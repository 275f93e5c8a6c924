import Runbook.Text.Basic

/-!
Paths as they are written and places as they are found. A path may be relative and may step back; a place is the list
of names from the root of all files, with no step left in it.
-/
namespace Runbook

/-- Written names below a number of opening slashes, of which a relative path has none. -/
structure Path where
  slashes : Nat := 0
  names : List Text := []
  deriving DecidableEq, Repr, Inhabited

abbrev Place := List Text

namespace Path

def isName (t : Text) : Bool := t ≠ [] && t ≠ ['.']

/-- Two opening slashes are kept, any other number is one. -/
def ofText (t : Text) : Path :=
  let opening := (t.takeWhile (· = '/')).length
  ⟨if opening ≤ 2 then opening else 1, (t.splitAt '/').filter isName⟩

def isAbsolute (p : Path) : Bool := p.slashes ≠ 0

def toText (p : Path) : Text :=
  if p.isAbsolute ∨ p.names ≠ [] then Text.repeated p.slashes '/' ++ Text.join "/" p.names
  else "."

/-- An absolute path stays what it is below any other. -/
def below (base p : Path) : Path :=
  if p.isAbsolute then p else { base with names := base.names ++ p.names }

def child (p : Path) (name : Text) : Path := { p with names := p.names ++ [name] }

def parent (p : Path) : Path := { p with names := p.names.dropLast }

def ofPlace (place : Place) : Path := ⟨1, place⟩

end Path

namespace Place

def toText (place : Place) : Text := (Path.ofPlace place).toText

/-- The place after one more name; a step back from the root goes nowhere. -/
def step (place : Place) (name : Text) : Place :=
  if name = ".." then place.dropLast else place ++ [name]

/-- Where a path leads from a place. -/
def follow (place : Place) (p : Path) : Place :=
  p.names.foldl step (if p.isAbsolute then [] else place)

def isWithin (place root : Place) : Bool := root.isPrefixOf place

/-- The place of a path below a root, unless it is the root or leads out of it. -/
def inside? (root : Place) (p : Path) : Option Place :=
  let place := follow root p
  if place ≠ root ∧ isWithin place root then some place else none

end Place
end Runbook
