import Runbook.Text.Basic

/-!
Leftmost matches that do not overlap. A pattern looks at the start of a text, and at the character
before it, and says what it reads there and how many characters that takes. `pieces` cuts a whole text
into what the pattern reads and the single characters between; put together again, the pieces are the text.
-/
namespace Runbook.Text

variable {α : Type}

/-- A reading of no characters does not count. -/
abbrev Pattern (α : Type) := Option Char → Text → Option (α × Nat)

inductive Piece (α : Type)
  | plain (c : Char)
  | hit (a : α) (source : Text)
  deriving Repr

def Piece.source : Piece α → Text
  | .plain c => [c]
  | .hit _ s => s

/-- `skip` characters belong to the last hit. -/
def piecesFrom (m : Pattern α) : Option Char → Nat → Text → List (Piece α)
  | _, _, [] => []
  | _, k + 1, c :: t => piecesFrom m (some c) k t
  | before, 0, c :: t =>
    match m before (c :: t) with
    | some (a, n + 1) => .hit a ((c :: t).take (n + 1)) :: piecesFrom m (some c) n t
    | _ => .plain c :: piecesFrom m (some c) 0 t

def pieces (m : Pattern α) (t : Text) : List (Piece α) := piecesFrom m none 0 t

/-- A hit with its offset, its number of characters and its line, counted from 1. -/
structure Hit (α : Type) where
  value : α
  offset : Nat
  length : Nat
  line : Nat
  deriving Repr

def hitsFrom : Nat → Nat → List (Piece α) → List (Hit α)
  | _, _, [] => []
  | o, l, .plain c :: ps => hitsFrom (o + 1) (if c = '\n' then l + 1 else l) ps
  | o, l, .hit a s :: ps => ⟨a, o, s.length, l⟩ :: hitsFrom (o + s.length) (l + s.count '\n') ps

def hits (m : Pattern α) (t : Text) : List (Hit α) := hitsFrom 0 1 (pieces m t)

/-- Each hit replaced, the rest kept. -/
def substitute (m : Pattern α) (f : α → Text) (t : Text) : Text :=
  (pieces m t).flatMap fun
    | .plain c => [c]
    | .hit a _ => f a

/-- Each place where `old` stands replaced. -/
def replace (old new t : Text) : Text :=
  substitute (fun _ t => if old.isPrefixOf t then some ((), old.length) else none) (fun _ => new) t

/-- Runs of characters of a class, as long as possible. -/
def runOf (p : Char → Bool) : Pattern Text := fun _ t =>
  let run := t.takeWhile p
  some (run, run.length)

/-- Whether the pattern reads something anywhere. -/
def meets (m : Pattern α) (t : Text) : Bool := !(hits m t).isEmpty

/-- The text up to the first place where `p` stands. -/
def before? (p : Text) : Text → Option Text
  | [] => if p.isEmpty then some [] else none
  | c :: t => if p.isPrefixOf (c :: t) then some [] else (before? p t).map (c :: ·)

theorem source_piecesFrom (m : Pattern α) (b : Option Char) (k : Nat) (t : Text) :
    (piecesFrom m b k t).flatMap Piece.source = t.drop k := by
  fun_induction piecesFrom m b k t with
  | case1 => simp
  | case2 _ k c t ih => simpa using ih
  | case3 b c t a n h ih => simp [Piece.source, ih]
  | case4 b c t h ih => simpa [Piece.source] using ih

theorem source_pieces (m : Pattern α) (t : Text) : (pieces m t).flatMap Piece.source = t := by
  simp [pieces, source_piecesFrom]

end Runbook.Text
