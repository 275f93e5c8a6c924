import Runbook.Number.Shortest

/-!
Decimals with a given number of digits. The exact value is rounded once, a half to the even neighbour, and then laid
out with a fixed number of places, with an exponent, or in whichever of the two ways is shorter.
-/
namespace Runbook.Decimal

/-- A magnitude num / den. -/
structure Magnitude where
  num : Nat
  den : Nat
  deriving DecidableEq, Repr, Inhabited

def Magnitude.ofBinary (m : Nat) (e : Int) : Magnitude := ⟨m * 2 ^ e.toNat, 2 ^ (-e).toNat⟩

/-- The multiple of 10^-places that is nearest, counted in such steps. -/
def Magnitude.steps (x : Magnitude) (places : Int) : Nat :=
  Binary64.roundDiv (x.num * 10 ^ places.toNat) (x.den * 10 ^ (-places).toNat)

/-- The first digits, `count` of them with the rounded last one, and the exponent of the first. -/
def Magnitude.leading (x : Magnitude) (count : Nat) : Text × Int :=
  if x.num = 0 then (Text.repeated count '0', 0)
  else
    let exponent := Binary64.pointOf x.num x.den - 1
    let digits := Text.ofNat (x.steps (count - 1 - exponent))
    (digits.take count, if count < digits.length then exponent + 1 else exponent)

/-- A point stands between the two parts, unless the second one is empty and none is asked for. -/
def pointed (always : Bool) (whole fraction : Text) : Text :=
  if fraction.isEmpty ∧ ¬always then whole else whole ++ '.' :: fraction

def fixed (always : Bool) (places : Nat) (x : Magnitude) : Text :=
  let digits := Text.padLeft (places + 1) '0' (Text.ofNat (x.steps places))
  pointed always (digits.take (digits.length - places)) (digits.drop (digits.length - places))

/-- An exponent has a sign and at least two digits. -/
def exponentText (e : Int) : Text :=
  (if e < 0 then "e-" else "e+") ++ Text.padLeft 2 '0' (Text.ofNat e.natAbs)

def scientific (always : Bool) (places : Nat) (x : Magnitude) : Text :=
  let (digits, e) := x.leading (places + 1)
  pointed always (digits.take 1) (digits.drop 1) ++ exponentText e

/-- Zeros at the end of a fraction are kept only when a point is always there. -/
def trimmed (always : Bool) (fraction : Text) : Text :=
  if always then fraction else Text.dropEndWhile (· = '0') fraction

/-- Positional unless the exponent is below -4 or not below the number of digits. -/
def general (always : Bool) (count : Nat) (x : Magnitude) : Text :=
  let (digits, e) := x.leading count
  if e < -4 ∨ (count : Int) ≤ e then
    pointed always (digits.take 1) (trimmed always (digits.drop 1)) ++ exponentText e
  else
    let digits := Text.repeated (-e).toNat '0' ++ digits
    let whole := e.toNat + 1
    pointed always (digits.take whole) (trimmed always (digits.drop whole))

end Runbook.Decimal
