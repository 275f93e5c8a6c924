import Runbook.Text.Basic

/-!
Binary floating-point numbers of 64 bits in exact arithmetic: a number is ± m · 2^e with m below 2^53
and e at least -1074, and every operation rounds the exact result to the nearest such number.
-/
namespace Runbook

inductive Binary64
  | nan
  | infinite (negative : Bool)
  | finite (negative : Bool) (mantissa : Nat) (exponent : Int)
  deriving DecidableEq, Repr, Inhabited

namespace Binary64

def zero : Binary64 := .finite false 0 (-1074)

/-- The quotient rounded to nearest, a half to the even neighbour. -/
def roundDiv (num den : Nat) : Nat :=
  let q := num / den
  let r := num % den
  if den < 2 * r ∨ (2 * r = den ∧ q % 2 = 1) then q + 1 else q

/-- The number nearest to ± num / den. -/
def ofRatio (negative : Bool) (num den : Nat) : Binary64 :=
  if num = 0 then .finite negative 0 (-1074)
  else
    let low : Int := (num.log2 : Int) - den.log2 - 53
    let scaled (e : Int) : Nat × Nat := (num * 2 ^ (-e).toNat, den * 2 ^ e.toNat)
    let full (e : Int) : Bool := 2 ^ 53 * (scaled e).2 ≤ (scaled e).1
    let e := max (if full low then low + 1 else low) (-1074)
    let m := roundDiv (scaled e).1 (scaled e).2
    let (m, e) := if m = 2 ^ 53 then (2 ^ 52, e + 1) else (m, e)
    if 971 < e then .infinite negative else .finite negative m e

def ofInt (n : Int) : Binary64 := ofRatio (n < 0) n.natAbs 1

/-- The number nearest to ± digits · 10^e. Exponents far outside the range are settled at once. -/
def ofDecimal (negative : Bool) (digits : Nat) (e : Int) : Binary64 :=
  let magnitude : Int := (Nat.toDigits 10 digits).length + e
  if digits = 0 then .finite negative 0 (-1074)
  else if 310 < magnitude then .infinite negative
  else if magnitude < -330 then .finite negative 0 (-1074)
  else ofRatio negative (digits * 10 ^ e.toNat) (10 ^ (-e).toNat)

def isZero : Binary64 → Bool
  | .finite _ 0 _ => true
  | _ => false

def neg : Binary64 → Binary64
  | .nan => .nan
  | .infinite s => .infinite !s
  | .finite s m e => .finite (!s) m e

/-- The exact value as a signed numerator over a denominator. -/
def ratio (negative : Bool) (m : Nat) (e : Int) : Int × Nat :=
  let num : Nat := m * 2 ^ e.toNat
  ((if negative then -(num : Int) else num), 2 ^ (-e).toNat)

def mul : Binary64 → Binary64 → Binary64
  | .nan, _ | _, .nan => .nan
  | .infinite s, x => if x.isZero then .nan else .infinite (s != sign x)
  | x, .infinite s => if x.isZero then .nan else .infinite (s != sign x)
  | .finite s m e, .finite s' m' e' =>
    let k := e + e'
    ofRatio (s != s') (m * m' * 2 ^ k.toNat) (2 ^ (-k).toNat)
where
  sign : Binary64 → Bool
    | .nan => false
    | .infinite s | .finite s _ _ => s

def add : Binary64 → Binary64 → Binary64
  | .nan, _ | _, .nan => .nan
  | .infinite s, .infinite s' => if s = s' then .infinite s else .nan
  | .infinite s, _ | _, .infinite s => .infinite s
  | .finite s m e, .finite s' m' e' =>
    let (n, d) := ratio s m e
    let (n', d') := ratio s' m' e'
    let sum := n * d' + n' * d
    if sum = 0 then .finite (s && s') 0 (-1074) else ofRatio (sum < 0) sum.natAbs (d * d')

/-- The integer part, toward zero; there is none without a finite value. -/
def truncate? : Binary64 → Option Int
  | .finite s m e =>
    let n : Nat := m * 2 ^ e.toNat / 2 ^ (-e).toNat
    some (if s then -(n : Int) else n)
  | _ => none

/-- The integer that the number equals, if there is one. -/
def toInt? : Binary64 → Option Int
  | .finite s m e =>
    if m * 2 ^ e.toNat % 2 ^ (-e).toNat = 0 then
      let n : Nat := m * 2 ^ e.toNat / 2 ^ (-e).toNat
      some (if s then -(n : Int) else n)
    else none
  | _ => none

end Binary64
end Runbook
