import Runbook.Number.Binary64

/-!
The shortest decimal that reads back as the same number, and its layout: positional while the decimal
point stands within 16 places right or 3 places left of the first digit, with an exponent otherwise.
-/
namespace Runbook.Binary64

/-- Digits d and exponent k of the decimal d · 10^k with `count` digits that lies nearest to the number
4 · m units, if it lies between `lo` and `hi` units, the ends included when `closed`. One unit is
num / den. -/
def nearestOn (lo mid hi num den : Nat) (closed : Bool) (k : Int) : Option Nat :=
  let up := 10 ^ k.toNat
  let down := 10 ^ (-k).toNat
  let within (d : Nat) : Bool :=
    let x := d * up * den
    let l := lo * num * down
    let h := hi * num * down
    if closed then l ≤ x && x ≤ h else l < x && x < h
  let floor := mid * num * down / (den * up)
  let below := mid * num * down - floor * up * den
  let above := (floor + 1) * up * den - mid * num * down
  match within floor, within (floor + 1) with
  | true, true => some (if below < above ∨ (below = above ∧ floor % 2 = 0) then floor else floor + 1)
  | true, false => some floor
  | false, true => some (floor + 1)
  | false, false => none

/-- The count of places before the decimal point of num / den, at most zero for a fraction below 1/10. -/
def pointOf (num den : Nat) : Int :=
  let guess : Int := (Nat.toDigits 10 num).length - (Nat.toDigits 10 den).length
  if num * 10 ^ (-guess).toNat < den * 10 ^ guess.toNat then guess else guess + 1

/-- The fewest digits that read back as m · 2^e, nearest first, with the exponent of the last one. -/
def shortestDigits (m : Nat) (e : Int) : Nat × Int :=
  let num := 2 ^ (e - 2).toNat
  let den := 2 ^ (2 - e).toNat
  let lo := if m = 2 ^ 52 ∧ -1074 < e then 4 * m - 1 else 4 * m - 2
  let point := pointOf (4 * m * num) den
  let grids : List Int := (List.range 17).map fun (i : Nat) => point - (i + 1 : Nat)
  let found := grids.findSome? fun k =>
    (nearestOn lo (4 * m) (4 * m + 2) num den (m % 2 = 0) k).map (·, k)
  found.getD (m, e)

/-- Digits around a decimal point that stands `point` places after the start of the first one. -/
def layout (digits : Text) (point : Int) : Text :=
  let n : Int := digits.length
  if -4 < point ∧ point ≤ 16 then
    if point ≤ 0 then "0." ++ Text.repeated (-point).toNat '0' ++ digits
    else if n ≤ point then digits ++ Text.repeated (point - n).toNat '0' ++ ".0"
    else digits.take point.toNat ++ "." ++ digits.drop point.toNat
  else
    let e := point - 1
    let fraction : Text := if digits.length ≤ 1 then [] else '.' :: digits.drop 1
    let sign : Text := if e < 0 then "-" else "+"
    digits.take 1 ++ fraction ++ "e" ++ sign ++ Text.padLeft 2 '0' (Text.ofNat e.natAbs)

/-- Digits without the zeros at their end, the exponent raised instead. -/
def dropZeros (digits : Text) (k : Int) : Text × Int :=
  let kept := Text.dropEndWhile (· = '0') digits
  (kept, k + (digits.length - kept.length : Nat))

def toText : Binary64 → Text
  | .nan => "nan"
  | .infinite s => if s then "-inf" else "inf"
  | .finite s m e =>
    let body : Text :=
      if m = 0 then "0.0"
      else
        let (d, k) := shortestDigits m e
        let (digits, k) := dropZeros (Text.ofNat d) k
        layout digits (digits.length + k)
    if s then '-' :: body else body

end Runbook.Binary64
