import Runbook.Number.Numeral
import Runbook.Value.Show

/-! Values taken as integers, as sequences and as texts, and why some cannot be. -/
namespace Runbook

inductive IntegerFault
  | numeral (written : Text)
  | tooLong (digits : Nat)
  | nan
  | infinite
  | noNumber
  deriving DecidableEq, Repr, Inhabited

def IntegerFault.message : IntegerFault → Text
  | .numeral t => "invalid literal for int() with base 10: " ++ t
  | .tooLong n => Numeral.excessText (some n)
  | .nan => "cannot convert float NaN to integer"
  | .infinite => "cannot convert float infinity to integer"
  | .noNumber => []

namespace Value

/-- Octets that a numeral may hold: ASCII without the separators, which are blank in a text only. -/
def isNumeralOctet (b : UInt8) : Bool := b < 0x1C || (0x20 ≤ b && b < 0x80)

/-- The integer of a decimal numeral that is shown as `written`. -/
def numeralInteger (written t : Text) : Except IntegerFault Int :=
  match Numeral.int? 10 t, Numeral.excess? t with
  | _, some n => .error (.tooLong n)
  | some n, none => .ok n
  | none, none => .error (.numeral written)

/-- A value as an integer: a number toward zero, a text or octets as a decimal numeral. -/
def toInteger (v : Value) : Except IntegerFault Int :=
  match v with
  | .bool b => .ok (if b then 1 else 0)
  | .int n => .ok n
  | .float .nan => .error .nan
  | .float x =>
    match x.truncate? with
    | some n => .ok n
    | none => .error .infinite
  | .text t => numeralInteger v.inner t
  | .bytes bs =>
    if bs.all isNumeralOctet then numeralInteger v.inner (bs.map fun b => Char.ofNat b.toNat)
    else .error (.numeral v.inner)
  | _ => .error .noNumber

/-- What a value consists of, one after the other: characters, octets, items or keys. -/
def elements? : Value → Option (List Value)
  | .text t => some (t.map fun c => .text [c])
  | .bytes bs => some (bs.map fun b => .int b.toNat)
  | .list xs | .tuple xs | .set xs => some xs
  | .map es => some (es.map (·.1))
  | _ => none

mutual

/-- Whether no integer in the value has too many digits to be written down. -/
def isWritable : Value → Bool
  | .int n => n.natAbs < 10 ^ Numeral.digitLimit
  | .list xs | .tuple xs | .set xs => isWritableAll xs
  | .map es => isWritableEntries es
  | _ => true

def isWritableAll : List Value → Bool
  | [] => true
  | x :: xs => isWritable x && isWritableAll xs

def isWritableEntries : List (Value × Value) → Bool
  | [] => true
  | (k, v) :: es => isWritable k && isWritable v && isWritableEntries es

end

end Value
end Runbook
