import Runbook.Yaml.Tag
import Runbook.Yaml.Cursor
import Runbook.Value.Show
import Runbook.Number.Numeral
import Runbook.Text.Lower

/-! The values that the texts of scalars stand for under the tags of YAML, and why some stand for none. -/
namespace Runbook.Yaml

def truth? (t : Text) : Option Bool :=
  let t := t.lower
  if t = "yes" ∨ t = "true" ∨ t = "on" then some true
  else if t = "no" ∨ t = "false" ∨ t = "off" then some false
  else none

/-- The sum of parts in base 60, the last one being the units. -/
def baseSixty (parts : List Int) : Int := parts.foldl (fun n p => n * 60 + p) 0

def intPart (base : Nat) (t : Text) : Except ReadFault Int :=
  match Numeral.int? base t, if base = 10 then Numeral.excess? t else none with
  | _, some n => .error (.tooLong (some n))
  | some n, none => .ok n
  | none, none => .error (.badNumber t base)

def signOf (t : Text) : Int := if t.head? = some '-' then -1 else 1

/-- Integers in base 2, 8, 10, 16 and 60. -/
def intOf (t : Text) : Except ReadFault Int := do
  let t := t.filter (· ≠ '_')
  let body := unsigned t
  match body with
  | [] => .error .noDigits
  | ['0'] => .ok 0
  | '0' :: 'b' :: ds => do .ok (signOf t * (← intPart 2 ds))
  | '0' :: 'x' :: ds => do .ok (signOf t * (← intPart 16 ds))
  | '0' :: _ => do .ok (signOf t * (← intPart 8 body))
  | _ =>
    if ':' ∈ body then do .ok (signOf t * baseSixty (← (body.splitAt ':').mapM (intPart 10)))
    else do .ok (signOf t * (← intPart 10 body))

def floatPart (t : Text) : Except ReadFault Binary64 :=
  match Numeral.float? t with
  | some x => .ok x
  | none => .error (.badDecimal t)

/-- Units first, each part times its power of 60, added up from zero. -/
def floatSixty : Nat → Binary64 → List Binary64 → Except ReadFault Binary64
  | _, sum, [] => .ok sum
  | base, sum, p :: ps =>
    match Binary64.ofInt base with
    | .finite s m e => floatSixty (base * 60) (sum.add (p.mul (.finite s m e))) ps
    | _ => .error .tooLarge

def floatOf (t : Text) : Except ReadFault Binary64 := do
  let t := Text.lower (t.filter (· ≠ '_'))
  let body := unsigned t
  let sign (x : Binary64) : Binary64 := if t.head? = some '-' then x.neg else x
  if t.isEmpty then .error .noDigits
  else if body = ".inf" then .ok (sign (.infinite false))
  else if body = ".nan" then .ok .nan
  else if ':' ∈ body then do
    let parts ← (body.splitAt ':').mapM floatPart
    .ok (sign (← floatSixty 1 .zero parts.reverse))
  else do .ok (sign (← floatPart body))

def number (ds : Text) : Nat := ds.foldl (fun n d => n * 10 + (d.toNat - 48)) 0

def dateFault (y : Nat) : Date.Fault → ReadFault
  | .year => .badDate ("year " ++ Text.ofNat y ++ " is out of range")
  | .month => .badDate "month must be in 1..12"
  | .day => .badDate "day is out of range for month"

/-- Microseconds from the digits of a fraction of a second: the first six count. -/
def microsOf (ds : Text) : Nat := number (ds.take 6 ++ Text.repeated (6 - ds.length) '0')

/-- An offset is less than a day. -/
def offsetOf (zone : Option (Bool × Text × Text)) : Except ReadFault (Option Int) :=
  match zone with
  | none => .ok none
  | some (negative, h, m) =>
    let n : Int := ((number h * 60 + number m) * 60000000 : Nat)
    let n := if negative then -n else n
    if n.natAbs < 86400000000 then .ok (some n)
    else
      let limit : Text := "timedelta(hours=24)"
      .error (.badDate ("offset must be a timedelta strictly between -" ++ limit ++ " and " ++ limit ++
        ", not " ++ Value.spanText n ++ "."))

def timestampOf (t : Text) : Except ReadFault Value :=
  match stamp? (beforeLineEnd t) with
  | none => .error .noTimestamp
  | some s => do
    let date : Except ReadFault Date := (Date.of (number s.year) (number s.month) (number s.day)).mapError
      (dateFault (number s.year))
    match s.clock with
    | none => return .date (← date)
    | some (h, m, sec, f) => do
      let offset ← offsetOf s.zone
      let d ← date
      if 23 < number h then .error (.badDate "hour must be in 0..23")
      else if 59 < number m then .error (.badDate "minute must be in 0..59")
      else if 59 < number sec then .error (.badDate "second must be in 0..59")
      else .ok (.moment ⟨d, number h, number m, number sec, microsOf f, offset⟩)

def sextet? (c : Char) : Option Nat :=
  if 'A' ≤ c ∧ c ≤ 'Z' then some (c.toNat - 65)
  else if 'a' ≤ c ∧ c ≤ 'z' then some (c.toNat - 71)
  else if '0' ≤ c ∧ c ≤ '9' then some (c.toNat + 4)
  else if c = '+' then some 62
  else if c = '/' then some 63
  else none

/-- Octets from groups of four characters that carry six bits each. Other characters are passed over; a group is
complete, or filled up with equals signs. -/
def octetsFrom : List Nat → Nat → Text → Option (List UInt8)
  | group, _, [] => if group.isEmpty then some [] else none
  | group, pads, c :: t =>
    if c = '=' then
      if group.length = 2 ∧ pads = 0 then octetsFrom group 1 t
      else if 2 ≤ group.length then some (tail group)
      else octetsFrom group pads t
    else match sextet? c with
      | none => octetsFrom group pads t
      | some v =>
        match group with
        | [x, y, z] =>
          let n := ((x * 64 + y) * 64 + z) * 64 + v
          (octetsFrom [] 0 t).map fun bs =>
            UInt8.ofNat (n / 65536) :: UInt8.ofNat (n / 256 % 256) :: UInt8.ofNat (n % 256) :: bs
        | _ => octetsFrom (group ++ [v]) 0 t
where
  tail : List Nat → List UInt8
    | [x, y] => [UInt8.ofNat ((x * 64 + y) / 16)]
    | [x, y, z] =>
      let n := (x * 64 + y) * 64 + z
      [UInt8.ofNat (n / 1024), UInt8.ofNat (n / 4 % 256)]
    | _ => []

def binaryOf (t : Text) : Except ReadFault Value :=
  if t.all fun c => c.toNat < 128 then
    match octetsFrom [] 0 t with
    | some bs => .ok (.bytes bs)
    | none => .error .malformed
  else .error .malformed

end Runbook.Yaml
