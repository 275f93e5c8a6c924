import Runbook.Text.Basic

/-!
Dates of the proleptic Gregorian calendar in the years 1 to 9999, and moments with an optional offset
from universal time.
-/
namespace Runbook

structure Date where
  year : Nat
  month : Nat
  day : Nat
  deriving DecidableEq, Repr, Inhabited

/-- A moment of a clock, with microseconds; the offset, if any, is its lead over universal time. -/
structure Moment where
  date : Date
  hour : Nat
  minute : Nat
  second : Nat
  micro : Nat
  offset : Option Int
  deriving DecidableEq, Repr, Inhabited

namespace Date

def isLeap (y : Nat) : Bool := y % 4 = 0 && (y % 100 ≠ 0 || y % 400 = 0)

def daysInMonth (y m : Nat) : Nat :=
  if m = 2 then if isLeap y then 29 else 28
  else if m = 4 ∨ m = 6 ∨ m = 9 ∨ m = 11 then 30 else 31

def daysBeforeYear (y : Nat) : Nat := (y - 1) * 365 + (y - 1) / 4 - (y - 1) / 100 + (y - 1) / 400

def daysBeforeMonth (y m : Nat) : Nat :=
  ((List.range (m - 1)).map fun i => daysInMonth y (i + 1)).foldr (· + ·) 0

/-- Days since the day before 1 January of the year 1. -/
def ordinal (d : Date) : Nat := daysBeforeYear d.year + daysBeforeMonth d.year d.month + d.day

inductive Fault
  | year
  | month
  | day
  deriving DecidableEq, Repr

/-- The date, when it exists; otherwise the first part that is out of its range. -/
def of (y m d : Nat) : Except Fault Date :=
  if y < 1 ∨ 9999 < y then .error .year
  else if m < 1 ∨ 12 < m then .error .month
  else if d < 1 ∨ daysInMonth y m < d then .error .day
  else .ok ⟨y, m, d⟩

def monthOf (y n : Nat) : Nat → Nat → Nat × Nat
  | 0, m => (m, n)
  | fuel + 1, m => if n ≤ daysInMonth y m then (m, n) else monthOf y (n - daysInMonth y m) fuel (m + 1)

/-- The date of an ordinal, which counts from 1. -/
def ofOrdinal (n : Nat) : Date :=
  let guess := (n - 1) * 400 / 146097 + 1
  let y := if daysBeforeYear (guess + 1) < n then guess + 1
    else if n ≤ daysBeforeYear guess then guess - 1 else guess
  let (m, d) := monthOf y (n - daysBeforeYear y) 11 1
  ⟨y, m, d⟩

def toText (d : Date) : Text :=
  Text.padLeft 4 '0' (Text.ofNat d.year) ++ "-" ++ Text.padLeft 2 '0' (Text.ofNat d.month) ++ "-" ++
    Text.padLeft 2 '0' (Text.ofNat d.day)

end Date

namespace Moment

def microsPerDay : Int := 86400000000

/-- Microseconds of the clock reading since the start of the day before 1 January of the year 1. -/
def micros (t : Moment) : Int :=
  (t.date.ordinal : Int) * microsPerDay +
    (((t.hour * 60 + t.minute) * 60 + t.second) * 1000000 + t.micro : Nat)

def ofMicros (n : Int) (offset : Option Int) : Moment :=
  let day := n / microsPerDay
  let r := (n % microsPerDay).toNat
  let s := r / 1000000
  ⟨Date.ofOrdinal day.toNat, s / 3600, s / 60 % 60, s % 60, r % 1000000, offset⟩

/-- The same instant on the clock of universal time, a moment without offset being on it already.
There is none outside the years 1 to 9999. -/
def toUniversal? (t : Moment) : Option Moment :=
  let n := t.micros - t.offset.getD 0
  if n / microsPerDay < 1 ∨ (Date.ordinal ⟨9999, 12, 31⟩ : Int) < n / microsPerDay then none
  else some (ofMicros n (some 0))

def two (n : Nat) : Text := Text.padLeft 2 '0' (Text.ofNat n)

/-- Offset as sign, hours and minutes, with seconds and microseconds where there are any. -/
def offsetText (o : Int) : Text :=
  let n := o.natAbs
  let s := n / 1000000
  let sign : Text := if o < 0 then "-" else "+"
  let rest : Text :=
    if n % 1000000 ≠ 0 then ":" ++ two (s % 60) ++ "." ++ Text.padLeft 6 '0' (Text.ofNat (n % 1000000))
    else if s % 60 ≠ 0 then ":" ++ two (s % 60) else []
  sign ++ two (s / 3600) ++ ":" ++ two (s / 60 % 60) ++ rest

/-- Date and clock with the given character between them. -/
def toText (between : Char) (t : Moment) : Text :=
  let fraction : Text := if t.micro = 0 then [] else '.' :: Text.padLeft 6 '0' (Text.ofNat t.micro)
  t.date.toText ++ [between] ++ two t.hour ++ ":" ++ two t.minute ++ ":" ++ two t.second ++ fraction ++
    (match t.offset with
      | none => []
      | some o => offsetText o)

end Moment
end Runbook
