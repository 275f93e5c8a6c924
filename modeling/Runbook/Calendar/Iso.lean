import Runbook.Calendar.Basic
import Runbook.Text.Utf8

/-!
Moments written by the ISO rules: calendar or week dates, with or without separators, then any one character, a clock
reading and a zone. Texts are read as their UTF-8 octets, and a reading past the end finds NUL.
-/
namespace Runbook.Iso

def headOf (t : Text) : Char := t.headD '\x00'

/-- The number that the first `n` characters write, if all are ASCII digits, and the rest. -/
def digits? (n : Nat) (t : Text) : Option (Nat × Text) :=
  let ds := t.take n
  if ds.length = n ∧ ds.all Char.isDigit then
    some (ds.foldl (fun v d => v * 10 + (d.toNat - '0'.toNat)) 0, t.drop n)
  else none

/-- The length of the date: without separators a week date may have a day or not, which the number of digits
after it tells. -/
def dateLength? (t : Text) : Option Nat :=
  let at5 := t.getD 5 '\x00'
  if t.length = 7 then some 7
  else if t.getD 4 '\x00' = '-' then
    if at5 = 'W' ∧ 8 < t.length ∧ t.getD 8 '\x00' = '-' then
      if t.length = 9 then none
      else if 10 < t.length ∧ (t.getD 10 '\x00').isDigit then some 8
      else some 10
    else if at5 = 'W' then some 8
    else some 10
  else if t.getD 4 '\x00' = 'W' then
    let digitsEnd := 7 + ((t.drop 7).takeWhile Char.isDigit).length
    if digitsEnd < 9 then some digitsEnd
    else if digitsEnd % 2 = 0 then some 7
    else some 8
  else some 8

/-- Monday counts as 0. -/
def weekday (ordinal : Nat) : Nat := (ordinal + 6) % 7

/-- The ordinal of the Monday of the first week of a year, the week that holds its first Thursday. -/
def firstMonday (year : Nat) : Nat :=
  let first := Date.daysBeforeYear year + 1
  let monday := first - weekday first
  if weekday first > 3 then monday + 7 else monday

def hasLongYear (year : Nat) : Bool :=
  let first := weekday (Date.daysBeforeYear year + 1)
  first = 3 || (first = 2 && Date.isLeap year)

def ofWeek? (year week day : Nat) : Option Date :=
  let weekIsThere := (1 ≤ week ∧ week ≤ 52) ∨ (week = 53 ∧ hasLongYear year)
  if 1 ≤ year ∧ year ≤ 9999 ∧ weekIsThere ∧ 1 ≤ day ∧ day ≤ 7 then
    let ordinal := firstMonday year + (week - 1) * 7 + (day - 1)
    if ordinal ≤ Date.ordinal ⟨9999, 12, 31⟩ then some (Date.ofOrdinal ordinal) else none
  else none

/-- What follows a separator, where one is due. -/
def past? (separated : Bool) (t : Text) : Option Text :=
  if separated then if headOf t = '-' then some (t.drop 1) else none else some t

/-- A date at the start of the text; a week date that ends at `length` has no day and means Monday. -/
def date? (length : Nat) (t : Text) : Option Date := do
  let (year, rest) ← digits? 4 t
  let separated := headOf rest = '-'
  let rest := if separated then rest.drop 1 else rest
  if headOf rest = 'W' then
    let (week, rest) ← digits? 2 (rest.drop 1)
    if t.length - rest.length < length then
      let (day, _) ← digits? 1 (← past? separated rest)
      ofWeek? year week day
    else ofWeek? year week 1
  else
    let (month, rest) ← digits? 2 rest
    let (day, _) ← digits? 2 (← past? separated rest)
    (Date.of year month day).toOption

/-- Hours, minutes, seconds and microseconds, and whether anything is left unread. -/
structure Reading where
  fields : List Nat
  micro : Nat
  hasRest : Bool
  deriving DecidableEq, Repr

def fraction? (fields : List Nat) (n : Nat) (t : Text) : Option Reading := do
  let places := min 6 n
  let (micro, rest) ← digits? places t
  some ⟨fields, micro * 10 ^ (6 - places), headOf (rest.dropWhile Char.isDigit) ≠ '\x00'⟩

/-- Up to `left` more fields in the next `n` characters; whether colons stand between them shows after the first. -/
def fields? : Nat → Option Bool → List Nat → Nat → Text → Option Reading
  | 0, _, fields, n, t => fraction? fields n t
  | left + 1, colons, fields, n, t => do
    let (v, rest) ← digits? 2 t
    let c := headOf rest
    let fields := fields ++ [v]
    let colons := colons.getD (c = ':')
    if n ≤ 3 then some ⟨fields, 0, c ≠ '\x00'⟩
    else if colons ∧ c = ':' then fields? left colons fields (n - 3) (rest.drop 1)
    else if c = '.' ∨ c = ',' then fraction? fields (n - 3) (rest.drop 1)
    else if colons then none
    else fields? left colons fields (n - 2) rest

def clock? (n : Nat) (t : Text) : Option Reading := fields? 3 none [] n t

def Reading.part (r : Reading) (i : Nat) : Nat := r.fields.getD i 0

def Reading.micros (r : Reading) : Nat :=
  ((r.part 0 * 60 + r.part 1) * 60 + r.part 2) * 1000000 + r.micro

def isZoneMark (c : Char) : Bool := c = '+' || c = '-' || c = 'Z'

def microsPerDay : Nat := 86400000000

/-- A zone from its mark on. -/
def zone? (t : Text) : Option Int := do
  if headOf t = 'Z' then
    if headOf (t.drop 1) = '\x00' then some 0 else none
  else
    let r ← clock? (t.length - 1) (t.drop 1)
    if r.hasRest ∨ microsPerDay ≤ r.micros then none
    else some (if headOf t = '-' then -(r.micros : Int) else r.micros)

def moment (d : Date) (r : Reading) (offset : Option Int) : Option Moment :=
  if r.part 0 < 24 ∧ r.part 1 < 60 ∧ r.part 2 < 60 then
    some ⟨d, r.part 0, r.part 1, r.part 2, r.micro, offset⟩
  else none

/-- A clock reading with its zone on a date. -/
def timed? (d : Date) (t : Text) : Option Moment := do
  let reading := t.takeWhile (!isZoneMark ·)
  let zone := t.drop reading.length
  let r ← clock? reading.length t
  if zone.isEmpty then
    if r.hasRest then none else moment d r none
  else moment d r (some (← zone? zone))

/-- The octets of the character after the date, by the first of them. -/
def separatorLength (c : Char) : Nat :=
  if c.toNat < 0x80 then 1
  else if c.toNat / 16 = 0xE then 3
  else if c.toNat / 16 = 0xF then 4
  else 2

def octets (t : Text) : Text := (Text.utf8 t).map fun b => Char.ofNat b.toNat

/-- A moment by the ISO rules; without a clock reading it is midnight. -/
def moment? (t : Text) : Option Moment := do
  let bytes := octets t
  if bytes.length < 7 then none
  else
    let length ← dateLength? bytes
    let d ← date? length bytes
    if length < bytes.length then
      let rest := bytes.drop length
      timed? d (rest.drop (separatorLength (headOf rest)))
    else some ⟨d, 0, 0, 0, 0, none⟩

end Runbook.Iso
