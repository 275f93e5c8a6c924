import Runbook.Text.Basic
import Runbook.Calendar.Basic

/-! The tags of YAML, and the ones that the text of a plain scalar implies. -/
namespace Runbook.Yaml

inductive Tag
  | null
  | bool
  | int
  | float
  | binary
  | timestamp
  | omap
  | pairs
  | set
  | str
  | seq
  | map
  | merge
  | value
  | unknown
  deriving DecidableEq, Repr, Inhabited

namespace Tag

def names : List (Text × Tag) :=
  [("null", .null), ("bool", .bool), ("int", .int), ("float", .float), ("binary", .binary),
    ("timestamp", .timestamp), ("omap", .omap), ("pairs", .pairs), ("set", .set), ("str", .str),
    ("seq", .seq), ("map", .map), ("merge", .merge), ("value", .value)]

def ofText (t : Text) : Tag :=
  match Text.after? "tag:yaml.org,2002:" t with
  | some name => (names.lookup name).getD .unknown
  | none => .unknown

end Tag

/-- The text without one sign in front of it. -/
def unsigned : Text → Text
  | c :: t => if c = '-' ∨ c = '+' then t else c :: t
  | [] => []

def isOctal (c : Char) : Bool := '0' ≤ c && c ≤ '7'

def orUnderscore (p : Char → Bool) (c : Char) : Bool := p c || c = '_'

/-- Groups of at most two digits below 60, each after a colon, and what follows them. -/
def sixties : Nat → Text → Nat × Text
  | 0, t => (0, t)
  | fuel + 1, t =>
    match t with
    | ':' :: a :: b :: rest =>
      if a.isDigit ∧ b.isDigit ∧ a ≤ '5' then
        let (n, r) := sixties fuel rest
        (n + 1, r)
      else if a.isDigit then
        let (n, r) := sixties fuel (b :: rest)
        (n + 1, r)
      else (0, t)
    | [':', a] => if a.isDigit then (1, []) else (0, t)
    | _ => (0, t)

/-- A number in base 60: a number, then at least one group. What follows the last group. -/
def sexagesimal? (t : Text) : Option Text :=
  match t with
  | c :: rest =>
    if c.isDigit then
      match sixties t.length (rest.dropWhile (orUnderscore Char.isDigit)) with
      | (0, _) => none
      | (_, r) => some r
    else none
  | [] => none

def isBool (t : Text) : Bool :=
  t ∈ ["yes", "Yes", "YES", "no", "No", "NO", "true", "True", "TRUE", "false", "False", "FALSE",
    "on", "On", "ON", "off", "Off", "OFF"].map String.toList

def isInt (t : Text) : Bool :=
  let body := unsigned t
  match body with
  | '0' :: 'b' :: ds => !ds.isEmpty && ds.all fun c => c = '0' || c = '1' || c = '_'
  | '0' :: 'x' :: ds => !ds.isEmpty && ds.all (orUnderscore fun c => (Text.hexValue? c).isSome)
  | ['0'] => true
  | '0' :: ds => ds.all (orUnderscore isOctal)
  | c :: ds =>
    c.isDigit && (ds.all (orUnderscore Char.isDigit) || sexagesimal? body = some [])
  | [] => false

/-- An exponent with its sign, or nothing. -/
def isExponent : Text → Bool
  | [] => true
  | e :: s :: ds => (e = 'e' || e = 'E') && (s = '-' || s = '+') && !ds.isEmpty && ds.all Char.isDigit
  | _ => false

def isFloat (t : Text) : Bool :=
  let body := unsigned t
  match body with
  | '.' :: c :: rest =>
    body ∈ [".inf", ".Inf", ".INF"].map String.toList || t ∈ [".nan", ".NaN", ".NAN"].map String.toList ||
      (body = t && c.isDigit && isExponent (rest.dropWhile (orUnderscore Char.isDigit)))
  | c :: rest =>
    c.isDigit &&
      ((match rest.dropWhile (orUnderscore Char.isDigit) with
        | '.' :: rest => isExponent (rest.dropWhile (orUnderscore Char.isDigit))
        | _ => false) ||
      (match sexagesimal? body with
        | some ('.' :: rest) => rest.all (orUnderscore Char.isDigit)
        | _ => false))
  | [] => false

/-- The parts of a timestamp as their digits. The zone is zero, or a sign with hours and minutes. -/
structure Stamp where
  year : Text
  month : Text
  day : Text
  clock : Option (Text × Text × Text × Text)
  zone : Option (Bool × Text × Text)
  deriving Repr

/-- Between `least` and `most` digits, no further one after them. -/
def digits? (least most : Nat) (t : Text) : Option (Text × Text) :=
  let ds := t.takeWhile Char.isDigit
  if least ≤ ds.length ∧ ds.length ≤ most then some (ds, t.dropWhile Char.isDigit) else none

def char? (c : Char) : Text → Option Text
  | d :: t => if c = d then some t else none
  | [] => none

/-- The zone of a timestamp, up to the end of the text. -/
def zone? (t : Text) : Option (Option (Bool × Text × Text)) :=
  let isGap (c : Char) : Bool := c = ' ' || c = '\t'
  match t, t.dropWhile isGap with
  | [], _ => some none
  | _, ['Z'] => some (some (false, [], []))
  | _, c :: rest =>
    if c = '-' ∨ c = '+' then do
      let (h, rest) ← digits? 1 2 rest
      match rest with
      | [] => some (some (c = '-', h, []))
      | ':' :: rest => do
        let (m, rest) ← digits? 2 2 rest
        if rest.isEmpty then some (some (c = '-', h, m)) else none
      | _ => none
    else none
  | _, [] => none

/-- The clock of a timestamp after its date. -/
def clock? (t : Text) : Option ((Text × Text × Text × Text) × Text) := do
  let isGap (c : Char) : Bool := c = ' ' || c = '\t'
  let t ← match t with
    | c :: rest =>
      if c = 'T' ∨ c = 't' then some rest
      else if isGap c then some (rest.dropWhile isGap)
      else none
    | [] => none
  let (h, t) ← digits? 1 2 t
  let (m, t) ← digits? 2 2 (← char? ':' t)
  let (s, t) ← digits? 2 2 (← char? ':' t)
  match t with
  | '.' :: t => some ((h, m, s, t.takeWhile Char.isDigit), t.dropWhile Char.isDigit)
  | t => some ((h, m, s, []), t)

def stamp? (t : Text) : Option Stamp := do
  let (y, t) ← digits? 4 4 t
  let (m, t) ← digits? 1 2 (← char? '-' t)
  let (d, t) ← digits? 1 2 (← char? '-' t)
  if t.isEmpty then some ⟨y, m, d, none, none⟩
  else
    let (c, t) ← clock? t
    let z ← zone? t
    some ⟨y, m, d, some c, z⟩

/-- A date alone is written with two digits for month and day. -/
def isTimestamp (t : Text) : Bool :=
  match stamp? t with
  | some s => s.clock.isSome || (s.month.length = 2 && s.day.length = 2)
  | none => false

/-- The text without a line end after it, which a quoted scalar may have; it does not count for what is implied. -/
def beforeLineEnd (t : Text) : Text :=
  match t.reverse with
  | '\n' :: c :: rest => (c :: rest).reverse
  | _ => t

/-- The tag that the text of a scalar implies. -/
def Tag.implied (t : Text) : Tag :=
  let t := beforeLineEnd t
  if t ∈ ["", "~", "null", "Null", "NULL"].map String.toList then .null
  else if isBool t then .bool
  else if isFloat t then .float
  else if isInt t then .int
  else if t = "<<" then .merge
  else if isTimestamp t then .timestamp
  else if t = "=" then .value
  else if t ∈ ["!", "&", "*"].map String.toList then .unknown
  else .str

end Runbook.Yaml
