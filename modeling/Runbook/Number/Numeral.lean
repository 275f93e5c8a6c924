import Runbook.Number.Binary64
import Runbook.Text.Blank
import Runbook.Text.Digit

/-!
Numerals as people write them: blanks around, a sign, digits of any script, and single underscores between
digits.
-/
namespace Runbook.Numeral

/-- The value of a digit in a base of at most 16. -/
def digit? (base : Nat) (c : Char) : Option Nat :=
  let v := match Text.digitValue? c with
    | some d => some d
    | none => Text.hexValue? c
  v.bind fun d => if d < base then some d else none

/-- Digits with single underscores between them, as their values. -/
def digits? (base : Nat) : Text → Option (List Nat)
  | [] => none
  | [c] => (digit? base c).map ([·])
  | c :: '_' :: t => do
    let d ← digit? base c
    let ds ← digits? base t
    some (d :: ds)
  | c :: t => do
    let d ← digit? base c
    let ds ← digits? base t
    some (d :: ds)

/-- The letter after a zero that announces the base. -/
def baseMark (base : Nat) (c : Char) : Bool :=
  (base = 2 && (c = 'b' || c = 'B')) || (base = 8 && (c = 'o' || c = 'O')) ||
    (base = 16 && (c = 'x' || c = 'X'))

/-- The digits without an announcement of the base, and without the underscore that may follow it. -/
def unmarked (base : Nat) : Text → Text
  | '0' :: c :: '_' :: t => if baseMark base c then t else '0' :: c :: '_' :: t
  | '0' :: c :: t => if baseMark base c then t else '0' :: c :: t
  | t => t

def signed (t : Text) : Bool × Text :=
  match t with
  | '-' :: t => (true, t)
  | '+' :: t => (false, t)
  | t => (false, t)

def int? (base : Nat) (t : Text) : Option Int := do
  let (negative, body) := signed t.strip
  let ds ← digits? base (unmarked base body)
  let n : Int := Text.numberOf base ds
  some (if negative then -n else n)

/-- Digits up to the first character that cannot go on a run of digits and underscores. -/
def run (t : Text) : Text × Text := t.span fun c => Text.isDigit c || c = '_'

/-- The most digits of a decimal numeral that is read as an integer. -/
def digitLimit : Nat := 4300

/-- The number of digits, if they are too many. -/
def excess? (t : Text) : Option Nat :=
  let n := ((run (signed t.strip).2).1.filter (· ≠ '_')).length
  if digitLimit < n then some n else none

/-- The number of digits is told of a numeral that is read, not of an integer that would have to be written. -/
def excessText (digits : Option Nat) : Text :=
  let told : Text := match digits with
    | some n => ": value has " ++ Text.ofNat n ++ " digits"
    | none => []
  "Exceeds the limit (" ++ Text.ofNat digitLimit ++ " digits) for integer string conversion" ++ told ++
    "; use sys.set_int_max_str_digits() to increase the limit"

/-- The digits of a run; an empty run has none. -/
def runDigits? (t : Text) : Option (List Nat) := if t.isEmpty then some [] else digits? 10 t

/-- The exponent after a decimal, up to the end of the text. -/
def exponent? (t : Text) : Option Int :=
  match t with
  | [] => some 0
  | c :: t =>
    if c = 'e' ∨ c = 'E' then do
      let (negative, body) := signed t
      let ds ← digits? 10 body
      let n : Int := Text.numberOf 10 ds
      some (if negative then -n else n)
    else none

def float? (t : Text) : Option Binary64 := do
  let (negative, body) := signed t.strip
  let word : Text := body.map Char.toLower
  if word = "inf" ∨ word = "infinity" then some (.infinite negative)
  else if word = "nan" then some .nan
  else
    let (whole, rest) := run body
    let (fraction, rest) := match rest with
      | '.' :: t => run t
      | t => ([], t)
    let ws ← runDigits? whole
    let fs ← runDigits? fraction
    if ws.isEmpty ∧ fs.isEmpty then none
    else
      let e ← exponent? rest
      some (.ofDecimal negative (Text.numberOf 10 (ws ++ fs)) (e - fs.length))

end Runbook.Numeral
