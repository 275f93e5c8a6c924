import Runbook.Number.Decimal
import Runbook.Value.Show

/-!
Message templates. A percent sign starts a conversion, unless it stands twice, which shows one argument: its key in parentheses, flags, a
width, a precision and the letter of its kind. A template whose conversions do not fit its arguments has no message.
-/
namespace Runbook.Template

/-- A number in a conversion, which may also come from the next argument. -/
inductive Measure
  | fixed (n : Nat)
  | argument
  deriving DecidableEq, Repr

structure Conversion where
  key : Option Text := none
  flags : Text := []
  width : Option Measure := none
  precision : Option Measure := none
  kind : Char
  deriving DecidableEq, Repr

inductive Piece
  | plain (c : Char)
  | conversion (c : Conversion)
  deriving DecidableEq, Repr

/-- A key up to the parenthesis that closes it, and the number of characters with that. -/
def key? (depth : Nat) : Text → Option (Text × Nat)
  | [] => none
  | c :: t =>
    if c = ')' ∧ depth = 0 then some ([], 1)
    else
      let depth := if c = '(' then depth + 1 else if c = ')' then depth - 1 else depth
      (key? depth t).map fun (k, n) => (c :: k, n + 1)

def measure? (t : Text) : Option Measure × Text :=
  match t with
  | '*' :: t => (some .argument, t)
  | t =>
    let digits := t.takeWhile Char.isDigit
    if digits.isEmpty then (none, t)
    else (some (.fixed (digits.foldl (fun n c => n * 10 + (c.toNat - 48)) 0)), t.drop digits.length)

def isFlag (c : Char) : Bool := c ∈ ("-+ #0" : Text)

def precision? (t : Text) : Option Measure × Text :=
  match t with
  | '.' :: t =>
    match measure? t with
    | (none, t) => (some (.fixed 0), t)
    | read => read
  | t => (none, t)

/-- A letter for the size of an argument says nothing here. -/
def dropSize : Text → Text
  | c :: t => if c ∈ ("hlL" : Text) then t else c :: t
  | [] => []

/-- The conversion after a percent sign, and the rest. -/
def conversion? (t : Text) : Option (Conversion × Text) := do
  let (key, t) ← match t with
    | '(' :: t => (key? 0 t).map fun (k, n) => (some k, t.drop n)
    | t => some (none, t)
  let flags := t.takeWhile isFlag
  let (width, t) := measure? (t.drop flags.length)
  let (precision, t) := precision? t
  match dropSize t with
  | kind :: t => some ({ key, flags, width, precision, kind }, t)
  | [] => none

/-- The pieces of a template of at most `fuel` characters. -/
def piecesWithin : (fuel : Nat) → Text → Option (List Piece)
  | 0, _ | _, [] => some []
  | fuel + 1, '%' :: '%' :: t => do some (.plain '%' :: (← piecesWithin fuel t))
  | fuel + 1, '%' :: t => do
    let (c, rest) ← conversion? t
    some (.conversion c :: (← piecesWithin fuel rest))
  | fuel + 1, c :: t => do some (.plain c :: (← piecesWithin fuel t))

def pieces? (t : Text) : Option (List Piece) := piecesWithin t.length t

def wholeNumber? : Value → Option Int
  | .int n => some n
  | .bool b => some (if b then 1 else 0)
  | _ => none

/-- What is left of the arguments: a row of values, or a map with the one value that is next. -/
inductive Arguments
  | row (rest : List Value)
  | named (entries : List (Value × Value)) (next : Option Value)
  deriving Repr

namespace Arguments

/-- A single map that is not empty gives its entries by their names. -/
def ofList : List Value → Arguments
  | [.map (e :: es)] => .named (e :: es) (some (.map (e :: es)))
  | vs => .row vs

def select? (key : Text) : Arguments → Option Arguments
  | .row _ => none
  | .named es _ => (Value.getEntry? key es).map fun v => .named es (some v)

def take? : Arguments → Option (Value × Arguments)
  | .row [] => none
  | .row (v :: vs) => some (v, .row vs)
  | .named es next => next.map fun v => (v, .named es none)

/-- A row must be used up. -/
def isSpent : Arguments → Bool
  | .row rest => rest.isEmpty
  | .named _ _ => true

/-- The number that a measure stands for, which is below the limit either way. -/
def measure? (args : Arguments) (limit : Nat) : Option Measure → Option (Option Int × Arguments)
  | none => some (none, args)
  | some (.fixed n) => if n < limit then some (some n, args) else none
  | some .argument => do
    let (v, args) ← args.take?
    let n ← wholeNumber? v
    if n.natAbs < limit then some (some n, args) else none

end Arguments

/-- How a conversion lays out its argument, all measures known. -/
structure Layout where
  left : Bool
  zero : Bool
  alternate : Bool
  plus : Bool
  blank : Bool
  width : Nat
  precision : Option Nat
  deriving DecidableEq, Repr

/-- A negative width means its size at the left, a negative precision none. -/
def Layout.of (flags : Text) (width precision : Option Int) : Layout where
  left := '-' ∈ flags || width.any (· < 0)
  zero := '0' ∈ flags
  alternate := '#' ∈ flags
  plus := '+' ∈ flags
  blank := ' ' ∈ flags
  width := (width.map Int.natAbs).getD 0
  precision := precision.map Int.toNat

namespace Layout

variable (l : Layout)

/-- A text beside blanks. -/
def pad (t : Text) : Text :=
  let blanks := Text.repeated (l.width - t.length) ' '
  if l.left then t ++ blanks else blanks ++ t

def text (t : Text) : Text :=
  l.pad (match l.precision with
    | some n => t.take n
    | none => t)

def sign (negative : Bool) : Text :=
  if negative then "-" else if l.plus then "+" else if l.blank then " " else []

/-- A number: zeros stand between its opening and its digits, blanks outside. -/
def number (negative : Bool) (opening digits : Text) : Text :=
  let opening := l.sign negative ++ opening
  if l.zero ∧ ¬l.left then opening ++ Text.padLeft (l.width - opening.length) '0' digits
  else l.pad (opening ++ digits)

def integer (base : Nat) (opening : Text) (n : Int) : Text :=
  l.number (n < 0) (if l.alternate then opening else [])
    (Text.padLeft (l.precision.getD 0) '0' (Nat.toDigits base n.natAbs))

def float (body : Decimal.Magnitude → Text) : Binary64 → Text
  | .nan => l.number false [] "nan"
  | .infinite s => l.number s [] "inf"
  | .finite s m e => l.number s [] (body (.ofBinary m e))

def places : Nat := l.precision.getD 6

end Layout

/-- ASCII letters as capitals. -/
def capitals (t : Text) : Text := t.map Char.toUpper

def asciiChar (c : Char) : Text :=
  if c.toNat < 0x80 then [c]
  else if c.toNat < 0x100 then "\\x" ++ Text.hex 2 c.toNat
  else if c.toNat < 0x10000 then "\\u" ++ Text.hex 4 c.toNat
  else "\\U" ++ Text.hex 8 c.toNat

def truncated? : Value → Option Int
  | .float x => x.truncate?
  | v => wholeNumber? v

def real? : Value → Option Binary64
  | .float x => some x
  | v => do
    let n ← wholeNumber? v
    match Binary64.ofInt n with
    | .infinite _ => none
    | x => some x

/-- A character by its number, or the only one of a text. -/
def character? : Value → Option Char
  | .text [c] => some c
  | .text _ => none
  | v => do
    let n ← wholeNumber? v
    if 0 ≤ n ∧ n < 0x110000 then some (Char.ofNat n.toNat) else none

/-- One argument as the letter of a conversion wants it. -/
def shown? (l : Layout) (kind : Char) (v : Value) : Option Text :=
  match kind with
  | 's' => some (l.text v.toText)
  | 'r' => some (l.text v.inner)
  | 'a' => some (l.text (v.inner.flatMap asciiChar))
  | 'd' | 'i' | 'u' => (truncated? v).map (l.integer 10 [])
  | 'o' => (wholeNumber? v).map (l.integer 8 "0o")
  | 'x' => (wholeNumber? v).map (l.integer 16 "0x")
  | 'X' => (wholeNumber? v).map fun n => capitals (l.integer 16 "0x" n)
  | 'f' => (real? v).map (l.float (Decimal.fixed l.alternate l.places))
  | 'F' => (real? v).map fun x => capitals (l.float (Decimal.fixed l.alternate l.places) x)
  | 'e' => (real? v).map (l.float (Decimal.scientific l.alternate l.places))
  | 'E' => (real? v).map fun x => capitals (l.float (Decimal.scientific l.alternate l.places) x)
  | 'g' => (real? v).map (l.float (Decimal.general l.alternate (max 1 l.places)))
  | 'G' => (real? v).map fun x => capitals (l.float (Decimal.general l.alternate (max 1 l.places)) x)
  | 'c' => (character? v).map fun c => l.pad [c]
  | _ => none

def widthLimit : Nat := 2 ^ 63

def precisionLimit : Nat := 2 ^ 31

/-- The text of one conversion and the arguments that are left. -/
def convert? (c : Conversion) (args : Arguments) : Option (Text × Arguments) := do
  let args ← match c.key with
    | none => some args
    | some k => args.select? k
  let (width, args) ← args.measure? widthLimit c.width
  let (precision, args) ← args.measure? precisionLimit c.precision
  let (v, args) ← args.take?
  let t ← shown? (.of c.flags width precision) c.kind v
  some (t, args)

def fillPieces? : List Piece → Arguments → Option Text
  | [], args => if args.isSpent then some [] else none
  | .plain c :: ps, args => (fillPieces? ps args).map (c :: ·)
  | .conversion c :: ps, args => do
    let (t, args) ← convert? c args
    some (t ++ (← fillPieces? ps args))

/-- The message of a template; without arguments that is the template as it stands. -/
def fill? (template : Text) (args : List Value) : Option Text :=
  if args.isEmpty then some template
  else do fillPieces? (← pieces? template) (.ofList args)

end Runbook.Template
