import Runbook.Value.Fault

/-!
JSON text read into values. Members keep their order, a repeated key takes the last value, numbers without
fraction and exponent are integers, and NaN and the two infinities are numbers too. A text without fault can still be
refused: for an integer of too many digits, and for values that lie too deep inside others.
-/
namespace Runbook.Json

def isSpace (c : Char) : Bool := c = ' ' || c = '\t' || c = '\n' || c = '\r'

def skip (t : Text) : Text := t.dropWhile isSpace

def hex4? : Text → Option (Nat × Text)
  | a :: b :: c :: d :: t => do
    let a ← Text.hexValue? a
    let b ← Text.hexValue? b
    let c ← Text.hexValue? c
    let d ← Text.hexValue? d
    some (((a * 16 + b) * 16 + c) * 16 + d, t)
  | _ => none

def simpleEscape? : Char → Option Char
  | '"' => some '"'
  | '\\' => some '\\'
  | '/' => some '/'
  | 'b' => some '\x08'
  | 'f' => some '\x0c'
  | 'n' => some '\n'
  | 'r' => some '\r'
  | 't' => some '\t'
  | _ => none

/-- One character of four hexadecimal digits, or of two such units that make up a pair. -/
def escaped? (t : Text) : Option (Char × Text) := do
  let (high, rest) ← hex4? t
  if 0xD800 ≤ high ∧ high ≤ 0xDBFF then
    match rest with
    | '\\' :: 'u' :: more =>
      match hex4? more with
      | some (low, more) =>
        if 0xDC00 ≤ low ∧ low ≤ 0xDFFF then
          some (Char.ofNat (0x10000 + (high - 0xD800) * 0x400 + (low - 0xDC00)), more)
        else some ('\ufffd', rest)
      | none => none
    | _ => some ('\ufffd', rest)
  else if 0xDC00 ≤ high ∧ high ≤ 0xDFFF then some ('\ufffd', rest)
  else some (Char.ofNat high, rest)

/-- The rest of a string after its opening quote. -/
def stringBody (fuel : Nat) (acc : Text) (t : Text) : Option (Text × Text) :=
  match fuel, t with
  | 0, _ | _, [] => none
  | _ + 1, '"' :: t => some (acc.reverse, t)
  | fuel + 1, '\\' :: 'u' :: t =>
    match escaped? t with
    | some (c, t) => stringBody fuel (c :: acc) t
    | none => none
  | fuel + 1, '\\' :: c :: t =>
    match simpleEscape? c with
    | some c => stringBody fuel (c :: acc) t
    | none => none
  | fuel + 1, c :: t => if c.toNat < 32 then none else stringBody fuel (c :: acc) t

def string? (t : Text) : Option (Text × Text) := stringBody (t.length + 1) [] t

def digitsValue (ds : Text) : Nat := ds.foldl (fun n d => n * 10 + (d.toNat - 48)) 0

/-- Digits after a point, when there is at least one. -/
def fractionPart : Text → Text × Text
  | '.' :: t =>
    match t.span Char.isDigit with
    | ([], _) => ([], '.' :: t)
    | r => r
  | t => ([], t)

/-- The exponent with its sign, when it is complete. -/
def exponentPart (t : Text) : Option Int × Text :=
  match t with
  | c :: rest =>
    if c = 'e' ∨ c = 'E' then
      let (negative, body) := match rest with
        | '-' :: r => (true, r)
        | '+' :: r => (false, r)
        | r => (false, r)
      match body.span Char.isDigit with
      | ([], _) => (none, t)
      | (ds, r) =>
        let n : Int := digitsValue ds
        (some (if negative then -n else n), r)
    else (none, t)
  | [] => (none, t)

/-- A number after its sign. Only one zero may come first. -/
def numberAt (negative : Bool) (t : Text) : Except ReadFault (Value × Text) :=
  let (whole, rest) := match t with
    | '0' :: r => (['0'], r)
    | _ => t.span Char.isDigit
  if whole.isEmpty then .error .malformed
  else
    let (fraction, rest) := fractionPart rest
    let (exponent, rest) := exponentPart rest
    if fraction.isEmpty ∧ exponent = none then
      let n : Int := digitsValue whole
      match Numeral.excess? whole with
      | some n => .error (.tooLong (some n))
      | none => .ok (.int (if negative then -n else n), rest)
    else
      let e := exponent.getD 0 - fraction.length
      .ok (.float (.ofDecimal negative (digitsValue (whole ++ fraction)) e), rest)

def constants : List (Text × Value) :=
  [("null", .null), ("true", .bool true), ("false", .bool false), ("NaN", .float .nan),
    ("Infinity", .float (.infinite false)), ("-Infinity", .float (.infinite true))]

def constant? (t : Text) : Option (Value × Text) :=
  constants.findSome? fun (name, v) => (Text.after? name t).map (v, ·)

def stringAt (t : Text) : Except ReadFault (Text × Text) :=
  match string? t with
  | some r => .ok r
  | none => .error .malformed

/-- The most lists and maps that lie inside each other. -/
def depthLimit : Nat := 985

mutual

/-- A value at the start of the text, with the text after it. -/
def value (fuel depth : Nat) (t : Text) : Except ReadFault (Value × Text) :=
  match fuel, t with
  | 0, _ => .error .malformed
  | _ + 1, '"' :: t => do
    let (s, t) ← stringAt t
    .ok (.text s, t)
  | fuel + 1, '[' :: t =>
    match depth, skip t with
    | 0, _ => .error .tooDeep
    | _ + 1, ']' :: t => .ok (.list [], t)
    | depth + 1, t => do
      let (xs, t) ← elements fuel depth t
      .ok (.list xs, t)
  | fuel + 1, '\x7b' :: t =>
    match depth, skip t with
    | 0, _ => .error .tooDeep
    | _ + 1, '\x7d' :: t => .ok (.map [], t)
    | depth + 1, t => do
      let (es, t) ← members fuel depth [] t
      .ok (Value.ofFields es, t)
  | _ + 1, t =>
    match constant? t with
    | some r => .ok r
    | none =>
      match t with
      | '-' :: t => numberAt true t
      | t => numberAt false t

def elements (fuel depth : Nat) (t : Text) : Except ReadFault (List Value × Text) :=
  match fuel with
  | 0 => .error .malformed
  | fuel + 1 => do
    let (x, t) ← value fuel depth t
    match skip t with
    | ']' :: t => .ok ([x], t)
    | ',' :: t =>
      let (xs, t) ← elements fuel depth (skip t)
      .ok (x :: xs, t)
    | _ => .error .malformed

def members (fuel depth : Nat) (acc : Fields Value) (t : Text) : Except ReadFault (Fields Value × Text) :=
  match fuel, t with
  | fuel + 1, '"' :: t => do
    let (key, t) ← stringAt t
    match skip t with
    | ':' :: t => do
      let (v, t) ← value fuel depth (skip t)
      match skip t with
      | '\x7d' :: t => .ok (Fields.put key v acc, t)
      | ',' :: t => members fuel depth (Fields.put key v acc) (skip t)
      | _ => .error .malformed
    | _ => .error .malformed
  | _, _ => .error .malformed

end

/-- Reads a text that is one value, with blank space around it. -/
def read (t : Text) : Except ReadFault Value := do
  let (v, rest) ← value (2 * t.length + 2) depthLimit (skip t)
  if (skip rest).isEmpty then .ok v else .error .malformed

end Runbook.Json
