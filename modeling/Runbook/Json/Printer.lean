import Runbook.Value.Show

/-!
JSON text of values, on one line or with indented members. Values that JSON does not know (dates, octets,
sets) are written as their plain text.
-/
namespace Runbook.Json

/-- How texts are written: with only ASCII in them, or as they are. -/
structure Style where
  asciiOnly : Bool
  indent : Option Nat
  deriving DecidableEq, Repr

def Style.compact : Style := ⟨true, none⟩

def unit (n : Nat) : Text := "\\u" ++ Text.hex 4 n

/-- A character outside the first plane takes two units of 16 bits. -/
def units (c : Char) : Text :=
  let n := c.toNat
  if n < 0x10000 then unit n
  else unit (0xD800 + (n - 0x10000) / 0x400) ++ unit (0xDC00 + (n - 0x10000) % 0x400)

def escape (asciiOnly : Bool) (c : Char) : Text :=
  if c = '"' then "\\\""
  else if c = '\\' then "\\\\"
  else if c = '\n' then "\\n"
  else if c = '\r' then "\\r"
  else if c = '\t' then "\\t"
  else if c = '\x08' then "\\b"
  else if c = '\x0c' then "\\f"
  else if c.toNat < 32 then unit c.toNat
  else if asciiOnly && 127 ≤ c.toNat then units c
  else [c]

def string (asciiOnly : Bool) (t : Text) : Text := '"' :: t.flatMap (escape asciiOnly) ++ ['"']

def number : Binary64 → Text
  | .nan => "NaN"
  | .infinite s => if s then "-Infinity" else "Infinity"
  | x => x.toText

/-- The text that stands for a key. -/
def keyText : Value → Text
  | .bool b => if b then "true" else "false"
  | .null => "null"
  | .float x => number x
  | v => v.toText

def lineAt (n depth : Nat) : Text := '\n' :: Text.repeated (n * depth) ' '

/-- Members between brackets; with an indent each has its own line. -/
def enclose (style : Style) (depth : Nat) (opening closing : Char) (members : List Text) : Text :=
  match members, style.indent with
  | [], _ => [opening, closing]
  | ms, none => opening :: Text.join ", " ms ++ [closing]
  | ms, some n =>
    opening :: lineAt n (depth + 1) ++ Text.join (',' :: lineAt n (depth + 1)) ms ++
      lineAt n depth ++ [closing]

mutual

def write (style : Style) (depth : Nat) : Value → Text
  | .null => "null"
  | .bool b => if b then "true" else "false"
  | .int n => Text.ofInt n
  | .float x => number x
  | .text t => string style.asciiOnly t
  | .list xs => enclose style depth '[' ']' (writeAll style (depth + 1) xs)
  | .tuple xs => enclose style depth '[' ']' (writeAll style (depth + 1) xs)
  | .map es => enclose style depth '\x7b' '\x7d' (writeEntries style (depth + 1) es)
  | .bytes bs => string style.asciiOnly (Value.toText (.bytes bs))
  | .date d => string style.asciiOnly (Value.toText (.date d))
  | .moment t => string style.asciiOnly (Value.toText (.moment t))
  | .set xs => string style.asciiOnly (Value.toText (.set xs))

def writeAll (style : Style) (depth : Nat) : List Value → List Text
  | [] => []
  | x :: xs => write style depth x :: writeAll style depth xs

def writeEntries (style : Style) (depth : Nat) : List (Value × Value) → List Text
  | [] => []
  | (k, v) :: es =>
    (string style.asciiOnly (keyText k) ++ ": " ++ write style depth v) ::
      writeEntries style depth es

end

def print (style : Style) (v : Value) : Text := write style 0 v

end Runbook.Json
