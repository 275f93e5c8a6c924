import Runbook.Value.Basic
import Runbook.Number.Shortest
import Runbook.Text.Printable

/-!
The plain text of a value. A text shows itself on its own, and quoted inside a list or a map; other
values look the same in both places.
-/
namespace Runbook

namespace Text

/-- A single quote encloses the text, unless it holds such a quote and no double one. -/
def quoteFor (t : Text) : Char := if '\x27' ∈ t ∧ '"' ∉ t then '"' else '\x27'

def escapeChar (quote : Char) (c : Char) : Text :=
  if c = quote || c = '\\' then ['\\', c]
  else if c = '\n' then "\\n"
  else if c = '\r' then "\\r"
  else if c = '\t' then "\\t"
  else if isPrintable c then [c]
  else if c.toNat < 0x100 then "\\x" ++ hex 2 c.toNat
  else if c.toNat < 0x10000 then "\\u" ++ hex 4 c.toNat
  else "\\U" ++ hex 8 c.toNat

def quoted (t : Text) : Text :=
  let q := quoteFor t
  q :: t.flatMap (escapeChar q) ++ [q]

end Text

namespace Value

def bytesText (bs : List UInt8) : Text :=
  let t : Text := bs.map fun b => Char.ofNat b.toNat
  let q := Text.quoteFor t
  let escape (c : Char) : Text :=
    if c = q || c = '\\' then ['\\', c]
    else if c = '\n' then "\\n"
    else if c = '\r' then "\\r"
    else if c = '\t' then "\\t"
    else if 32 ≤ c.toNat && c.toNat < 127 then [c]
    else "\\x" ++ Text.hex 2 c.toNat
  'b' :: q :: t.flatMap escape ++ [q]

def commas (ts : List Text) : Text := Text.join ", " ts

/-- A span of time by its days, seconds and microseconds that are not zero. -/
def spanText (micros : Int) : Text :=
  let days := micros / 86400000000
  let rest := (micros % 86400000000).toNat
  let part (name : String) (n : Int) : List Text := if n = 0 then [] else [name ++ "=" ++ Text.ofInt n]
  let parts := part "days" days ++ part "seconds" (rest / 1000000) ++ part "microseconds" (rest % 1000000)
  "datetime.timedelta(" ++ commas (if parts.isEmpty then ["0"] else parts) ++ ")"

def dateText (d : Date) : Text :=
  "datetime.date(" ++ commas [Text.ofNat d.year, Text.ofNat d.month, Text.ofNat d.day] ++ ")"

/-- A moment by its numbers; seconds and microseconds are left out at the end when they are zero. -/
def momentText (t : Moment) : Text :=
  let seconds := if t.micro ≠ 0 then [t.second, t.micro] else if t.second ≠ 0 then [t.second] else []
  let numbers := [t.date.year, t.date.month, t.date.day, t.hour, t.minute] ++ seconds
  let zone : List Text := match t.offset with
    | none => []
    | some 0 => ["tzinfo=datetime.timezone.utc"]
    | some o => ["tzinfo=datetime.timezone(" ++ spanText o ++ ")"]
  "datetime.datetime(" ++ commas (numbers.map Text.ofNat ++ zone) ++ ")"

mutual

/-- The text of a value inside another one. -/
def inner : Value → Text
  | .null => "None"
  | .bool b => if b then "True" else "False"
  | .int n => Text.ofInt n
  | .float x => x.toText
  | .text t => Text.quoted t
  | .bytes bs => bytesText bs
  | .date d => dateText d
  | .moment t => momentText t
  | .list xs => "[" ++ commas (innerAll xs) ++ "]"
  | .tuple xs =>
    match innerAll xs with
    | [x] => "(" ++ x ++ ",)"
    | ts => "(" ++ commas ts ++ ")"
  | .map es => '\x7b' :: commas (innerEntries es) ++ ['\x7d']
  | .set xs =>
    match innerAll xs with
    | [] => "set()"
    | ts => '\x7b' :: commas ts ++ ['\x7d']

def innerAll : List Value → List Text
  | [] => []
  | x :: xs => inner x :: innerAll xs

def innerEntries : List (Value × Value) → List Text
  | [] => []
  | (k, v) :: es => (inner k ++ ": " ++ inner v) :: innerEntries es

end

/-- The text of a value on its own. -/
def toText : Value → Text
  | .text t => t
  | .date d => d.toText
  | .moment t => t.toText ' '
  | v => inner v

end Value
end Runbook
