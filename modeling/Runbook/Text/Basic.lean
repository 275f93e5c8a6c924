/-!
Texts as lists of code points, and the few ways of cutting and joining them that the rest uses.
Every scanner is a recursion on such a list; offsets, lengths and columns count code points.
-/
namespace Runbook

abbrev Text := List Char

instance : Coe String Text := ⟨String.toList⟩

instance lawfulBEqText : LawfulBEq Text := inferInstance

-- powers are those of the core library, whatever else a module imports
@[default_instance 20000]
instance (priority := high) natPow : Pow Nat Nat := instPowNat

namespace Text

/-- The rest of `t` after the opening `p`, when `t` starts with it. -/
def after? : (p t : Text) → Option Text
  | [], t => some t
  | _ :: _, [] => none
  | c :: p, d :: t => if c = d then after? p t else none

def startsWith (t p : Text) : Bool := p.isPrefixOf t

def endsWith (t p : Text) : Bool := p.isSuffixOf t

/-- Whether `p` stands somewhere in the text. -/
def includes : (t p : Text) → Bool
  | [], p => p.isEmpty
  | c :: t, p => p.isPrefixOf (c :: t) || includes t p

def ofStrings (ss : List String) : List Text := ss.map String.toList

/-- The pieces between the separators: one more than there are separators. -/
def splitAt (sep : Char) : Text → List Text
  | [] => [[]]
  | c :: t =>
    if c = sep then [] :: splitAt sep t
    else match splitAt sep t with
      | [] => [[c]]
      | l :: ls => (c :: l) :: ls

/-- Lines end at a line feed, which takes one carriage return before it along. -/
def lines : Text → List Text
  | [] => [[]]
  | '\r' :: '\n' :: t => [] :: lines t
  | c :: t =>
    if c = '\n' then [] :: lines t
    else match lines t with
      | [] => [[c]]
      | l :: ls => (c :: l) :: ls

def join (sep : Text) : List Text → Text
  | [] => []
  | [t] => t
  | t :: u :: ts => t ++ sep ++ join sep (u :: ts)

def joinLines (ts : List Text) : Text := join ['\n'] ts

/-- The text before the first separator, and the text after it if there is one. -/
def cut (sep : Char) (t : Text) : Text × Option Text :=
  match t.span (· ≠ sep) with
  | (before, []) => (before, none)
  | (before, _ :: after) => (before, some after)

def dropEndWhile (p : Char → Bool) (t : Text) : Text := (t.reverse.dropWhile p).reverse

/-- Drops the characters of a class at both ends. -/
def trim (p : Char → Bool) (t : Text) : Text := dropEndWhile p (t.dropWhile p)

/-- The words that characters of the class separate; no word is empty. -/
def wordsBy (p : Char → Bool) (t : Text) : List Text :=
  (go t).filter (· ≠ [])
where
  go : Text → List Text
    | [] => [[]]
    | c :: t =>
      if p c then [] :: go t
      else match go t with
        | [] => [[c]]
        | l :: ls => (c :: l) :: ls

/-- The text without its last character, if that is `c`. -/
def dropFinal (c : Char) (t : Text) : Text :=
  if t.getLast? = some c then t.dropLast else t

/-- Carriage return and line feed together become one line feed. -/
def unixLines : Text → Text
  | [] => []
  | '\r' :: '\n' :: t => '\n' :: unixLines t
  | c :: t => c :: unixLines t

/-- Every line end, of any of the three usual kinds, becomes one line feed. -/
def anyLines : Text → Text
  | [] => []
  | '\r' :: '\n' :: t => '\n' :: anyLines t
  | c :: t => (if c = '\r' then '\n' else c) :: anyLines t

/-- How many characters of the given kind the text holds. -/
def countChar (c : Char) (t : Text) : Nat := t.count c

def repeated (n : Nat) (c : Char) : Text := List.replicate n c

def padLeft (n : Nat) (c : Char) (t : Text) : Text := repeated (n - t.length) c ++ t

def ofNat (n : Nat) : Text := Nat.toDigits 10 n

def ofInt : Int → Text
  | .ofNat n => ofNat n
  | .negSucc n => '-' :: ofNat (n + 1)

def hexDigit (n : Nat) : Char := Nat.digitChar n

def hex (width n : Nat) : Text := padLeft width '0' (Nat.toDigits 16 n)

/-- The value of a hexadecimal digit. -/
def hexValue? (c : Char) : Option Nat :=
  if c.isDigit then some (c.toNat - '0'.toNat)
  else if 'a' ≤ c ∧ c ≤ 'f' then some (c.toNat - 'a'.toNat + 10)
  else if 'A' ≤ c ∧ c ≤ 'F' then some (c.toNat - 'A'.toNat + 10)
  else none

/-- Octets written as pairs of hexadecimal digits. -/
def ofHexPairs : Text → List UInt8
  | a :: b :: t => UInt8.ofNat ((hexValue? a).getD 0 * 16 + (hexValue? b).getD 0) :: ofHexPairs t
  | _ => []

/-- Order by code points. -/
def le : Text → Text → Bool
  | [], _ => true
  | _ :: _, [] => false
  | c :: s, d :: t => c.toNat < d.toNat || (c = d && le s t)

/-- Puts an item before the first one whose key is greater. -/
def insertBy {α : Type} (key : α → Text) (a : α) : List α → List α
  | [] => [a]
  | b :: bs => if le (key b) (key a) then b :: insertBy key a bs else a :: b :: bs

/-- The items in the order of their keys. -/
def sortBy {α : Type} (key : α → Text) (as : List α) : List α :=
  as.foldl (fun sorted a => insertBy key a sorted) []

end Text
end Runbook
