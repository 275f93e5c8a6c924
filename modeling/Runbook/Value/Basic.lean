import Runbook.Number.Binary64
import Runbook.Calendar.Basic

/-!
Data of documents and settings: scalars, lists and maps that keep their order, and maps with texts for
keys, which most of the records of the library are.
-/
namespace Runbook

inductive Value
  | null
  | bool (b : Bool)
  | int (n : Int)
  | float (x : Binary64)
  | text (t : Text)
  | bytes (bs : List UInt8)
  | date (d : Date)
  | moment (t : Moment)
  | list (xs : List Value)
  | tuple (xs : List Value)
  | map (entries : List (Value × Value))
  | set (xs : List Value)
  deriving Repr, Inhabited

/-- Entries under text keys in the order of their first insertion. -/
abbrev Fields (α : Type) := List (Text × α)

namespace Fields

variable {α : Type}

def get? (key : Text) : Fields α → Option α
  | [] => none
  | (k, v) :: es => if k = key then some v else get? key es

def has (key : Text) (es : Fields α) : Bool := (get? key es).isSome

/-- A known key keeps its place and takes the new value. -/
def put (key : Text) (v : α) : Fields α → Fields α
  | [] => [(key, v)]
  | (k, w) :: es => if k = key then (k, v) :: es else (k, w) :: put key v es

/-- All entries of the second record put into the first, in order. -/
def merge (es new : Fields α) : Fields α := new.foldl (fun acc (k, v) => put k v acc) es

def keys (es : Fields α) : List Text := es.map (·.1)

def one (key : Text) (v : α) : Fields α := [(key, v)]

/-- An entry that is left out when it has no value. -/
def opt (key : Text) (v : Option α) : Fields α := (v.map fun v => (key, v)).toList

theorem get?_put (k k' : Text) (v : α) (es : Fields α) :
    get? k' (put k v es) = if k = k' then some v else get? k' es := by
  induction es with
  | nil => simp [put, get?]
  | cons e es ih => grind [put, get?]

theorem keys_put (k : Text) (v : α) (es : Fields α) :
    keys (put k v es) = if k ∈ keys es then keys es else keys es ++ [k] := by
  induction es with
  | nil => simp [put, keys]
  | cons e es ih => grind [put, keys]

end Fields

namespace Value

def ofFields (es : Fields Value) : Value := .map (es.map fun (k, v) => (.text k, v))

def ofOption : Option Text → Value
  | none => .null
  | some t => .text t

/-- The entries of a map under text keys. -/
def textEntries : List (Value × Value) → Fields Value
  | [] => []
  | (.text k, v) :: es => (k, v) :: textEntries es
  | _ :: es => textEntries es

mutual

/-- The value with every text in it changed, keys too. -/
def mapTexts (f : Text → Text) : Value → Value
  | .text t => .text (f t)
  | .list xs => .list (mapTextsAll f xs)
  | .tuple xs => .tuple (mapTextsAll f xs)
  | .set xs => .set (mapTextsAll f xs)
  | .map es => .map (mapTextsEntries f es)
  | v => v

def mapTextsAll (f : Text → Text) : List Value → List Value
  | [] => []
  | x :: xs => mapTexts f x :: mapTextsAll f xs

def mapTextsEntries (f : Text → Text) : List (Value × Value) → List (Value × Value)
  | [] => []
  | (k, v) :: es => (mapTexts f k, mapTexts f v) :: mapTextsEntries f es

end

/-- Empty, zero and absent values count as false. -/
def isTrue : Value → Bool
  | .null => false
  | .bool b => b
  | .int n => n ≠ 0
  | .float x => !x.isZero
  | .text t => t ≠ []
  | .bytes bs => bs ≠ []
  | .date _ | .moment _ => true
  | .list xs | .tuple xs | .set xs => !xs.isEmpty
  | .map es => !es.isEmpty

/-- The integer that a value equals when it is compared: truth values are 0 and 1. -/
def integer? : Value → Option Int
  | .bool b => some (if b then 1 else 0)
  | .int n => some n
  | .float x => x.toInt?
  | _ => none

mutual

/-- Sameness of keys: numbers by value whatever their kind, aware moments by instant, a map never. -/
def same : Value → Value → Bool
  | .null, .null => true
  | .text a, .text b => a = b
  | .bytes a, .bytes b => a = b
  | .date a, .date b => a = b
  | .moment a, .moment b =>
    a.offset.isSome = b.offset.isSome &&
      a.micros - a.offset.getD 0 = b.micros - b.offset.getD 0
  | .tuple xs, .tuple ys => sameAll xs ys
  | .bool a, b => integer? b = some (if a then 1 else 0)
  | .int a, b => integer? b = some a
  | .float x, b =>
    match x.toInt?, b with
    | some n, b => integer? b = some n
    | none, .float y => x = y && x ≠ .nan
    | none, _ => false
  | _, _ => false

def sameAll : List Value → List Value → Bool
  | [], [] => true
  | x :: xs, y :: ys => same x y && sameAll xs ys
  | _, _ => false

end

/-- Whether the value may be a key: maps, lists and sets change and may not. -/
def isKey : Value → Bool
  | .list _ | .map _ | .set _ => false
  | .tuple xs => isKeyAll xs
  | _ => true
where
  isKeyAll : List Value → Bool
    | [] => true
    | x :: xs => isKey x && isKeyAll xs

/-- Puts an entry into a map; a known key keeps its first spelling and place. -/
def putEntry {α : Type} (k : Value) (v : α) : List (Value × α) → List (Value × α)
  | [] => [(k, v)]
  | (k', v') :: es => if same k' k then (k', v) :: es else (k', v') :: putEntry k v es

def getEntry? {α : Type} (key : Text) : List (Value × α) → Option α
  | [] => none
  | (.text k, v) :: es => if k = key then some v else getEntry? key es
  | _ :: es => getEntry? key es

/-- The entry of a map under a text; none for any other value. -/
def get? (key : Text) : Value → Option Value
  | .map es => getEntry? key es
  | _ => none

end Value
end Runbook
