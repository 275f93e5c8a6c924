import Runbook.Text.Pieces
import Runbook.Text.Blank
import Runbook.Text.WordChar
import Runbook.Text.Words
import Runbook.Json.Reader

/-!
Directives: comments whose text starts with one of two namespaces and a colon. A name with an optional value
and parameters follows, or, in one of the namespaces, a JSON object.
-/
namespace Runbook

/-- A comment of a raw text: what stands between its marks, and the line of the first mark. -/
structure Comment where
  body : Text
  line : Nat
  deriving DecidableEq, Repr

inductive Namespace
  | polyglot
  | kyozo
  deriving DecidableEq, Repr, Inhabited

def Namespace.name : Namespace → Text
  | .polyglot => "polyglot"
  | .kyozo => "kyozo"

structure Directive where
  space : Namespace
  name : Text
  value : Option Text
  params : Fields Value
  raw : Text
  line : Int
  deriving Repr, Inhabited

namespace Comment

/-- A comment at the start of a text, up to the first end mark after its start mark. -/
def atStart : Text.Pattern Text := fun _ t =>
  match t with
  | '<' :: '!' :: '-' :: '-' :: rest => (Text.before? "-->" rest).map fun body => (body, body.length + 7)
  | _ => none

/-- All comments, in order. -/
def all (t : Text) : List Comment := (Text.hits atStart t).map fun h => ⟨h.value, h.line⟩

end Comment

namespace Directive

/-- Key and value at the first equals sign; a key on its own is true, and an empty key is left out. -/
def param? (word : Text) : Option (Text × Value) :=
  match word.cut '=' with
  | ([], _) => none
  | (key, some v) => some (key, .text v)
  | (key, none) => some (key, .bool true)

/-- Parameters from shell words, or from plain words where quotes do not match. -/
def paramsOf (t : Text) : Fields Value :=
  let words := match Words.split t with
    | .ok ws => ws
    | .error _ => t.words
  Fields.merge [] (words.filterMap param?)

def isNameChar (c : Char) : Bool := Text.isWordChar c || c = '.' || c = '-'

/-- The namespace at the start of a text, and what follows its colon. -/
def namespace? (t : Text) : Option (Namespace × Text) :=
  match Text.after? "polyglot:" t with
  | some rest => some (.polyglot, rest)
  | none => (Text.after? "kyozo:" t).map (.kyozo, ·)

/-- An inline value after a name, which an equals sign or a colon introduces and a blank ends. -/
def valuePart : Text → Option Text × Text
  | [] => (none, [])
  | c :: t =>
    if c = '=' ∨ c = ':' then
      let v := t.takeWhile (!Text.isBlank ·)
      (if v.isEmpty then none else some v, t.dropWhile (!Text.isBlank ·))
    else (none, c :: t)

def rawOf (body : Text) : Text := "<!--" ++ body ++ "-->"

/-- The directive in the text of a comment. What is no JSON, where JSON has to stand, is no directive; JSON that is
refused for its size is a fault. -/
def ofComment (body : Text) (line : Int) : Except ReadFault (Option Directive) :=
  match namespace? (body.dropWhile Text.isBlank) with
  | none => .ok none
  | some (space, rest) =>
    let rest := rest.strip
    let raw := rawOf body
    if space = .kyozo ∧ rest.head? = some '\x7b' then
      match Json.read rest with
      | .ok (.map es) => .ok (some ⟨space, "data", none, Value.textEntries es, raw, line⟩)
      | .ok _ | .error .malformed => .ok none
      | .error f => .error f
    else
      let name := rest.takeWhile isNameChar
      let (value, rest) := valuePart (rest.dropWhile isNameChar)
      if name.isEmpty then .ok none else .ok (some ⟨space, name, value, paramsOf rest, raw, line⟩)

/-- Whether the text of a comment should hold JSON and does not. -/
def isMalformed (body : Text) : Bool :=
  match namespace? (body.dropWhile Text.isBlank) with
  | some (.kyozo, rest) =>
    rest.strip.head? = some '\x7b' &&
      match Json.read rest.strip with
      | .error .malformed => true
      | _ => false
  | _ => false

/-- The directives among comments, in order. -/
def ofComments : List Comment → Except ReadFault (List Directive)
  | [] => .ok []
  | c :: cs => do
    match ← ofComment c.body c.line with
    | some d => .ok (d :: (← ofComments cs))
    | none => ofComments cs

/-- All directives of a text, in order. -/
def all (t : Text) : Except ReadFault (List Directive) := ofComments (Comment.all t)

def toValue (d : Directive) : Value :=
  .ofFields (
    Fields.one "namespace" (.text d.space.name) ++ Fields.one "directive" (.text d.name) ++
    Fields.one "line" (.int d.line) ++ Fields.opt "value" (d.value.map .text) ++
    Fields.opt "params" (if d.params.isEmpty then none else some (.ofFields d.params)))

end Directive
end Runbook
