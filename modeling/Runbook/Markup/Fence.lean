import Runbook.Markup.Token
import Runbook.Text.Lower

/-! The fenced blocks of a raw text. An opening fence needs a line end; an open block runs to the end. -/
namespace Runbook

structure Fence where
  info : Text
  content : Text
  line : Nat
  deriving DecidableEq, Repr, Inhabited

namespace Fence

/-- The first word of the info, in lower case. -/
def lang (f : Fence) : Text := f.info.firstWord.lower

/-- The path of a block whose first word is `file:` and a path. -/
def filePath (f : Fence) : Option Text :=
  let first := f.info.firstWord
  let path := Text.strip (first.drop 5)
  if first.lower.startsWith "file:" ∧ path ≠ [] then some path else none

def toValue (f : Fence) : Value :=
  .ofFields (
    Fields.one "info" (.text f.info) ++ Fields.one "content" (.text f.content) ++
    Fields.one "line" (.int f.line) ++ Fields.one "lang" (.text f.lang) ++
    Fields.one "file_path" (.ofOption f.filePath))

end Fence

namespace Markup

def isLineEndBlank (c : Char) : Bool := Text.isGap c || c = '\r'

/-- Whether a raw line closes the block that `marker` opened: its character, as often at least. -/
def endsBlock (marker line : Text) : Bool :=
  match indented? line, marker with
  | some t, c :: _ =>
    marker.length ≤ (t.takeWhile (· = c)).length && (t.dropWhile (· = c)).all isLineEndBlank
  | _, _ => false

/-- A block whose end is not reached yet, with its raw lines, last one first. -/
structure OpenBlock where
  marker : Text
  info : Text
  line : Nat
  lines : List Text
  deriving Repr

/-- Line ends become line feeds, and the last one is dropped, with a carriage return before it. -/
def blockContent (body : Text) : Text := ((body.unixLines).dropFinal '\n').dropFinal '\r'

/-- The block, when its closing fence is reached or, without one, at the end of the text. -/
def OpenBlock.finish (b : OpenBlock) (closed : Bool) : Fence :=
  let body := Text.joinLines b.lines.reverse
  ⟨b.info, blockContent (if closed ∧ b.lines ≠ [] then body ++ ['\n'] else body), b.line⟩

/-- The blocks of the raw lines from line `n` on. The last line has no line feed. -/
def fencesFrom (n : Nat) (current : Option OpenBlock) : List Text → List Fence
  | [] => match current with
    | some b => [b.finish false]
    | none => []
  | l :: ls =>
    match current with
    | some b =>
      if endsBlock b.marker l then b.finish true :: fencesFrom (n + 1) none ls
      else fencesFrom (n + 1) (some { b with lines := l :: b.lines }) ls
    | none =>
      match fenceOpening? l with
      | some (marker, info) =>
        fencesFrom (n + 1) (if ls.isEmpty then none else some ⟨marker, info, n, []⟩) ls
      | none => fencesFrom (n + 1) none ls

def fences (t : Text) : List Fence := fencesFrom 1 none (t.splitAt '\n')

end Markup
end Runbook
