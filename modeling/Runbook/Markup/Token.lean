import Runbook.Text.Blank
import Runbook.Text.Digit
import Runbook.Value.Basic

/-!
The lines of a Markdown document as tokens. A reader goes through the lines once and knows only whether it
stands inside a code block or a comment; inside one, no other rule applies.
-/
namespace Runbook

inductive TokenKind
  | heading
  | fenceOpen
  | fenceClose
  | codeLine
  | comment
  | commentOpen
  | commentLine
  | commentClose
  | listItem
  | paragraph
  | blank
  deriving DecidableEq, Repr, Inhabited

def TokenKind.name : TokenKind → String
  | .heading => "heading"
  | .fenceOpen => "code_fence_start"
  | .fenceClose => "code_fence_end"
  | .codeLine => "code_content"
  | .comment => "html_comment"
  | .commentOpen => "html_comment_start"
  | .commentLine => "html_comment_content"
  | .commentClose => "html_comment_end"
  | .listItem => "list_item"
  | .paragraph => "text"
  | .blank => "blank"

def TokenKind.all : List TokenKind :=
  [.heading, .fenceOpen, .fenceClose, .codeLine, .comment, .commentOpen, .commentLine, .commentClose,
    .listItem, .paragraph, .blank]

def TokenKind.ofText? (t : Text) : Option TokenKind := all.find? fun k => k.name.toList = t

/-- A line with what its kind needs: the text, the depth of a heading, marker and info of an opening fence,
and the number of an ordered list item. -/
structure Token where
  kind : TokenKind
  line : Int
  text : Text := []
  depth : Int := 0
  info : Text := []
  marker : Text := []
  ordered : Bool := false
  start : Option Int := none
  deriving DecidableEq, Repr, Inhabited

/-- The first word of the info of a fence. -/
def Token.lang (k : Token) : Text := k.info.firstWord

/-- A token by its parts; depth, info, order and text are left out where they say nothing. -/
def Token.toFields (k : Token) : Fields Value :=
  let only (b : Bool) (name : String) (v : Value) : Fields Value := if b then Fields.one name v else []
  Fields.one "type" (.text k.kind.name) ++ Fields.one "line" (.int k.line) ++
    only (k.kind = .heading) "depth" (.int k.depth) ++ only (k.kind = .fenceOpen) "info" (.text k.info) ++
    only (k.kind = .listItem) "ordered" (.bool k.ordered) ++ only (k.text ≠ []) "text" (.text k.text) ++
    Fields.one "lang" (.text k.lang) ++ Fields.one "marker" (.text k.marker) ++
    Fields.one "start" ((k.start.map .int).getD .null)

namespace Markup

/-- At most three spaces of indentation, then something that is no space. -/
def indented? (t : Text) : Option Text :=
  let rest := t.dropWhile (· = ' ')
  if t.length - rest.length ≤ 3 then some rest else none

/-- A run of three or more equal fence characters, and what follows it. -/
def marker? (t : Text) : Option (Text × Text) :=
  match t with
  | [] => none
  | c :: _ =>
    let run := t.takeWhile (· = c)
    if (c = '\x60' ∨ c = '~') ∧ 3 ≤ run.length then some (run, t.dropWhile (· = c)) else none

/-- Backticks may not come again in the info of a fence of backticks. -/
def allowsInfo (marker info : Text) : Bool := !(marker.head? = some '\x60' && '\x60' ∈ info)

/-- Marker and info of a line that opens a code block. -/
def fenceOpening? (line : Text) : Option (Text × Text) := do
  let (marker, rest) ← marker? (← indented? line)
  let info := rest.strip
  if allowsInfo marker info then some (marker, info) else none

/-- Whether a line closes the code block that `marker` opened. -/
def closesFence (marker line : Text) : Bool :=
  let body := line.strip
  !body.isEmpty && body.all (some · = marker.head?) && marker.length ≤ body.length &&
    (indented? line).isSome

/-- Drops a closing run of number signs that blanks set apart. -/
def dropClosingRun (t : Text) : Text :=
  let body := Text.dropEndWhile (· = '#') t
  let bare := Text.dropEndWhile Text.isGap body
  if body.length < t.length ∧ bare.length < body.length then bare else t

/-- Depth and text of a heading. -/
def heading? (line : Text) : Option (Nat × Text) := do
  let t ← indented? line
  let depth := (t.takeWhile (· = '#')).length
  let rest := t.dropWhile (· = '#')
  if depth = 0 ∨ 6 < depth then none
  else match rest with
    | [] => some (depth, [])
    | c :: _ =>
      if Text.isGap c then
        some (depth, dropClosingRun (Text.trim Text.isGap rest))
      else none

/-- What follows the mark of a list item, which blanks set apart from it. -/
def itemText? : Text → Option Text
  | [] => none
  | c :: t => if Text.isGap c then some (t.dropWhile Text.isGap) else none

def bullet? (line : Text) : Option Text := do
  match ← indented? line with
  | c :: rest => if c = '-' ∨ c = '*' ∨ c = '+' then itemText? rest else none
  | [] => none

/-- Number and text of an ordered list item. The number has at most nine digits. -/
def ordered? (line : Text) : Option (Nat × Text) := do
  let t ← indented? line
  let digits := (t.takeWhile Text.isDigit).filterMap Text.digitValue?
  if digits.isEmpty ∨ 9 < digits.length then none
  else match t.dropWhile Text.isDigit with
    | c :: rest =>
      if c = '.' ∨ c = ')' then (itemText? rest).map (Text.numberOf 10 digits, ·) else none
    | [] => none

def commentStart : Text := "<!--"

def commentEnd : Text := "-->"

/-- Where the reader stands: outside, in a code block behind its marker, or in a comment. -/
inductive Mode
  | outside
  | code (marker : Text)
  | comment
  deriving DecidableEq, Repr

def readOutside (n : Nat) (line : Text) : Token × Mode :=
  match fenceOpening? line with
  | some (marker, info) => ({ kind := .fenceOpen, line := n, info, marker }, .code marker)
  | none =>
    match Text.after? commentStart line.strip with
    | some rest =>
      if rest.includes commentEnd then ({ kind := .comment, line := n, text := line }, .outside)
      else ({ kind := .commentOpen, line := n, text := line }, .comment)
    | none =>
      match heading? line with
      | some (depth, text) => ({ kind := .heading, line := n, text, depth }, .outside)
      | none =>
        match bullet? line with
        | some text => ({ kind := .listItem, line := n, text }, .outside)
        | none =>
          match ordered? line with
          | some (start, text) =>
            ({ kind := .listItem, line := n, text, ordered := true, start := some start }, .outside)
          | none =>
            if line.strip.isEmpty then ({ kind := .blank, line := n }, .outside)
            else ({ kind := .paragraph, line := n, text := line }, .outside)

def readLine (mode : Mode) (n : Nat) (line : Text) : Token × Mode :=
  match mode with
  | .outside => readOutside n line
  | .code marker =>
    if closesFence marker line then ({ kind := .fenceClose, line := n }, .outside)
    else ({ kind := .codeLine, line := n, text := line }, mode)
  | .comment =>
    if line.includes commentEnd then ({ kind := .commentClose, line := n, text := line }, .outside)
    else ({ kind := .commentLine, line := n, text := line }, mode)

def readLines (mode : Mode) (n : Nat) : List Text → List Token
  | [] => []
  | l :: ls => (readLine mode n l).1 :: readLines (readLine mode n l).2 (n + 1) ls

/-- One token for each line, numbered from 1. -/
def tokenize (t : Text) : List Token := readLines .outside 1 t.lines

end Markup
end Runbook
