import Runbook.Yaml.Scalar
import Runbook.Text.Utf8

/-!
YAML tokens, read only as far as they are asked for. Indentation and keys show only later: a key in the middle of a
line is known by the colon after it, so its mark is put in front of tokens that were read before, and a token that
may be a key is held back until that is settled.
-/
namespace Runbook.Yaml

inductive Token
  | streamEnd
  | version (major : Nat)
  | tagDirective (handle lead : Text)
  | otherDirective
  | documentStart
  | documentEnd
  | blockSequence
  | blockMapping
  | blockEnd
  | flowSequence
  | flowSequenceEnd
  | flowMapping
  | flowMappingEnd
  | flowEntry
  | blockEntry
  | key
  | value
  | alias (name : Text)
  | anchor (name : Text)
  | tag (handle : Option Text) (suffix : Text)
  | scalar (text : Text) (plain : Bool)
  deriving DecidableEq, Repr, Inhabited

/-- A token that may turn out to be a key: its number, where it stands, and whether it has to be one. -/
structure Candidate where
  number : Nat
  required : Bool
  index : Nat
  line : Nat
  column : Nat
  deriving Repr

/-- What has been read so far. The tokens wait in line, behind `taken` others that are gone; candidates stand under
their depth of brackets. -/
structure Reader where
  cursor : Cursor
  /-- The number of characters of the whole text. -/
  size : Nat
  depth : Int := 0
  indent : Int := -1
  outer : List Int := []
  keyAllowed : Bool := true
  candidates : List (Int × Candidate) := []
  waiting : List Token := []
  taken : Nat := 0
  finished : Bool := false
  deriving Repr

namespace Reader

abbrev Result := Except ReadFault Reader

def emit (k : Token) (r : Reader) : Reader := { r with waiting := r.waiting ++ [k] }

/-- Puts a token in front of the one with the given number. -/
def insertAt (number : Nat) (k : Token) (r : Reader) : Reader :=
  let sooner := number - r.taken
  { r with waiting := r.waiting.take sooner ++ k :: r.waiting.drop sooner }

def nextChar? (r : Reader) : Option Char := r.cursor.rest.head?

def inFlow (r : Reader) : Bool := r.depth ≠ 0

/-- Blanks, comments and line ends before the next token. -/
def skipBlank : Nat → Reader → Reader
  | 0, r => r
  | fuel + 1, r =>
    match r.cursor.skipSpaces.skipComment.lineBreak with
    | (some _, s) => skipBlank fuel { r with cursor := s, keyAllowed := r.keyAllowed || !r.inFlow }
    | (none, s) => { r with cursor := s }

/-- A candidate ends with its line, and after 1024 characters. -/
def isStale (r : Reader) (c : Candidate) : Bool :=
  c.line ≠ r.cursor.line || 1024 < r.cursor.index - c.index

def dropStale (r : Reader) : Result :=
  if r.candidates.any fun (_, c) => r.isStale c && c.required then .error .malformed
  else .ok { r with candidates := r.candidates.filter fun (_, c) => !r.isStale c }

/-- Closes the block collections that are indented further than the column. -/
def closeBlocks (column : Int) (r : Reader) : Reader :=
  if r.inFlow then r else go r.outer r
where
  go : List Int → Reader → Reader
    | [], r => r
    | i :: is, r =>
      if column < r.indent then go is (({ r with indent := i, outer := is } : Reader).emit .blockEnd)
      else r

def openBlock (column : Int) (r : Reader) : Option Reader :=
  if r.indent < column then some { r with outer := r.indent :: r.outer, indent := column } else none

def candidate? (r : Reader) : Option Candidate := r.candidates.lookup r.depth

def forgetCandidate (r : Reader) : Result :=
  match r.candidate? with
  | some c =>
    if c.required then .error .malformed
    else .ok { r with candidates := r.candidates.filter (·.1 ≠ r.depth) }
  | none => .ok r

/-- Notes that the next token may be a key. -/
def noteCandidate (r : Reader) : Result :=
  if r.keyAllowed then do
    let required := !r.inFlow && r.indent = r.cursor.column
    let r ← r.forgetCandidate
    let c : Candidate := ⟨r.taken + r.waiting.length, required, r.cursor.index, r.cursor.line, r.cursor.column⟩
    .ok { r with candidates := (r.depth, c) :: r.candidates }
  else .ok r

/-- Passes over `n` characters, which make up the token. -/
def take (n : Nat) (k : Token) (r : Reader) : Reader :=
  ({ r with cursor := r.cursor.forward n } : Reader).emit k

def isEntryEnd (r : Reader) : Bool := endsWith isBreakOrGap (r.cursor.rest.drop 1)

/-! The single tokens, each from its first character on -/

def finish (r : Reader) : Result := do
  let r ← (r.closeBlocks (-1)).forgetCandidate
  .ok (({ r with finished := true } : Reader).emit .streamEnd)

def documentMark (k : Token) (r : Reader) : Result := do
  let r ← (r.closeBlocks (-1)).forgetCandidate
  .ok (({ r with keyAllowed := false } : Reader).take 3 k)

def openBracket (k : Token) (r : Reader) : Result := do
  let r ← r.noteCandidate
  .ok (({ r with depth := r.depth + 1, keyAllowed := true } : Reader).take 1 k)

def closeBracket (k : Token) (r : Reader) : Result := do
  let r ← r.forgetCandidate
  .ok (({ r with depth := r.depth - 1, keyAllowed := false } : Reader).take 1 k)

def comma (r : Reader) : Result := do
  let r ← r.forgetCandidate
  .ok (({ r with keyAllowed := true } : Reader).take 1 .flowEntry)

/-- Opens a block collection in this column, where the text allows one. -/
def startBlock (k : Token) (r : Reader) : Result :=
  if r.inFlow then .ok r
  else if ¬r.keyAllowed then .error .malformed
  else match r.openBlock r.cursor.column with
    | some r => .ok (r.emit k)
    | none => .ok r

def dash (r : Reader) : Result := do
  let r ← r.startBlock .blockSequence
  let r ← r.forgetCandidate
  .ok (({ r with keyAllowed := true } : Reader).take 1 .blockEntry)

def question (r : Reader) : Result := do
  let r ← r.startBlock .blockMapping
  let r ← r.forgetCandidate
  .ok (({ r with keyAllowed := !r.inFlow } : Reader).take 1 .key)

/-- A colon makes the candidate before it a key; without one it is the value of an empty key. -/
def colon (r : Reader) : Result :=
  match r.candidate? with
  | some c =>
    let r := { r with candidates := r.candidates.filter (·.1 ≠ r.depth) }
    let r := r.insertAt c.number .key
    let r := if r.inFlow then r else match r.openBlock c.column with
      | some r => r.insertAt c.number .blockMapping
      | none => r
    .ok (({ r with keyAllowed := false } : Reader).take 1 .value)
  | none => do
    let r ← r.startBlock .blockMapping
    let r ← ({ r with keyAllowed := !r.inFlow } : Reader).forgetCandidate
    .ok (r.take 1 .value)

def name? (s : Cursor) : Option (Text × Cursor) :=
  let (name, s) := s.takeWhile isNameChar
  if name.isEmpty then none else some (name, s)

/-- What may stand right after the name of an anchor. -/
def endsAnchor (c : Char) : Bool :=
  isBreakOrGap c || c = '?' || c = ':' || c = ',' || c = ']' || c = '\x7d' || c = '%' || c = '@' ||
    c = '\x60'

def anchor (make : Text → Token) (r : Reader) : Result := do
  let r ← r.noteCandidate
  match name? r.cursor.step with
  | some (name, s) =>
    if endsWith endsAnchor s.rest then
      .ok (({ r with cursor := s, keyAllowed := false } : Reader).emit (make name))
    else .error .malformed
  | none => .error .malformed

def isUriChar (c : Char) : Bool :=
  c.isAlphanum || c ∈ "-;/?:@&=+$,_.!~*'()[]".toList

/-- Octets in hexadecimal digits after percent signs, as many as there are in a row. -/
def uriOctets : Nat → List UInt8 → Cursor → Except ReadFault (Text × Cursor)
  | 0, _, _ => .error .malformed
  | fuel + 1, bs, s =>
    match s.rest with
    | '%' :: a :: b :: _ =>
      match Text.hexValue? a, Text.hexValue? b with
      | some x, some y => uriOctets fuel (UInt8.ofNat (x * 16 + y) :: bs) (s.forward 3)
      | _, _ => .error .malformed
    | '%' :: _ => .error .malformed
    | _ =>
      match Text.ofUtf8? bs.reverse with
      | some t => .ok (t, s)
      | none => .error .malformed

def uriFrom : Nat → List Text → Cursor → Except ReadFault (Text × Cursor)
  | 0, _, _ => .error .malformed
  | fuel + 1, text, s =>
    match s.rest with
    | '%' :: _ => do
      let (t, s) ← uriOctets (s.rest.length + 1) [] s
      uriFrom fuel (t :: text) s
    | c :: _ =>
      if isUriChar c then uriFrom fuel ([c] :: text) s.step
      else if text.isEmpty then .error .malformed
      else .ok (text.reverse.flatten, s)
    | [] => if text.isEmpty then .error .malformed else .ok (text.reverse.flatten, s)

def uri (s : Cursor) : Except ReadFault (Text × Cursor) := uriFrom (s.rest.length + 1) [] s

/-- One exclamation mark, or a name between two. -/
def tagHandle (s : Cursor) : Except ReadFault (Text × Cursor) :=
  match s.rest with
  | '!' :: t =>
    if t.head? = some ' ' then .ok (['!'], s.step)
    else
      let name := t.takeWhile isNameChar
      if (t.drop name.length).head? = some '!' then
        .ok ('!' :: name ++ ['!'], s.forward (name.length + 2))
      else .error .malformed
  | _ => .error .malformed

/-- Handle and suffix of a tag; a tag between angle brackets has no handle. -/
def tagAt (s : Cursor) : Except ReadFault ((Option Text × Text) × Cursor) := do
  match s.rest.drop 1 with
  | '<' :: _ =>
    let (suffix, s) ← uri (s.forward 2)
    if s.rest.head? = some '>' then .ok ((none, suffix), s.step) else .error .malformed
  | rest =>
    if endsWith isBreakOrGap rest then .ok ((none, ['!']), s.step)
    else if '!' ∈ rest.takeWhile (!isBreakOrSpace ·) then
      let (handle, s) ← tagHandle s
      let (suffix, s) ← uri s
      .ok ((some handle, suffix), s)
    else
      let (suffix, s) ← uri s.step
      .ok ((some ['!'], suffix), s)

def tag (r : Reader) : Result := do
  let r ← r.noteCandidate
  let ((handle, suffix), s) ← tagAt r.cursor
  if endsWith isBreakOrSpace s.rest then
    .ok (({ r with cursor := s, keyAllowed := false } : Reader).emit (.tag handle suffix))
  else .error .malformed

def number? (s : Cursor) : Option (Nat × Cursor) :=
  let (ds, s) := s.takeWhile Char.isDigit
  if ds.isEmpty then none else some (ds.foldl (fun n d => n * 10 + (d.toNat - 48)) 0, s)

def versionAt (s : Cursor) : Option (Token × Cursor) := do
  let (major, s) ← number? s.skipSpaces
  if s.rest.head? = some '.' then
    let (_, s) ← number? s.step
    some (.version major, s)
  else none

def tagDirectiveAt (s : Cursor) : Except ReadFault (Token × Cursor) := do
  let (handle, s) ← tagHandle s.skipSpaces
  if s.rest.head? = some ' ' then
    let (lead, s) ← uri s.skipSpaces
    .ok (.tagDirective handle lead, s)
  else .error .malformed

/-- A directive line. Unknown directives are passed over. -/
def directiveAt (s : Cursor) : Except ReadFault (Token × Cursor) := do
  match name? s.step with
  | none => .error .malformed
  | some (name, s) =>
    if ¬endsWith isBreakOrSpace s.rest then .error .malformed
    else
      let (k, s) ← if name = "YAML" then
          match versionAt s with
          | some r => pure r
          | none => .error .malformed
        else if name = "TAG" then tagDirectiveAt s
        else pure (Token.otherDirective, s.skipWhile (!isBreak ·))
      if ¬endsWith isBreakOrSpace s.rest then .error .malformed
      else
        let s := s.skipSpaces.skipComment
        if endsWith isBreak s.rest then .ok (k, s.lineBreak.2) else .error .malformed

def directive (r : Reader) : Result := do
  let r ← (r.closeBlocks (-1)).forgetCandidate
  let (k, s) ← directiveAt r.cursor
  .ok (({ r with cursor := s, keyAllowed := false } : Reader).emit k)

def block (folded : Bool) (r : Reader) : Result := do
  let r ← ({ r with keyAllowed := true } : Reader).forgetCandidate
  let (text, s) ← blockScalar folded r.indent r.cursor
  .ok (({ r with cursor := s } : Reader).emit (.scalar text false))

def quoted (double : Bool) (r : Reader) : Result := do
  let r ← r.noteCandidate
  let (text, s) ← quotedScalar double r.cursor
  .ok (({ r with cursor := s, keyAllowed := false } : Reader).emit (.scalar text false))

def plain (r : Reader) : Result := do
  let r ← r.noteCandidate
  let ((text, key), s) := plainScalar r.inFlow r.indent r.cursor
  .ok (({ r with cursor := s, keyAllowed := key } : Reader).emit (.scalar text true))

/-- Characters that never start a plain scalar, but for three of them before something that is no blank. -/
def isIndicator (c : Char) : Bool := isBreakOrGap c || c ∈ "-?:,[]\x7b\x7d#&*!|>'\"%@\x60".toList

def startsPlain (r : Reader) : Bool :=
  match r.cursor.rest with
  | [] => false
  | c :: t =>
    !isIndicator c ||
      (!endsWith isBreakOrGap t && (c = '-' || (!r.inFlow && (c = '?' || c = ':'))))

/-- Reads the token that starts with `c`. -/
def dispatch (c : Char) (r : Reader) : Result :=
  let first := r.cursor.column = 0
  if c = '%' ∧ first then r.directive
  else if first ∧ r.cursor.isMarker '-' then r.documentMark .documentStart
  else if first ∧ r.cursor.isMarker '.' then r.documentMark .documentEnd
  else if c = '[' then r.openBracket .flowSequence
  else if c = '\x7b' then r.openBracket .flowMapping
  else if c = ']' then r.closeBracket .flowSequenceEnd
  else if c = '\x7d' then r.closeBracket .flowMappingEnd
  else if c = ',' then r.comma
  else if c = '-' ∧ r.isEntryEnd then r.dash
  else if c = '?' ∧ (r.inFlow ∨ r.isEntryEnd) then r.question
  else if c = ':' ∧ (r.inFlow ∨ r.isEntryEnd) then r.colon
  else if c = '*' then r.anchor .alias
  else if c = '&' then r.anchor .anchor
  else if c = '!' then r.tag
  else if c = '|' ∧ ¬r.inFlow then r.block false
  else if c = '>' ∧ ¬r.inFlow then r.block true
  else if c = '\x27' then r.quoted false
  else if c = '"' then r.quoted true
  else if r.startsPlain then r.plain
  else .error .malformed

/-- One more token, or the end. -/
def next (r : Reader) : Result := do
  let r := r.skipBlank (r.size + 1)
  let r ← r.dropStale
  let r := r.closeBlocks r.cursor.column
  match r.nextChar? with
  | none => r.finish
  | some c => r.dispatch c

/-- Whether the token that is next in line may turn out to be a key. -/
def mayBeKey (r : Reader) : Bool := r.candidates.any (·.2.number = r.taken)

/-- Reads on until the next token is settled. -/
def settle : Nat → Reader → Result
  | 0, r => .ok r
  | fuel + 1, r =>
    if r.finished then .ok r
    else if r.waiting.isEmpty then r.next >>= settle fuel
    else do
      let r ← r.dropStale
      if r.mayBeKey then r.next >>= settle fuel else .ok r

/-- Each further token takes at least one character, but for the last one. -/
def ready (r : Reader) : Result := r.settle (r.size + 2)

def drop (r : Reader) : Reader := { r with waiting := r.waiting.tail, taken := r.taken + 1 }

/-- The start of a text. One byte-order mark may come first. -/
def ofText (t : Text) : Result :=
  if t.all isAllowed then
    let s := Cursor.ofText t
    .ok { cursor := if t.head? = some '\ufeff' then s.step else s, size := t.length }
  else .error .malformed

end Reader
end Runbook.Yaml
