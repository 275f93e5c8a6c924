import Runbook.Yaml.Cursor
import Runbook.Text.Blank

/-!
The three ways of writing a scalar: plain, between quotes, and as an indented block. Line ends inside the first
two, and in folded blocks, become single spaces unless blank lines follow.
-/
namespace Runbook.Yaml

/-- Line ends and the blanks around them, as the text that they stand for. -/
def foldBreaks (first : Char) (more : Text) : Text :=
  if first ≠ '\n' then first :: more
  else if more.isEmpty then [' ']
  else more

/-! Block scalars -/

inductive Chomp
  | strip
  | clip
  | keep
  deriving DecidableEq, Repr

def chompOf (c : Char) : Option Chomp :=
  if c = '+' then some .keep else if c = '-' then some .strip else none

def incrementOf (s : Cursor) : Except ReadFault (Option Nat × Cursor) :=
  match s.rest with
  | c :: _ =>
    if c = '0' then .error .malformed
    else if c.isDigit then .ok (some (c.toNat - 48), s.step)
    else .ok (none, s)
  | [] => .ok (none, s)

/-- Chomping and indentation marks, in either order. -/
def blockHeader (s : Cursor) : Except ReadFault (Chomp × Option Nat × Cursor) := do
  let chomp (s : Cursor) : Option (Chomp × Cursor) :=
    s.rest.head?.bind fun c => (chompOf c).map (·, s.step)
  let (mark, increment, s) ← match chomp s with
    | some (k, s) => do
      let (n, s) ← incrementOf s
      pure (k, n, s)
    | none => do
      let (n, s) ← incrementOf s
      match n, chomp s with
      | some _, some (k, s) => pure (k, n, s)
      | _, _ => pure (Chomp.clip, n, s)
  if endsWith isBreakOrSpace s.rest then
    let s := s.skipSpaces.skipComment
    if endsWith isBreak s.rest then .ok (mark, increment, s.lineBreak.2) else .error .malformed
  else .error .malformed

/-- Blank lines before the first line of a block, and the widest indentation among them. -/
def leadingBreaks : Nat → Nat → Text → Cursor → Text × Nat × Cursor
  | 0, widest, breaks, s => (breaks.reverse, widest, s)
  | fuel + 1, widest, breaks, s =>
    match s.rest with
    | ' ' :: _ =>
      let s := s.step
      leadingBreaks fuel (max widest s.column) breaks s
    | _ =>
      match s.lineBreak with
      | (some b, s) => leadingBreaks fuel widest (b :: breaks) s
      | (none, s) => (breaks.reverse, widest, s)

/-- Blank lines inside a block, with the indentation of the line after them. -/
def blockBreaks (indent : Nat) : Nat → Text → Cursor → Text × Cursor
  | 0, breaks, s => (breaks.reverse, s)
  | fuel + 1, breaks, s =>
    match (s.skipSpacesTo indent).lineBreak with
    | (some b, s) => blockBreaks indent fuel (b :: breaks) s
    | (none, s) => (breaks.reverse, s)

/-- The lines of a block. `text` holds what is read, piece by piece, last one first. -/
def blockLines (folded : Bool) (indent : Nat) (chomp : Chomp) :
    Nat → List Text → Text → Cursor → Text × Cursor
  | 0, text, _, s => (text.reverse.flatten, s)
  | fuel + 1, text, breaks, s =>
    let startsBlank := goesOn Text.isGap s.rest
    let (line, s) := s.takeWhile (!isBreak ·)
    let (last, s) := s.lineBreak
    let (more, s) := blockBreaks indent (s.rest.length + 1) [] s
    let text := line :: breaks :: text
    if s.column = indent ∧ s.rest ≠ [] then
      let joint : Text :=
        if folded ∧ last = some '\n' ∧ ¬startsBlank ∧ ¬goesOn Text.isGap s.rest then
          if more.isEmpty then [' '] else []
        else last.toList
      blockLines folded indent chomp fuel (joint :: text) more s
    else
      let ending : Text := if chomp = .strip then [] else last.toList
      let ending := if chomp = .keep then ending ++ more else ending
      ((ending :: text).reverse.flatten, s)

/-- A block scalar in a collection of the given indentation, from its mark on. -/
def blockScalar (folded : Bool) (outer : Int) (s : Cursor) : Except ReadFault (Text × Cursor) := do
  let (chomp, increment, s) ← blockHeader s.step
  let least := (max (outer + 1) 1).toNat
  let fuel := s.rest.length + 1
  let (breaks, indent, s) := match increment with
    | none =>
      let (breaks, widest, s) := leadingBreaks fuel 0 [] s
      (breaks, max least widest, s)
    | some n =>
      let indent := least + n - 1
      let (breaks, s) := blockBreaks indent fuel [] s
      (breaks, indent, s)
  if s.column = indent ∧ s.rest ≠ [] then
    .ok (blockLines folded indent chomp fuel [] breaks s)
  else .ok (if chomp = .keep then breaks else [], s)

/-! Quoted scalars -/

/-- Characters that one letter after a backslash stands for. -/
def escapes : List (Char × Char) :=
  [('0', '\x00'), ('a', '\x07'), ('b', '\x08'), ('t', '\t'), ('\t', '\t'), ('n', '\n'), ('v', '\x0b'),
    ('f', '\x0c'), ('r', '\r'), ('e', '\x1b'), (' ', ' '), ('"', '"'), ('\\', '\\'), ('/', '/'),
    ('N', '\u0085'), ('_', '\u00a0'), ('L', '\u2028'), ('P', '\u2029')]

def escapeLength (c : Char) : Option Nat :=
  if c = 'x' then some 2 else if c = 'u' then some 4 else if c = 'U' then some 8 else none

def hexNumber? (ds : Text) : Option Nat :=
  (ds.mapM Text.hexValue?).map fun vs => vs.foldl (fun n d => n * 16 + d) 0

/-- Blank lines inside a quoted scalar. No document may begin or end there. -/
def quotedBreaks : Nat → Text → Cursor → Except ReadFault (Text × Cursor)
  | 0, _, _ => .error .malformed
  | fuel + 1, breaks, s =>
    if s.isDocumentMarker then .error .malformed
    else match (s.skipWhile Text.isGap).lineBreak with
      | (some b, s) => quotedBreaks fuel (b :: breaks) s
      | (none, s) => .ok (breaks.reverse, s)

/-- What a backslash in double quotes stands for, from the backslash on. -/
def escapeSequence (s : Cursor) : Except ReadFault (Text × Cursor) :=
  let s := s.step
  match s.rest with
  | [] => .error .malformed
  | c :: t =>
    match escapes.lookup c, escapeLength c with
    | some d, _ => .ok ([d], s.step)
    | none, some n =>
      match if (t.take n).length = n then hexNumber? (t.take n) else none with
      | none => .error .malformed
      | some code =>
        if 0x10FFFF < code then .error .badCodePoint
        else .ok ([if code.isValidChar then Char.ofNat code else '\ufffd'], s.forward (n + 1))
    | none, none =>
      if isBreak c then quotedBreaks (t.length + 2) [] s.lineBreak.2
      else .error .malformed

/-- Blanks inside a quoted scalar, as the text that they stand for. -/
def quotedBlanks (s : Cursor) : Except ReadFault (Text × Cursor) := do
  let (blanks, s) := s.takeWhile Text.isGap
  if s.rest.isEmpty then .error .malformed
  else match s.lineBreak with
    | (none, s) => .ok (blanks, s)
    | (some b, s) =>
      let (more, s) ← quotedBreaks (s.rest.length + 1) [] s
      .ok (foldBreaks b more, s)

/-- The rest of a quoted scalar after its opening quote. -/
def quotedBody (double : Bool) : Nat → List Text → Cursor → Except ReadFault (Text × Cursor)
  | 0, _, _ => .error .malformed
  | fuel + 1, text, s =>
    match s.rest with
    | [] => .error .malformed
    | c :: t =>
      if c = '\x27' ∧ ¬double then
        if t.head? = some '\x27' then quotedBody double fuel (['\x27'] :: text) (s.forward 2)
        else .ok (text.reverse.flatten, s.step)
      else if c = '"' ∧ double then .ok (text.reverse.flatten, s.step)
      else if c = '\\' ∧ double then do
        let (d, s) ← escapeSequence s
        quotedBody double fuel (d :: text) s
      else if isBreakOrGap c then do
        let (d, s) ← quotedBlanks s
        quotedBody double fuel (d :: text) s
      else quotedBody double fuel ([c] :: text) s.step

def quotedScalar (double : Bool) (s : Cursor) : Except ReadFault (Text × Cursor) :=
  quotedBody double (s.rest.length + 1) [] s.step

/-! Plain scalars -/

def isFlowMark (c : Char) : Bool := c = ',' || c = '[' || c = ']' || c = '\x7b' || c = '\x7d'

/-- The characters of a plain scalar up to a blank or a mark that ends it. -/
def plainRun (inFlow : Bool) : Text → Nat
  | [] => 0
  | c :: t =>
    if isBreakOrGap c then 0
    else if c = ':' ∧ endsWith (fun d => isBreakOrGap d || (inFlow && isFlowMark d)) t then 0
    else if inFlow ∧ (isFlowMark c ∨ c = '?') then 0
    else plainRun inFlow t + 1

/-- Blanks and line ends after a line of a plain scalar. -/
def plainBreaks : Nat → Text → Cursor → Option Text × Cursor
  | 0, _, s => (none, s)
  | fuel + 1, breaks, s =>
    match s.rest with
    | ' ' :: _ => plainBreaks fuel breaks s.step
    | _ =>
      match s.lineBreak with
      | (none, s) => (some breaks.reverse, s)
      | (some b, s) =>
        if s.isDocumentMarker then (none, s) else plainBreaks fuel (b :: breaks) s

/-- What the blanks after a piece stand for, whether a line ended among them, and the place after them. -/
def plainBlanks (s : Cursor) : Text × Bool × Cursor :=
  let (blanks, s) := s.takeWhile (· = ' ')
  match s.lineBreak with
  | (none, s) => (blanks, false, s)
  | (some b, s) =>
    if s.isDocumentMarker then ([], true, s)
    else match plainBreaks (s.rest.length + 1) [] s with
      | (none, s) => ([], true, s)
      | (some more, s) => (foldBreaks b more, true, s)

/-- The text of a plain scalar, and whether a key may come next because a line has ended. -/
def plainFrom (inFlow : Bool) (indent : Int) :
    Nat → List Text → Text → Bool → Cursor → (Text × Bool) × Cursor
  | 0, text, _, key, s => ((text.reverse.flatten, key), s)
  | fuel + 1, text, blanks, key, s =>
    let n := if s.rest.head? = some '#' then 0 else plainRun inFlow s.rest
    if n = 0 then ((text.reverse.flatten, key), s)
    else
      let text := s.rest.take n :: blanks :: text
      let (blanks, key, s) := plainBlanks (s.forward n)
      if blanks.isEmpty ∨ s.rest.head? = some '#' ∨ (¬inFlow ∧ (s.column : Int) < indent) then
        ((text.reverse.flatten, key), s)
      else plainFrom inFlow indent fuel text blanks key s

/-- A plain scalar in a collection of the given indentation. -/
def plainScalar (inFlow : Bool) (outer : Int) (s : Cursor) : (Text × Bool) × Cursor :=
  plainFrom inFlow (outer + 1) (s.rest.length + 1) [] [] false s

end Runbook.Yaml
