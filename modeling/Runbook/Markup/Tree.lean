import Runbook.Markup.Token
import Runbook.Value.Basic

/-!
The syntax tree of a Markdown document. Nodes carry an open record of data beside what their kind needs, and
all blocks hold a single text each: inline marks are not read.
-/
namespace Runbook

structure Point where
  line : Int
  column : Int
  offset : Option Int := none
  deriving DecidableEq, Repr, Inhabited

structure Position where
  start : Point
  stop : Point
  deriving DecidableEq, Repr, Inhabited

namespace Position

/-- Whole lines; the last line is the first one when it is zero or not given. -/
def lines (first : Int) (last : Option Int := none) (endColumn : Int := 1) : Position :=
  let last := match last with
    | none | some 0 => first
    | some l => l
  ⟨⟨first, 1, none⟩, ⟨last, endColumn, none⟩⟩

end Position

inductive NodeKind
  | leaf
  | group
  | root
  | paragraph
  | heading (depth : Int)
  | code (lang info : Option Text) (value : Text)
  | html (value : Text)
  | list (ordered : Bool) (start : Option Int) (spread : Bool)
  | item (checked : Option Bool) (spread : Bool)
  | text (value : Text)
  | emphasis
  | strong
  | link (url : Text) (title : Option Text)
  | image (url : Text) (title alt : Option Text)
  deriving DecidableEq, Repr, Inhabited

namespace NodeKind

def name : NodeKind → String
  | .leaf | .group => "node"
  | .root => "root"
  | .paragraph => "paragraph"
  | .heading _ => "heading"
  | .code .. => "code"
  | .html _ => "html"
  | .list .. => "list"
  | .item .. => "listItem"
  | .text _ => "text"
  | .emphasis => "emphasis"
  | .strong => "strong"
  | .link .. => "link"
  | .image .. => "image"

/-- Whether nodes of the kind have children. -/
def isParent : NodeKind → Bool
  | .leaf | .code .. | .html _ | .text _ | .image .. => false
  | _ => true

/-- The names of the attributes that nodes of the kind can have. -/
def attributeNames : NodeKind → List String
  | .heading _ => ["depth"]
  | .code .. => ["lang", "meta", "value"]
  | .html _ | .text _ => ["value"]
  | .list .. => ["ordered", "start", "spread"]
  | .item .. => ["checked", "spread"]
  | .link .. => ["url", "title"]
  | .image .. => ["url", "title", "alt"]
  | .leaf | .group | .root | .paragraph | .emphasis | .strong => []

/-- The attributes of a kind that have a value, in their order. -/
def attributes : NodeKind → Fields Value
  | .heading d => Fields.one "depth" (.int d)
  | .code lang info value =>
    Fields.opt "lang" (lang.map .text) ++ Fields.opt "meta" (info.map .text) ++
      Fields.one "value" (.text value)
  | .html value | .text value => Fields.one "value" (.text value)
  | .list ordered start spread =>
    Fields.one "ordered" (.bool ordered) ++ Fields.opt "start" (start.map .int) ++
      Fields.one "spread" (.bool spread)
  | .item checked spread =>
    Fields.opt "checked" (checked.map .bool) ++ Fields.one "spread" (.bool spread)
  | .link url title => Fields.one "url" (.text url) ++ Fields.opt "title" (title.map .text)
  | .image url title alt =>
    Fields.one "url" (.text url) ++ Fields.opt "title" (title.map .text) ++
      Fields.opt "alt" (alt.map .text)
  | _ => []

end NodeKind

inductive Node
  | mk (kind : NodeKind) (position : Option Position) (data : Fields Value) (children : List Node)
  deriving Repr, Inhabited

namespace Node

def kind : Node → NodeKind
  | .mk k _ _ _ => k

def position : Node → Option Position
  | .mk _ p _ _ => p

def data : Node → Fields Value
  | .mk _ _ d _ => d

def children : Node → List Node
  | .mk _ _ _ cs => cs

/-- The line where the node starts. -/
def line? (n : Node) : Option Int := n.position.map (·.start.line)

def ofText (t : Text) : Node := .mk (.text t) none [] []

end Node

def Point.toValue (p : Point) : Value :=
  .ofFields (
    Fields.one "line" (.int p.line) ++ Fields.one "column" (.int p.column) ++
    Fields.opt "offset" (p.offset.map .int))

def Position.toValue (p : Position) : Value :=
  .ofFields (Fields.one "start" p.start.toValue ++ Fields.one "end" p.stop.toValue)

/-- Kind, attributes, children if the kind has any, position if it is known, and data if there is some. -/
def Node.record (kind : NodeKind) (position : Option Position) (data : Fields Value)
    (children : List Value) : Value :=
  .ofFields (
    Fields.one "type" (.text kind.name) ++ kind.attributes ++
    Fields.opt "children" (if kind.isParent then some (.list children) else none) ++
    Fields.opt "position" (position.map Position.toValue) ++
    Fields.opt "data" (if data.isEmpty then none else some (.ofFields data)))

namespace Node

mutual

def toValue : Node → Value
  | .mk kind position data children => record kind position data (toValues children)

def toValues : List Node → List Value
  | [] => []
  | n :: ns => toValue n :: toValues ns

end

mutual

def withoutPositions : Node → Node
  | .mk kind _ data children => .mk kind none data (allWithoutPositions children)

def allWithoutPositions : List Node → List Node
  | [] => []
  | n :: ns => withoutPositions n :: allWithoutPositions ns

end

end Node

namespace Markup

/-- The lines that a block takes from the tokens, the number of its last line, and the tokens after it. -/
structure Run where
  lines : List Text
  last : Int
  rest : List Token
  deriving Repr

def Run.push (t : Text) (r : Run) : Run := { r with lines := t :: r.lines }

/-- The content lines of a code block, and its end if there is one. -/
def codeRun (last : Int) : List Token → Run
  | [] => ⟨[], last, []⟩
  | k :: ks =>
    match k.kind with
    | .codeLine => (codeRun k.line ks).push k.text
    | .fenceClose => ⟨[], k.line, ks⟩
    | _ => ⟨[], last, k :: ks⟩

def commentRun (last : Int) : List Token → Run
  | [] => ⟨[], last, []⟩
  | k :: ks =>
    match k.kind with
    | .commentLine => (commentRun k.line ks).push k.text
    | .commentClose => ⟨[k.text], k.line, ks⟩
    | _ => ⟨[], last, k :: ks⟩

def paragraphRun (last : Int) : List Token → Run
  | [] => ⟨[], last, []⟩
  | k :: ks =>
    if k.kind = .paragraph then (paragraphRun k.line ks).push k.text else ⟨[], last, k :: ks⟩

def itemNode (k : Token) : Node :=
  let position := Position.lines k.line none (k.text.length + 1)
  .mk (.item none false) (some position) []
    [.mk .paragraph (some position) [] [.ofText k.text]]

def isItem (ordered : Bool) (k : Token) : Bool := k.kind = .listItem && k.ordered = ordered

/-- The items of a list; it is spread when blank lines stand between them. -/
structure ListRun where
  items : List Token
  last : Int
  spread : Bool
  rest : List Token
  deriving Repr

/-- The further items of a list. A blank line belongs to it only if an item follows at once. -/
def listRun (ordered : Bool) (last : Int) : List Token → ListRun
  | [] => ⟨[], last, false, []⟩
  | k :: ks =>
    if isItem ordered k then
      let r := listRun ordered k.line ks
      { r with items := k :: r.items }
    else if k.kind = .blank ∧ ks.head?.any (isItem ordered) then
      { listRun ordered last ks with spread := true }
    else ⟨[], last, false, k :: ks⟩

theorem length_codeRun (l : Int) (ks : List Token) : (codeRun l ks).rest.length ≤ ks.length := by
  induction ks generalizing l with
  | nil => exact Nat.le_refl _
  | cons k ks ih =>
    rw [codeRun]
    split
    · exact Nat.le_succ_of_le (ih k.line)
    · exact Nat.le_succ _
    · exact Nat.le_refl _

theorem length_commentRun (l : Int) (ks : List Token) :
    (commentRun l ks).rest.length ≤ ks.length := by
  induction ks generalizing l with
  | nil => exact Nat.le_refl _
  | cons k ks ih =>
    rw [commentRun]
    split
    · exact Nat.le_succ_of_le (ih k.line)
    · exact Nat.le_succ _
    · exact Nat.le_refl _

theorem length_paragraphRun (l : Int) (ks : List Token) :
    (paragraphRun l ks).rest.length ≤ ks.length := by
  induction ks generalizing l with
  | nil => exact Nat.le_refl _
  | cons k ks ih =>
    rw [paragraphRun]
    split
    · exact Nat.le_succ_of_le (ih k.line)
    · exact Nat.le_refl _

theorem length_listRun (o : Bool) (l : Int) (ks : List Token) :
    (listRun o l ks).rest.length ≤ ks.length := by
  induction ks generalizing l with
  | nil => exact Nat.le_refl _
  | cons k ks ih =>
    rw [listRun]
    split
    · exact Nat.le_succ_of_le (ih k.line)
    · split
      · exact Nat.le_succ_of_le (ih l)
      · exact Nat.le_refl _

/-- An empty text as none. -/
def nonempty (t : Text) : Option Text := if t.isEmpty then none else some t

def codeNode (k : Token) (r : Run) : Node :=
  let (lang, info) := k.info.cut ' '
  .mk (.code (nonempty lang) (nonempty (Text.strip (info.getD []))) (Text.joinLines r.lines))
    (some (.lines k.line (some r.last) (k.marker.length + 1))) [] []

def commentNode (k : Token) (r : Run) : Node :=
  let all := k.text :: r.lines
  .mk (.html (Text.joinLines all).strip)
    (some (.lines k.line (some r.last) ((all.getLastD []).length + 1))) [] []

def headingNode (k : Token) : Node :=
  .mk (.heading k.depth) (some (.lines k.line none (k.text.length + k.depth + 2))) []
    [.ofText k.text]

def paragraphNode (k : Token) (r : Run) : Node :=
  let all := k.text :: r.lines
  .mk .paragraph (some (.lines k.line (some r.last) ((all.getLastD []).length + 1))) []
    [.ofText (Text.joinLines all)]

def listNode (k : Token) (r : ListRun) : Node :=
  .mk (.list k.ordered (if k.ordered then k.start else none) r.spread)
    (some (.lines k.line (some r.last))) [] ((k :: r.items).map itemNode)

/-- The blocks of a run of tokens. Blank lines make no block, nor do lines of a block that was not opened. -/
def blocks : List Token → List Node
  | [] => []
  | k :: ks =>
    match k.kind with
    | .heading => headingNode k :: blocks ks
    | .fenceOpen =>
      have := length_codeRun k.line ks
      codeNode k (codeRun k.line ks) :: blocks (codeRun k.line ks).rest
    | .comment => commentNode k ⟨[], k.line, ks⟩ :: blocks ks
    | .commentOpen =>
      have := length_commentRun k.line ks
      commentNode k (commentRun k.line ks) :: blocks (commentRun k.line ks).rest
    | .listItem =>
      have := length_listRun k.ordered k.line ks
      listNode k (listRun k.ordered k.line ks) :: blocks (listRun k.ordered k.line ks).rest
    | .paragraph =>
      have := length_paragraphRun k.line ks
      paragraphNode k (paragraphRun k.line ks) :: blocks (paragraphRun k.line ks).rest
    | .blank | .fenceClose | .codeLine | .commentLine | .commentClose => blocks ks
termination_by ks => ks.length
decreasing_by all_goals simp only [List.length_cons]; omega

/-- The root over all blocks; it spans the lines up to the last token. -/
def rootOf (ks : List Token) : Node :=
  .mk .root (ks.getLast?.map fun k => Position.lines 1 (some k.line)) [] (blocks ks)

/-- The tree of a document. -/
def treeOf (t : Text) : Node := rootOf (tokenize t)

end Markup
end Runbook
