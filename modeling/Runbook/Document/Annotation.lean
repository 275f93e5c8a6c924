import Runbook.Document.Classification
import Runbook.Markup.Tree

/-!
Annotations of the tree. What is known of a node goes into an envelope in its data and nowhere else: the artifact of
a code block, the directives right above it, and hidden characters of code and text.
-/
namespace Runbook

structure Envelope where
  executable : Bool := false
  enlightened : Bool := false
  artifact : Option Text := none
  location : Option Text := none
  metadata : Fields Value := []
  directives : List Text := []
  hidden : Bool := false
  deriving Repr, Inhabited

namespace Envelope

def key : Text := "kyozo"

def toFields (e : Envelope) : Fields Value :=
  Fields.one "executable" (.bool e.executable) ++ Fields.one "enlightened" (.bool e.enlightened) ++
  Fields.one "metadata" (.ofFields e.metadata) ++
  Fields.one "directives" (.list (e.directives.map .text)) ++ Fields.one "hidden" (.bool e.hidden) ++
  Fields.opt "artifact" (e.artifact.map .text) ++ Fields.opt "location" (e.location.map .text)

def isTrue (es : Fields Value) (name : String) : Bool :=
  match Fields.get? name es with
  | some (.bool true) => true
  | _ => false

/-- The envelope of a code block, before anything that its metadata says. -/
def ofBlock (artifact : Option Artifact) (directives : List Directive) (hidden : Bool) : Envelope :=
  let metadata := Classification.mergeAll (directives.map Classification.paramsOf)
  { executable := directives.any (·.name = "executable") || isTrue metadata "executable" ||
      artifact.any (·.executable)
    enlightened := isTrue metadata "enlighten"
    artifact := artifact.map fun a => a.kind.name.toList
    location := artifact.bind (·.location)
    metadata
    directives := directives.map (·.raw)
    hidden }

/-- Entries that a node has already in its envelope stay. -/
def store (es : Fields Value) (data : Fields Value) : Fields Value :=
  match Fields.get? key data with
  | some (.map old) => Fields.put key (.ofFields (Fields.merge es (Value.textEntries old))) data
  | _ => Fields.put key (.ofFields es) data

end Envelope

namespace Node

/-- The text between the marks of a comment node. -/
def commentBody? (n : Node) : Option Text :=
  match n.kind with
  | .html value =>
    let v := value.strip
    if v.startsWith "<!--" ∧ v.endsWith "-->" then some ((v.drop 4).take (v.length - 7)) else none
  | _ => none

/-- The directive of a comment node. -/
def directive? (n : Node) : Except ReadFault (Option Directive) :=
  match n.commentBody? with
  | some body => Directive.ofComment body (n.line?.getD 0)
  | none => .ok none

/-- The artifact whose fence opens on the line; of several the last one. -/
def artifactAt (artifacts : List Artifact) (line : Option Int) : Option Artifact :=
  line.bind fun l => (artifacts.filter (·.line = some l)).getLast?

/-- The data of a code block with its envelope, if there is anything to say. -/
def codeData (artifacts : List Artifact) (pending : List Directive) (line : Option Int) (value : Text)
    (data : Fields Value) : Fields Value :=
  let artifact := artifactAt artifacts line
  let hidden := !(HiddenRun.all value).isEmpty
  if artifact.isNone ∧ pending.isEmpty ∧ ¬hidden then data
  else Envelope.store (Envelope.ofBlock artifact pending hidden).toFields data

def textData (value : Text) (data : Fields Value) : Fields Value :=
  if (HiddenRun.all value).isEmpty then data
  else Fields.put Envelope.key (.ofFields ({ hidden := true } : Envelope).toFields) data

mutual

/-- A node with the directives right above it. -/
def annotated (artifacts : List Artifact) (pending : List Directive) : Node → Except ReadFault Node
  | .mk kind position data children =>
    match kind with
    | .code _ _ value =>
      .ok (.mk kind position (codeData artifacts pending (position.map (·.start.line)) value data) children)
    | .text value => .ok (.mk kind position (textData value data) children)
    | _ =>
      if kind.isParent then do .ok (.mk kind position data (← annotatedAll artifacts [] children))
      else .ok (.mk kind position data children)

/-- Children in order. Directive comments wait for the node right below them. -/
def annotatedAll (artifacts : List Artifact) (pending : List Directive) :
    List Node → Except ReadFault (List Node)
  | [] => .ok []
  | n :: ns => do
    match ← n.directive? with
    | some d => .ok (n :: (← annotatedAll artifacts (pending ++ [d]) ns))
    | none => do
      let n ← annotated artifacts pending n
      .ok (n :: (← annotatedAll artifacts [] ns))

end

/-- A root with all annotations of a classified document. -/
def annotate (c : Classification) : Node → Except ReadFault Node
  | .mk kind position data children => do
    let envelope := Fields.one "language" (.text c.language.name) ++
      Fields.one "metadata" (.ofFields c.metadata)
    .ok (.mk kind position (Fields.put Envelope.key (.ofFields envelope) data)
      (← annotatedAll c.artifacts [] children))

end Node

/-- A document as it is read: its classification, its annotated tree and its source. -/
structure Document where
  language : Language
  artifacts : List Artifact
  metadata : Fields Value
  tree : Node
  source : Text
  deriving Repr

namespace Document

def ofText (t : Text) : Except ReadFault Document := do
  let c ← Classification.ofText t
  let tree ← (Markup.treeOf t).annotate c
  .ok ⟨c.language, c.artifacts, c.metadata, tree, t⟩

def toValue (withTree : Bool) (d : Document) : Value :=
  .ofFields (
    Fields.one "language" (.text d.language.name) ++
    Fields.one "artifacts" (.list (d.artifacts.map Artifact.toValue)) ++
    Fields.one "metadata" (.ofFields d.metadata) ++
    Fields.opt "ast" (if withTree then some d.tree.toValue else none))

end Document
end Runbook
