import Runbook.Yaml.Token
import Runbook.Yaml.Tag

/-!
YAML nodes: scalars, sequences and mappings with their tags, read from tokens one document at a time. An alias is
the node that its anchor names, even inside that node itself; so nodes are known by their number in a graph.
-/
namespace Runbook.Yaml

abbrev NodeId := Nat

inductive Node
  | scalar (tag : Tag) (text : Text)
  | sequence (tag : Tag) (items : List NodeId)
  | mapping (tag : Tag) (entries : List (NodeId × NodeId))
  deriving Repr, Inhabited

namespace Node

def tag : Node → Tag
  | .scalar t _ | .sequence t _ | .mapping t _ => t

def withTag (t : Tag) : Node → Node
  | .scalar _ text => .scalar t text
  | .sequence _ ns => .sequence t ns
  | .mapping _ es => .mapping t es

end Node

/-- Nodes by their number. -/
abbrev Graph := Array Node

/-- What has been read: the graph holds the nodes of the document that is being read. -/
structure ReadState where
  reader : Reader
  handles : List (Text × Text) := []
  anchors : List (Text × NodeId) := []
  graph : Graph := #[]
  /-- How many collections are open. -/
  depth : Nat := 0

abbrev Read := StateT ReadState (Except ReadFault)

def malformed {α : Type} : Read α := throw .malformed

/-- The next token, once it is settled. -/
def peek : Read Token := do
  let s ← get
  match s.reader.ready with
  | .error f => throw f
  | .ok r => do
    set { s with reader := r }
    match r.waiting with
    | [] => malformed
    | k :: _ => pure k

def advance : Read Unit := modify fun s => { s with reader := s.reader.drop }

/-- Reads the token if it is next. -/
def accept (k : Token) : Read Bool := do
  if (← peek) = k then
    advance
    pure true
  else pure false

def standardHandles : List (Text × Text) := [("!", "!"), ("!!", "tag:yaml.org,2002:")]

def add (n : Node) : Read NodeId := do
  let i := (← get).graph.size
  modify fun s => { s with graph := s.graph.push n }
  pure i

def emptyNode : Read NodeId := add (.scalar .null [])

/-- A node under its name; a document may not use a name twice. -/
def named (name : Option Text) (n : Node) : Read NodeId :=
  match name with
  | none => add n
  | some a => do
    if ((← get).anchors.lookup a).isSome then malformed
    else do
      let i ← add n
      modify fun s => { s with anchors := (a, i) :: s.anchors }
      pure i

/-- Anchor and tag before a node, in either order. -/
def properties : Read (Option Text × Option (Option Text × Text)) := do
  match ← peek with
  | .anchor a => do
    advance
    match ← peek with
    | .tag h t => do
      advance
      pure (some a, some (h, t))
    | _ => pure (some a, none)
  | .tag h t => do
    advance
    match ← peek with
    | .anchor a => do
      advance
      pure (some a, some (h, t))
    | _ => pure (none, some (h, t))
  | _ => pure (none, none)

/-- The full text of a tag; the single mark stands for none. -/
def fullTag : Option (Option Text × Text) → Read (Option Text)
  | none => pure none
  | some (none, t) => pure (some t)
  | some (some h, t) => do
    match (← get).handles.lookup h with
    | some lead => pure (some (lead ++ t))
    | none => malformed

def tagOr (fallback : Tag) (t : Option Text) : Tag :=
  match t with
  | none => fallback
  | some t => if t = ['!'] then fallback else Tag.ofText t

/-- The tag of a scalar: the one given, or else the one its text implies unless it is quoted. -/
def scalarTag (t : Option Text) (plain : Bool) (text : Text) : Tag :=
  tagOr (if plain ∨ t = some ['!'] then Tag.implied text else .str) t

/-- The most collections that lie inside each other. -/
def depthLimit : Nat := 488

/-- The parts of a collection, unless it lies too deep inside others. -/
def inside {α : Type} (parts : Read α) : Read α := do
  if (← get).depth = depthLimit then throw .tooDeep
  else do
    modify fun s => { s with depth := s.depth + 1 }
    let ps ← parts
    modify fun s => { s with depth := s.depth - 1 }
    pure ps

/-- A collection, which can be named inside itself. -/
def collection {α : Type} (name : Option Text) (make : List α → Node) (parts : Read (List α)) : Read NodeId := do
  let i ← named name (make [])
  let ps ← inside parts
  modify fun s => { s with graph := s.graph.setIfInBounds i (make ps) }
  pure i

mutual

/-- One node. Only in `block` context may it be a block collection, and only where `indentless` may a sequence
stand in the column of the mapping that holds it. -/
def node (fuel : Nat) (block indentless : Bool) : Read NodeId :=
  match fuel with
  | 0 => malformed
  | fuel + 1 => do
    match ← peek with
    | .alias a => do
      advance
      match (← get).anchors.lookup a with
      | some i => pure i
      | none => malformed
    | _ => do
      let (name, given) ← properties
      let t ← fullTag given
      match ← peek with
      | .scalar text plain => do
        advance
        named name (.scalar (scalarTag t plain text) text)
      | .flowSequence => do
        advance
        collection name (.sequence (tagOr .seq t)) (flowItems fuel true)
      | .flowMapping => do
        advance
        collection name (.mapping (tagOr .map t)) (flowEntries fuel true)
      | .blockEntry =>
        if indentless then
          collection name (.sequence (tagOr .seq t)) (looseItems fuel)
        else bare name t given
      | .blockSequence =>
        if block then do
          advance
          collection name (.sequence (tagOr .seq t)) (blockItems fuel)
        else bare name t given
      | .blockMapping =>
        if block then do
          advance
          collection name (.mapping (tagOr .map t)) (blockEntries fuel)
        else bare name t given
      | _ => bare name t given

/-- An empty scalar, which needs an anchor or a tag. -/
def bare (name : Option Text) (t : Option Text) (given : Option (Option Text × Text)) : Read NodeId := do
  if name.isNone ∧ given.isNone then malformed else named name (.scalar (tagOr .null t) [])

/-- A node, or an empty one before one of the given tokens. -/
def nodeBefore (fuel : Nat) (block indentless : Bool) (ends : List Token) : Read NodeId :=
  match fuel with
  | 0 => malformed
  | fuel + 1 => do
    if (← peek) ∈ ends then emptyNode else node fuel block indentless

def blockItems (fuel : Nat) : Read (List NodeId) :=
  match fuel with
  | 0 => malformed
  | fuel + 1 => do
    if ← accept .blockEntry then do
      let n ← nodeBefore fuel true false [.blockEntry, .blockEnd]
      pure (n :: (← blockItems fuel))
    else if ← accept .blockEnd then pure []
    else malformed

def looseItems (fuel : Nat) : Read (List NodeId) :=
  match fuel with
  | 0 => malformed
  | fuel + 1 => do
    if ← accept .blockEntry then do
      let n ← nodeBefore fuel true false [.blockEntry, .key, .value, .blockEnd]
      pure (n :: (← looseItems fuel))
    else pure []

def blockEntries (fuel : Nat) : Read (List (NodeId × NodeId)) :=
  match fuel with
  | 0 => malformed
  | fuel + 1 => do
    if ← accept .blockEnd then pure []
    else if ← accept .key then do
      let k ← nodeBefore fuel true true [.key, .value, .blockEnd]
      let v ← blockValue fuel
      pure ((k, v) :: (← blockEntries fuel))
    else malformed

def blockValue (fuel : Nat) : Read NodeId :=
  match fuel with
  | 0 => malformed
  | fuel + 1 => do
    if ← accept .value then nodeBefore fuel true true [.key, .value, .blockEnd]
    else emptyNode

/-- The items of a sequence in brackets; an item may be a mapping of one entry without braces. -/
def flowItems (fuel : Nat) (first : Bool) : Read (List NodeId) :=
  match fuel with
  | 0 => malformed
  | fuel + 1 => do
    if ← accept .flowSequenceEnd then pure []
    else do
      unless first do
        unless ← accept .flowEntry do malformed
      if ← accept .key then do
        let (k, v) ← inside do
          let k ← nodeBefore fuel false false [.value, .flowEntry, .flowSequenceEnd]
          pure (k, ← flowValue fuel [.flowEntry, .flowSequenceEnd])
        let pair ← add (.mapping .map [(k, v)])
        pure (pair :: (← flowItems fuel false))
      else if ← accept .flowSequenceEnd then pure []
      else do
        let n ← node fuel false false
        pure (n :: (← flowItems fuel false))

def flowValue (fuel : Nat) (ends : List Token) : Read NodeId :=
  match fuel with
  | 0 => malformed
  | fuel + 1 => do
    if ← accept .value then nodeBefore fuel false false ends else emptyNode

def flowEntries (fuel : Nat) (first : Bool) : Read (List (NodeId × NodeId)) :=
  match fuel with
  | 0 => malformed
  | fuel + 1 => do
    if ← accept .flowMappingEnd then pure []
    else do
      unless first do
        unless ← accept .flowEntry do malformed
      if ← accept .key then do
        let k ← nodeBefore fuel false false [.value, .flowEntry, .flowMappingEnd]
        let v ← flowValue fuel [.flowEntry, .flowMappingEnd]
        pure ((k, v) :: (← flowEntries fuel false))
      else if ← accept .flowMappingEnd then pure []
      else do
        let k ← node fuel false false
        let v ← emptyNode
        pure ((k, v) :: (← flowEntries fuel false))

end

/-- Directives before a document, at most one version and one tag directive for each handle. -/
def directives : Nat → Bool → List (Text × Text) → Read (List (Text × Text))
  | 0, _, _ => malformed
  | fuel + 1, versioned, handles => do
    match ← peek with
    | .version major => do
      advance
      if versioned ∨ major ≠ 1 then malformed else directives fuel true handles
    | .tagDirective h lead => do
      advance
      if (handles.lookup h).isSome then malformed else directives fuel versioned ((h, lead) :: handles)
    | .otherDirective => do
      advance
      directives fuel versioned handles
    | _ => pure handles

def skipDocumentEnds : Nat → Read Unit
  | 0 => malformed
  | fuel + 1 => do if ← accept .documentEnd then skipDocumentEnds fuel else pure ()

/-- The root node after the start of a document; it may be empty. -/
def content (fuel : Nat) : Read NodeId := do
  match ← peek with
  | .version _ | .tagDirective _ _ | .otherDirective | .documentStart | .documentEnd | .streamEnd =>
    emptyNode
  | _ => node fuel true false

def beginDocument (handles : List (Text × Text)) : Read Unit :=
  modify fun s => { s with handles := handles ++ standardHandles, anchors := [], graph := #[] }

/-- How a document starts, or that none is left. Only the first one needs no mark in front of it. -/
inductive Opening
  | bare
  | marked
  | none
  deriving DecidableEq, Repr

def opening (fuel : Nat) (first : Bool) : Read Opening := do
  let isBare ← do
    match ← peek with
    | .version _ | .tagDirective _ _ | .otherDirective | .documentStart | .streamEnd => pure false
    | _ => pure first
  if isBare then do
    beginDocument []
    pure .bare
  else do
    skipDocumentEnds fuel
    if (← peek) = .streamEnd then pure .none
    else do
      let handles ← directives fuel false []
      unless ← accept .documentStart do malformed
      beginDocument handles
      pure .marked

/-- The root of a document that has been opened. -/
def root (fuel : Nat) (o : Opening) : Read NodeId := do
  let i ← if o = .bare then node fuel true false else content fuel
  let _ ← accept .documentEnd
  pure i

end Runbook.Yaml
