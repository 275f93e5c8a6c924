import Runbook.Yaml.Data
import Runbook.Yaml.Value

/-!
The documents of a YAML text. Merge keys put the entries of other mappings in front of a mapping's own ones; of equal
keys the last one wins. The cells of a document are filled level by level, so of several faults in it the one closest
to the root is reported, and a document is filled before the next one is read.
-/
namespace Runbook.Yaml

namespace Graph

def tag (g : Graph) (i : NodeId) : Tag := (g[i]?.map Node.tag).getD .unknown

def entries (g : Graph) (i : NodeId) : List (NodeId × NodeId) :=
  match g[i]? with
  | some (.mapping _ es) => es
  | _ => []

def put (i : NodeId) (n : Node) (g : Graph) : Graph := g.setIfInBounds i n

/-- A key that stands for the value of its mapping is a text in a mapping that is read as such. -/
def plainKey (g : Graph) (i : NodeId) : Graph :=
  match g[i]? with
  | some n => if n.tag = .value then g.put i (n.withTag .str) else g
  | none => g

/-- All entries of all mappings. -/
def entryCount (g : Graph) : Nat :=
  g.foldl (fun n node => match node with
    | .mapping _ es => n + es.length
    | _ => n) 0

/-- The first entry with a merge key as the value to be merged, and all other entries. -/
def cutMerge (g : Graph) : List (NodeId × NodeId) → Option (NodeId × List (NodeId × NodeId))
  | [] => none
  | (k, v) :: es =>
    if g.tag k = .merge then some (v, es)
    else (cutMerge g es).map fun (w, rest) => (w, (k, v) :: rest)

/-- A mapping without merge keys: the entries that they bring in stand first, those of a list of mappings from the
last one on. A merge key is gone before its value is looked at, so each one is followed once. -/
def flatten : Nat → List (NodeId × NodeId) → NodeId → Graph → Except ReadFault Graph
  | 0, _, _, _ => .error .malformed
  | fuel + 1, merged, i, g =>
    match g[i]? with
    | some (.mapping t es) =>
      match g.cutMerge es with
      | none =>
        .ok ((es.foldl (fun g (k, _) => g.plainKey k) g).put i (.mapping t (merged ++ es)))
      | some (v, rest) => do
        let g := g.put i (.mapping t rest)
        match g[v]? with
        | some (.mapping _ _) => do
          let g ← flatten fuel [] v g
          flatten fuel (merged ++ g.entries v) i g
        | some (.sequence _ ns) => do
          let (g, lists) ← ns.foldlM (fun (g, lists) n => do
            let g ← flatten fuel [] n g
            .ok (g, g.entries n :: lists)) (g, [])
          flatten fuel (merged ++ lists.flatten) i g
        | _ => .error .malformed
    | _ => .error .malformed

/-- The text of a scalar; a mapping may give it under the key that stands for its value. -/
def scalarText (g : Graph) : Nat → NodeId → Except ReadFault Text
  | 0, _ => .error .tooDeep
  | fuel + 1, i =>
    match g[i]? with
    | some (.scalar _ t) => .ok t
    | some (.mapping _ es) =>
      match es.find? fun (k, _) => g.tag k = .value with
      | some (_, v) => scalarText g fuel v
      | none => .error .malformed
    | _ => .error .malformed

/-- The value of a node under a tag that takes a scalar. -/
def scalarValue (g : Graph) (i : NodeId) : Except ReadFault Value := do
  let t ← g.scalarText (g.size + 1) i
  match g.tag i, g[i]? with
  | .null, _ => .ok .null
  | .bool, _ =>
    match truth? t with
    | some b => .ok (.bool b)
    | none => .error (.badTruth t.lower)
  | .int, _ => do .ok (.int (← intOf t))
  | .float, _ => do .ok (.float (← floatOf t))
  | .binary, _ => binaryOf t
  | .timestamp, some (.scalar _ _) => timestampOf t
  | .timestamp, _ => .error .noText
  | .str, _ => .ok (.text t)
  | _, _ => .error .malformed

end Graph

/-! Cells -/

/-- The cell of a collection before it is filled, and none for a scalar. -/
def emptyCell? : Tag → Option Cell
  | .map => some (.map [])
  | .set => some (.set [])
  | .seq => some (.list [])
  | .omap | .pairs => some (.pairs [])
  | _ => none

/-- A document that is being filled; the collections in line have a cell and no parts yet. -/
structure Assembly where
  graph : Graph
  cells : Array (Option Cell)
  line : List NodeId := []

abbrev Assemble := StateT Assembly (Except ReadFault)

def setCell (i : NodeId) (c : Cell) : Assemble Unit :=
  modify fun s => { s with cells := s.cells.setIfInBounds i (some c) }

/-- Gives a node its cell. -/
def place (i : NodeId) : Assemble Unit := do
  let s ← get
  if s.cells[i]?.join.isSome then pure ()
  else match emptyCell? (s.graph.tag i) with
    | some c => do
      setCell i c
      modify fun s => { s with line := s.line ++ [i] }
    | none =>
      match s.graph.scalarValue i with
      | .ok v => setCell i (.leaf v)
      | .error f => throw f

/-- An entry of a mapping. A key may not be a collection. -/
def placeEntry (e : NodeId × NodeId) : Assemble (Value × NodeId) := do
  place e.1
  match (← get).cells[e.1]?.join with
  | some (.leaf k) => do
    place e.2
    pure (k, e.2)
  | _ => throw .malformed

/-- The entries of a mapping; of equal keys the last value and the first spelling are kept. -/
def placeMapping (i : NodeId) : Assemble (List (Value × NodeId)) := do
  let g := (← get).graph
  match g.flatten (g.entryCount + 2) [] i with
  | .error f => throw f
  | .ok g => do
    modify fun s => { s with graph := g }
    let es ← (g.entries i).mapM placeEntry
    pure (es.foldl (fun acc (k, v) => Value.putEntry k v acc) [])

/-- The only entry of a mapping that stands for a pair. -/
def placePair (i : NodeId) : Assemble (NodeId × NodeId) := do
  match (← get).graph.entries i with
  | [(k, v)] => do
    place k
    place v
    pure (k, v)
  | _ => throw .malformed

/-- Fills the cell of a collection. -/
def fillCell (i : NodeId) : Assemble Unit := do
  let g := (← get).graph
  match g.tag i, g[i]? with
  | .map, _ => do setCell i (.map (← placeMapping i))
  | .set, _ => do setCell i (.set ((← placeMapping i).map (·.1)))
  | .seq, some (.sequence _ ns) => do
    ns.forM place
    setCell i (.list ns)
  | .omap, some (.sequence _ ns) | .pairs, some (.sequence _ ns) => do
    setCell i (.pairs (← ns.mapM placePair))
  | _, _ => throw .malformed

/-- Fills the collections in line, first come, first served; no node comes twice. -/
def fillAll : Nat → Assemble Unit
  | 0 => pure ()
  | fuel + 1 => do
    match (← get).line with
    | [] => pure ()
    | i :: rest => do
      modify fun s => { s with line := rest }
      fillCell i
      fillAll fuel

/-- The data of a node. -/
def dataOf (g : Graph) (root : NodeId) : Except ReadFault Data := do
  let work : Assemble Unit := do
    place root
    fillAll (g.size + 1)
  let ((), s) ← work.run { graph := g, cells := Array.replicate g.size none }
  .ok ⟨s.cells, root⟩

/-! Documents -/

/-- More than all tokens of a text of the given size can ask for. -/
def fuelFor (size : Nat) : Nat := 20 * (size + 2)

/-- The documents from here on, and the fault that ends them, if one does. -/
def documentsFrom : Nat → Bool → ReadState → List Data × Option ReadFault
  | 0, _, _ => ([], some .malformed)
  | fuel + 1, first, s =>
    let size := fuelFor s.reader.size
    match (opening size first).run s with
    | .error f => ([], some f)
    | .ok (.none, _) => ([], none)
    | .ok (o, s) =>
      match (root size o).run s with
      | .error f => ([], some f)
      | .ok (i, s) =>
        match dataOf s.graph i with
        | .error f => ([], some f)
        | .ok d =>
          let (ds, f) := documentsFrom fuel false s
          (d :: ds, f)

/-- The documents of a text in order, up to its end or its first fault. -/
def documents (t : Text) : List Data × Option ReadFault :=
  match Reader.ofText t with
  | .error f => ([], some f)
  | .ok r => documentsFrom (t.length + 2) true { reader := r }

/-- The only document of a text, if it has one. That no other one starts after it comes before its data. -/
def load (t : Text) : Except ReadFault (Option Data) := do
  let size := fuelFor t.length
  let (o, s) ← (opening size true).run { reader := ← Reader.ofText t }
  if o = .none then .ok none
  else
    let (i, s) ← (root size o).run s
    let graph := s.graph
    let (o, _) ← (opening size false).run s
    if o = .none then return some (← dataOf graph i) else .error .malformed

end Runbook.Yaml
