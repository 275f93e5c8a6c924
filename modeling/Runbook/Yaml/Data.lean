import Runbook.Yaml.Node
import Runbook.Value.Show

/-!
The data of a document. A collection may hold itself, so data is a graph of cells, seen from one of them; its text
and its value are read off by a walk that knows the cells around the one where it stands.
-/
namespace Runbook.Yaml

inductive Cell
  | leaf (v : Value)
  | list (items : List NodeId)
  | pairs (items : List (NodeId × NodeId))
  | map (entries : List (Value × NodeId))
  | set (keys : List Value)
  deriving Repr, Inhabited

/-- Cells by the numbers of their nodes; a node that only steers the reading has none. -/
structure Data where
  cells : Array (Option Cell)
  root : NodeId
  deriving Repr

namespace Data

def cell? (d : Data) : Option Cell := d.cells[d.root]?.join

def isMapping (d : Data) : Bool :=
  match d.cell? with
  | some (.map _) => true
  | _ => false

/-- The entry of a mapping under a text; none for any other data. -/
def get? (key : Text) (d : Data) : Option Data :=
  match d.cell? with
  | some (.map es) => (Value.getEntry? key es).map fun i => { d with root := i }
  | _ => none

/-- Empty, zero and absent data counts as false. -/
def isTrue (d : Data) : Bool :=
  match d.cell? with
  | some (.leaf v) => v.isTrue
  | some (.list is) => !is.isEmpty
  | some (.pairs ps) => !ps.isEmpty
  | some (.map es) => !es.isEmpty
  | some (.set ks) => !ks.isEmpty
  | none => false

/-- What stands for a collection inside itself. -/
def loopMark : Cell → Text
  | .map _ => "\x7b...\x7d"
  | _ => "[...]"

/-- A scalar, unless it is an integer of too many digits to be written down. -/
def writable (v : Value) : Except ReadFault Value :=
  match v with
  | .int n => if n.natAbs < 10 ^ Numeral.digitLimit then .ok v else .error (.tooLong none)
  | v => .ok v

/-- The text of a cell inside the given other ones, at most `depth` levels down. -/
def textAt (cells : Array (Option Cell)) : Nat → List NodeId → NodeId → Except ReadFault Text
  | 0, _, _ => .error .tooDeep
  | depth + 1, around, i =>
    match cells[i]?.join with
    | none => .ok []
    | some (.leaf v) => (writable v).map Value.inner
    | some (.set ks) => do .ok (Value.set (← ks.mapM writable)).inner
    | some c =>
      if i ∈ around then .ok (loopMark c)
      else
        let text := textAt cells depth (i :: around)
        match c with
        | .list is => do .ok ("[" ++ Value.commas (← is.mapM text) ++ "]")
        | .pairs ps => do
          let parts ← ps.mapM fun (k, v) => do .ok ("(" ++ (← text k) ++ ", " ++ (← text v) ++ ")")
          .ok ("[" ++ Value.commas parts ++ "]")
        | .map es => do
          let parts ← es.mapM fun (k, v) => do .ok ((← writable k).inner ++ ": " ++ (← text v))
          .ok ('\x7b' :: Value.commas parts ++ ['\x7d'])
        | _ => .ok []

/-- The most collections inside each other that are written down. -/
def depthLimit : Nat := 988

/-- The text of the data on its own. Through aliases it can lie deeper than a text nests. -/
def toText (d : Data) : Except ReadFault Text :=
  match d.cell? with
  | some (.leaf v) => (writable v).map Value.toText
  | _ => textAt d.cells depthLimit [] d.root

/-- The first of the values, up to the one that ends in a loop, and whether there is such a one. -/
def upTo (value : NodeId → Value × Bool) : List NodeId → List Value × Bool
  | [] => ([], false)
  | i :: is =>
    match value i with
    | (v, true) => ([v], true)
    | (v, false) =>
      let (vs, loops) := upTo value is
      (v :: vs, loops)

/-- The value of a cell inside the given other ones, up to the first loop, and whether there is one. Pairs are kept as
they are, so a loop inside them is none of this walk. -/
def valueAt (cells : Array (Option Cell)) : Nat → List NodeId → NodeId → Value × Bool
  | 0, _, _ => (.null, true)
  | fuel + 1, around, i =>
    match cells[i]?.join with
    | none => (.null, false)
    | some (.leaf v) => (v, false)
    | some (.set ks) => (.set ks, false)
    | some c =>
      if i ∈ around then (.null, true)
      else
        let value := valueAt cells fuel (i :: around)
        match c with
        | .list is =>
          let (vs, loops) := upTo value is
          (.list vs, loops)
        | .map es =>
          let (vs, loops) := upTo value (es.map (·.2))
          (.map ((es.map (·.1)).zip vs), loops)
        | .pairs ps => (.list (ps.map fun (k, v) => .tuple [(value k).1, (value v).1]), false)
        | _ => (.null, false)

/-- The value of the data, up to the first loop in it, and whether there is one. -/
def toValue (d : Data) : Value × Bool := valueAt d.cells (d.cells.size + 1) [] d.root

end Data
end Runbook.Yaml
