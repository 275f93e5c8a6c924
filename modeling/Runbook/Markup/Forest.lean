import Runbook.Markup.Tree

/-!
Trees that grow node by node. A node has at most one owner, which is the node that it was appended to first; nodes are
known by their number, so a tree is read off its root at any time.
-/
namespace Runbook

/-- A node that grows: its children are numbers of other nodes. -/
structure Sprout where
  kind : NodeKind
  position : Option Position := none
  data : Fields Value := []
  owner : Option Nat := none
  children : List Nat := []
  deriving Repr, Inhabited

abbrev Forest := List Sprout

inductive GrowthFault
  | owned (kind : NodeKind)
  | leaf
  | unknown
  | cycle
  deriving DecidableEq, Repr

def GrowthFault.message : GrowthFault → Text
  | .owned kind => kind.name ++ " node already has a parent".toList
  | .leaf | .unknown | .cycle => []

namespace Forest

/-- Appends a node to another one, unless it has an owner. -/
def append (owner child : Nat) (f : Forest) : Except GrowthFault Forest :=
  match f[owner]?, f[child]? with
  | some o, some c =>
    if !o.kind.isParent then .error .leaf
    else if c.owner.isSome then .error (.owned c.kind)
    else
      let f := f.set child { c with owner := some owner }
      match f[owner]? with
      | some o => .ok (f.set owner { o with children := o.children ++ [child] })
      | none => .error .unknown
  | _, _ => .error .unknown

/-- Appends children up to the first that has an owner; those before it stay appended. -/
def appendAll (owner : Nat) : List Nat → Forest → Option GrowthFault × Forest
  | [], f => (none, f)
  | c :: cs, f =>
    match append owner c f with
    | .ok f => appendAll owner cs f
    | .error e => (some e, f)

/-- A new node with its first children, and its number if all of them were free. -/
def plant (s : Sprout) (children : List Nat) (f : Forest) : Except GrowthFault Nat × Forest :=
  match appendAll f.length children (f ++ [s]) with
  | (none, g) => (.ok f.length, g)
  | (some e, g) => (.error e, g)

/-- The tree below a node, read at most `depth` levels down. -/
def readTo : Nat → Forest → Nat → Except GrowthFault Node
  | 0, _, _ => .error .cycle
  | depth + 1, f, i =>
    match f[i]? with
    | none => .error .unknown
    | some s => do
      let children ← s.children.mapM (readTo depth f)
      .ok (.mk s.kind s.position s.data children)

/-- The tree below a node; there is none below a node that is its own descendant. -/
def read (f : Forest) (i : Nat) : Except GrowthFault Node := readTo (f.length + 1) f i

def setData (i : Nat) (key : Text) (v : Value) (f : Forest) : Forest :=
  f.modify i fun s => { s with data := Fields.put key v s.data }

end Forest

namespace Node

mutual

/-- A node and all below it, each before its children. -/
def walk : Node → List NodeKind
  | .mk kind _ _ children => kind :: walkAll children

def walkAll : List Node → List NodeKind
  | [] => []
  | n :: ns => walk n ++ walkAll ns

end

end Node
end Runbook
