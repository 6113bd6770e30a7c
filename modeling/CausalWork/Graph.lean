import CausalWork.Artifact
import CausalWork.Collate
import CausalWork.Countdown

namespace CausalWork

class CausalNode (α : Type) where
  label : α → String
  after : α → List String

instance : CausalNode Artifact := ⟨Artifact.id, Artifact.createdAfter⟩

structure Edge where
  child : String
  parent : String
  deriving DecidableEq

inductive GraphError
  | dangling (edge : Edge)
  | cycle (ids : List String)
  deriving DecidableEq

def Edge.before (a b : Edge) : Bool := a.child < b.child || a.child = b.child && a.parent < b.parent

section

open CausalNode

variable {α : Type} [CausalNode α]

def danglingEdges (items : List α) : List Edge :=
  let ids := items.map label
  collate Edge.before <| items.flatMap fun item =>
    ((after item).filter (· ∉ ids)).map fun parent => ⟨label item, parent⟩

def precedes (a b : α) : Bool := label a < label b

/-- The items that no item with another id was created after, in ascending order. -/
def tipsOf (items : List α) : List α :=
  let named := items.flatMap fun item => (after item).filter (· ≠ label item)
  collate precedes (items.filter fun item => label item ∉ named)

end

/-- Nodes in ascending order of their ids, with no cycle among them. -/
structure Graph (α : Type) where
  nodes : List α

namespace Graph

open CausalNode

variable {α : Type} [CausalNode α] (g : Graph α)

def get? (id : String) : Option α := g.nodes.find? fun node => label node = id

def ids : List String := g.nodes.map label

def parents (node : α) : List String :=
  let ids := g.ids
  ascending ((after node).filter (· ∈ ids))

def parentsOf (id : String) : List String := (g.get? id).elim [] g.parents

/-- The walk along a path from the last time it was at an id, and back to it. -/
def closeWalk (path : List String) (id : String) : List String :=
  id :: (path.takeWhile (· ≠ id)).reverse ++ [id]

/-- Follows parents from an id, after the nodes on the path to it. The result has the ids from which
no cycle can be reached, or the first cycle that was met. The path never holds an id twice, so the
steps suffice if there are more of them than nodes. -/
def visit : (steps : Nat) → (path done : List String) → (id : String) →
    Except (List String) (List String)
  | 0, _, done, _ => .ok done
  | steps + 1, path, done, id =>
    if id ∈ done then .ok done
    else if id ∈ path then .error (closeWalk path id)
    else do
      let done ← (g.parentsOf id).foldlM (visit steps (id :: path)) done
      return id :: done

def cycle? : Option (List String) :=
  match g.ids.foldlM (g.visit (g.nodes.length + 1) []) [] with
  | .ok _ => none
  | .error ids => some ids

/-- The graph of items that may name parents which are not there. Of items with one id the first
is taken. -/
def ofItems? (items : List α) : Except GraphError (Graph α) :=
  let g : Graph α := ⟨collate precedes items⟩
  match g.cycle? with
  | none => .ok g
  | some ids => .error (.cycle ids)

def ofClosed? (items : List α) : Except GraphError (Graph α) :=
  match danglingEdges items with
  | [] => ofItems? items
  | edge :: _ => .error (.dangling edge)

def size : Nat := g.nodes.length

def isEmpty : Bool := g.nodes.isEmpty

def links : List (String × List String) := g.nodes.map fun node => (label node, g.parents node)

/-- The ids, parents before children, and the least id first among those whose parents are placed.
-/
def order? : Option (List String) :=
  let links := g.links
  let children (id : String) := (links.filter fun l => id ∈ l.2).map Prod.fst
  Countdown.place? children g.size (Countdown.start links)

def topologicalOrder : List α := (g.order?.getD []).filterMap g.get?

def causalOrder : List α := g.topologicalOrder.reverse

def tips : List α :=
  let named := g.nodes.flatMap g.parents
  g.nodes.filter fun node => label node ∉ named

end Graph

namespace GraphError

def message : GraphError → String
  | dangling e =>
    "'" ++ e.child ++ "' was created after '" ++ e.parent ++ "', which does not resolve"
  | cycle ids => "Causal cycle detected: " ++ String.intercalate " -> " ids

end GraphError

end CausalWork
