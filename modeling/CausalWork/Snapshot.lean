import CausalWork.Resolution

namespace CausalWork

structure Unresolved where
  id : String
  kind : Kind
  locator : Option Locator
  createdAfter : List String
  reason : String
  deriving DecidableEq

inductive Row
  | artifact (a : Artifact)
  | unresolved (u : Unresolved)
  deriving DecidableEq

structure Snapshot where
  kind : Kind
  rows : List Row

namespace Unresolved

def toJson (u : Unresolved) : List (String × Json) :=
  [("id", .text u.id), ("kind", u.kind.toJson)] ++
    (u.locator.elim [] fun l => [("locator", l.toJson)]) ++
    [("created_after", Json.list u.createdAfter), ("reason", .text u.reason)]

end Unresolved

namespace Row

def id : Row → String
  | artifact a => a.id
  | unresolved u => u.id

def createdAfter : Row → List String
  | artifact a => a.createdAfter
  | unresolved u => u.createdAfter

def artifact? : Row → Option Artifact
  | artifact a => some a
  | unresolved _ => none

def unresolved? : Row → Option Unresolved
  | artifact _ => none
  | unresolved u => some u

def toJson : Row → Json
  | artifact a => .object (("entry", .text "artifact") :: a.members)
  | unresolved u => .object (("entry", .text "unresolvable") :: u.toJson)

end Row

instance : CausalNode Row := ⟨Row.id, Row.createdAfter⟩

namespace Snapshot

def artifacts (s : Snapshot) : List Artifact := s.rows.filterMap Row.artifact?

def unresolved (s : Snapshot) : List Unresolved := s.rows.filterMap Row.unresolved?

def get? (s : Snapshot) (id : String) : Option Row := s.rows.find? fun row => row.id = id

def homeRow? (kind : Kind) : Entry → Option Row
  | .own a => some (.artifact a)
  | .external _ => none
  | .malformed id reason =>
    some (.unresolved ⟨id, kind, none, [], "malformed record: " ++ reason⟩)

def reference? : Entry → Option Reference
  | .external r => some r
  | _ => none

def referenceRow (kind : Kind) : Reference × Except Failure Artifact → Row
  | (_, .ok a) => .artifact a
  | (r, .error e) => .unresolved ⟨r.id, kind, some r.locator, r.createdAfter, e.message⟩

/-- The row of a parent that no remote could tell about. A parent that all remotes disclaim has
none. -/
def unreachedRow? (kind : Kind) : String × Except Failure Artifact → Option Row
  | (_, .ok _) => none
  | (_, .error (.notFound _ _)) => none
  | (id, .error e) => some (.unresolved ⟨id, kind, none, [], e.message⟩)

def missingParents (rows : List Row) : List String :=
  ascending ((danglingEdges rows).map Edge.parent)

/-- Adds what the remotes told of missing parents. Of its own parents, one that a remote owns keeps
those that have a row too. -/
def addParents (kind : Kind) (rows : List Row)
    (told : List (String × Except Failure Artifact)) : List Row :=
  let rows := rows ++ told.filterMap (unreachedRow? kind)
  let pulled := told.filterMap fun t => t.2.toOption
  let known := rows.map Row.id ++ pulled.map Artifact.id
  rows ++ pulled.map fun a =>
    .artifact { a with createdAfter := a.createdAfter.filter (· ∈ known) }

def sorted (rows : List Row) : List Row := rows.mergeSort fun a b => ¬ b.id < a.id

/-- Reads all records of a kind at home, resolves the references among them, and looks once for
parents that home lacks. -/
def load (home : Store) (n : Network) (kind : Kind) : StateM Memo (Except Failure Snapshot) := do
  match home.list kind with
  | .error e => return .error (.ofStore e)
  | .ok entries =>
    let resolved ← n.resolveReferences (entries.filterMap reference?)
    let rows := entries.filterMap (homeRow? kind) ++ resolved.map (referenceRow kind)
    if n.hasRemotes then
      let told ← n.resolveIds kind (missingParents rows)
      return .ok ⟨kind, sorted (addParents kind rows told)⟩
    else return .ok ⟨kind, sorted rows⟩

def listing (s : Snapshot) : Except Failure (List Row) :=
  match Graph.ofClosed? s.rows with
  | .ok g => .ok g.causalOrder
  | .error e => .error (.graph e)

def causalOrder (s : Snapshot) : Except Failure (List Artifact) := do
  return (← s.listing).filterMap Row.artifact?

def tips (s : Snapshot) : Except Failure (List Artifact) :=
  match Graph.ofClosed? s.rows with
  | .ok g => .ok (g.tips.filterMap Row.artifact?)
  | .error e => .error (.graph e)

/-- Among the artifacts that a test picks by their subsystems, those that no other one of them was
created after. -/
def tipsAmong (s : Snapshot) (picks : String → Bool) : Except Failure (List Artifact) :=
  match Graph.ofClosed? s.rows with
  | .ok _ => .ok (tipsOf (s.artifacts.filter fun a => a.subsystems.any picks))
  | .error e => .error (.graph e)

def latest (s : Snapshot) : Except Failure Artifact := do
  match ← s.causalOrder with
  | a :: _ => return a
  | [] => throw (.emptySet s.kind)

def dangling (s : Snapshot) : List Edge := danglingEdges s.rows

end Snapshot

end CausalWork
