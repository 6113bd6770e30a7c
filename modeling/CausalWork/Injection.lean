import CausalWork.Project

namespace CausalWork.Project

variable (p : Project)

def withArtifact (s : Snapshot) (a : Artifact) : Snapshot :=
  match s.get? a.id with
  | some _ => s
  | none => { s with rows := s.rows ++ [.artifact a] }

/-- Whether a parent that was asked for is missing; some failures say nothing about it. -/
def isMissing : String × Except Failure Artifact → Except Failure Bool
  | (_, .ok _) => .ok false
  | (_, .error (.notFound _ _)) => .ok true
  | (_, .error (.unresolved _ _)) => .ok true
  | (_, .error e) => .error e

def missingAmong : List (String × Except Failure Artifact) → Except Failure (List String)
  | [] => .ok []
  | told :: rest => do
    let missing ← isMissing told
    let others ← missingAmong rest
    return if missing then told.1 :: others else others

/-- The links of an artifact to parents that neither have an artifact in the snapshot nor resolve
in a remote, in ascending order. -/
def brokenLinks (n : Network) (a : Artifact) (s : Snapshot) :
    StateM Memo (Except Failure (List Edge)) := do
  let parents := ascending a.createdAfter
  let unresolved := parents.filter fun parent => ((s.get? parent).bind Row.unresolved?).isSome
  let unknown := parents.filter fun parent => (s.get? parent).isNone
  let told ← n.resolveIds a.kind unknown
  return (missingAmong told).map fun missing =>
    (ascending (unresolved ++ missing)).map fun parent => ⟨a.id, parent⟩

/-- The content of a foreign artifact is its owner's business and counts as checked. -/
def summary (a : Artifact) : Except Failure Summary :=
  if a.isExternal then .ok ⟨true⟩
  else match p.content a with
    | .ok summary => .ok summary
    | .error e => .error (.ofStore e)

def examine (kind : Kind) (id : String) :
    StateM Memo (Except Failure (Artifact × List Issue)) := do
  match ← p.network.resolve p.home kind id with
  | .error e => return .error e
  | .ok a =>
    match ← p.snapshot kind with
    | .error e => return .error e
    | .ok s =>
      let s := withArtifact s a
      match Graph.ofItems? s.rows with
      | .error e => return .error (.graph e)
      | .ok _ =>
        let links ← brokenLinks p.network a s
        return do
          let links ← links
          let summary ← p.summary a
          return (a, a.issues summary links)

def validate (kind : Kind) (id : String) : StateM Memo (Except Failure (List Issue)) := do
  return (← p.examine kind id).map Prod.snd

def prepare (fresh : Uuid) (now : Timestamp) (kind : Kind) (id : String) :
    StateM Memo (Except Failure WorkUnit) := do
  return (← p.examine kind id).bind fun (a, issues) =>
    if issues.isEmpty then .ok (WorkUnit.queued fresh now a) else .error (.rejected a.id issues)

def inject (journal : Journal) (fresh : Uuid) (now : Timestamp) (kind : Kind) (id : String) :
    Except Failure Uuid × Journal :=
  match request (p.prepare fresh now kind id) with
  | .error e => (.error e, journal)
  | .ok u =>
    match Pool.enqueue journal u with
    | (.error e, journal) => (.error (.ofPool e), journal)
    | (.ok id, journal) => (.ok id, journal)

end CausalWork.Project
