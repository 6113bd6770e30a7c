import CausalWork.FileTree
import CausalWork.Prose
import CausalWork.Record
import CausalWork.Store

namespace CausalWork

/-- A store that is a directory. Under it there is a directory for each kind, named by its plural,
and in it one for each artifact, named by its id. The latency is how many microseconds it takes to
look there. -/
structure FileStore where
  name : String
  root : String
  tree : FileTree
  latency : Nat

namespace FileStore

def recordFile : String := "artifact.yaml"

def referenceFile : String := "external.yaml"

def planFile : String := "PLAN.md"

variable (s : FileStore)

def kindDirectory (kind : Kind) : String := Path.join s.root kind.plural

def unavailable (reason : String) : StoreError := .unavailable s.name reason

def attempt {α : Type} : Except FileError α → Except StoreError α
  | .ok a => .ok a
  | .error e => .error (s.unavailable e.message)

def decoded {α : Type} (kind : Kind) (id : String) :
    Except Record.Fault α → Except StoreError α
  | .ok a => .ok a
  | .error e => .error (.malformed s.name kind id e.message)

/-- The record in an artifact's directory. A record of its own goes before a reference. -/
def load (kind : Kind) (id directory : String) : Except StoreError (Option Entry) := do
  let record := Path.join directory recordFile
  let reference := Path.join directory referenceFile
  if ← s.attempt (s.tree.isThere record) then
    let text ← s.attempt (s.tree.readText record)
    return some (.own (← s.decoded kind id (Record.artifact kind id text)))
  else if ← s.attempt (s.tree.isThere reference) then
    let text ← s.attempt (s.tree.readText reference)
    return some (.external (← s.decoded kind id (Record.reference kind id text)))
  else return none

def listed (kind : Kind) (id directory : String) : Except StoreError (Option Entry) :=
  match s.load kind id directory with
  | .error (.malformed _ _ id reason) => .ok (some (.malformed id reason))
  | answer => answer

def ids (entries : List (String × Node)) : List String :=
  (entries.filter fun e => e.2.isDirectory && Path.isPlain e.1).map Prod.fst

def list (kind : Kind) : Except StoreError (List Entry) := do
  if !(← s.attempt (s.tree.isThere s.root)) then
    throw (s.unavailable ("root directory does not exist: " ++ s.root))
  let directory := s.kindDirectory kind
  if !(← s.attempt (s.tree.isThere directory)) then return []
  let entries ← s.attempt (s.tree.entries directory)
  let found ← (ids entries).mapM fun id => s.listed kind id (Path.join directory id)
  return (found.filterMap id).mergeSort fun a b => ¬ b.id < a.id

def get (kind : Kind) (id : String) : Except StoreError (Option Entry) := do
  if !Path.isPlain id then return none
  let directory := Path.join (s.kindDirectory kind) id
  if !(← s.attempt (s.tree.isThere directory)) then return none
  s.load kind id directory

def store : Store where
  name := s.name
  latency id := if Path.isPlain id then s.latency else 0
  list := s.list
  get := s.get

def content : Content := fun a => do
  if !Path.isPlain a.id then return ⟨false⟩
  let plan := Path.join (Path.join (s.kindDirectory a.kind) a.id) planFile
  if !(← s.attempt (s.tree.isThere plan)) then return ⟨false⟩
  return ⟨Prose.isSubstantive (← s.attempt (s.tree.readText plan))⟩

end FileStore

end CausalWork
