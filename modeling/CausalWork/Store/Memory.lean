import CausalWork.Collate
import CausalWork.Store

namespace CausalWork

structure MemoryStore where
  name : String
  entries : List (Kind × Entry)
  plans : List ((Kind × String) × Bool)
  offline : Bool
  latency : Nat
  deriving Inhabited

namespace MemoryStore

def named (name : String) : MemoryStore := ⟨name, [], [], false, 0⟩

def insert (s : MemoryStore) (kind : Kind) (e : Entry) : MemoryStore :=
  { s with entries := (kind, e) :: s.entries.filter fun old => (old.1, old.2.id) ≠ (kind, e.id) }

def insertArtifact (s : MemoryStore) (a : Artifact) : MemoryStore := s.insert a.kind (.own a)

def insertReference (s : MemoryStore) (r : Reference) : MemoryStore := s.insert r.kind (.external r)

def setPlan (s : MemoryStore) (kind : Kind) (id : String) (substantive : Bool) : MemoryStore :=
  { s with plans := ((kind, id), substantive) :: s.plans }

def answer {α : Type} (s : MemoryStore) (a : α) : Except StoreError α :=
  if s.offline then .error (.unavailable s.name "store is offline") else .ok a

def ofKind (s : MemoryStore) (kind : Kind) : List Entry :=
  collate (fun a b => a.id < b.id) ((s.entries.filter fun e => e.1 = kind).map Prod.snd)

def store (s : MemoryStore) : Store where
  name := s.name
  latency _ := 1000 * s.latency
  list kind := s.answer (s.ofKind kind)
  get kind id := s.answer ((s.ofKind kind).find? fun e => e.id = id)

def content (s : MemoryStore) : Content := fun a =>
  .ok ⟨(s.plans.lookup (a.kind, a.id)).getD false⟩

end MemoryStore

end CausalWork
