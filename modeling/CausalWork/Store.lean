import CausalWork.Artifact
import CausalWork.Validation

namespace CausalWork

inductive Entry
  | own (artifact : Artifact)
  | external (reference : Reference)
  | malformed (id reason : String)
  deriving DecidableEq

inductive StoreError
  | unavailable (store reason : String)
  | malformed (store : String) (kind : Kind) (id reason : String)
  deriving DecidableEq

/-- What can be read of a store. The latency is how many microseconds it takes to get the entry of
an id. -/
structure Store where
  name : String
  latency : String → Nat
  list : Kind → Except StoreError (List Entry)
  get : Kind → String → Except StoreError (Option Entry)

abbrev Content := Artifact → Except StoreError Summary

namespace Entry

def id : Entry → String
  | own a => a.id
  | external r => r.id
  | malformed id _ => id

end Entry

namespace StoreError

def message : StoreError → String
  | unavailable store reason => "Store '" ++ store ++ "' unavailable: " ++ reason
  | malformed store kind id reason =>
    "Malformed record " ++ kind.name ++ "/" ++ id ++ " in '" ++ store ++ "': " ++ reason

end StoreError

end CausalWork
