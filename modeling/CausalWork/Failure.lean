import CausalWork.Graph
import CausalWork.Pattern
import CausalWork.Pool
import CausalWork.Store

namespace CausalWork

inductive Failure
  | notFound (kind : Kind) (id : String)
  | graph (error : GraphError)
  | rejected (id : String) (issues : List Issue)
  | alreadyInjected (artifactId : String) (unitId : Uuid)
  | unresolved (id reason : String)
  | storeUnavailable (error : StoreError)
  | malformedRecord (kind : Kind) (id reason : String)
  | emptySet (kind : Kind)
  | invalidPattern (error : PatternError)
  | unknownWorkUnit (id : Uuid)
  | invalidTransition (step : InvalidTransition)
  | pool (error : PoolError)
  deriving DecidableEq

namespace Failure

def ofStore : StoreError → Failure
  | .malformed _ kind id reason => malformedRecord kind id reason
  | e => storeUnavailable e

def ofPool : PoolError → Failure
  | .conflict artifactId existing => alreadyInjected artifactId existing
  | .unknownUnit id => unknownWorkUnit id
  | .invalidTransition step => invalidTransition step
  | e => pool e

def message : Failure → String
  | notFound kind id => kind.name ++ " '" ++ id ++ "' not found in any consulted scope"
  | graph e => e.message
  | rejected id issues =>
    "'" ++ id ++ "' is not injectable (" ++ toString issues.length ++ " issue(s))"
  | alreadyInjected artifactId unitId =>
    "'" ++ artifactId ++ "' already has live work unit " ++ unitId.toText
  | unresolved id reason =>
    "Could not resolve '" ++ id ++ "' in any remote repository: " ++ reason
  | storeUnavailable e => "Artifact store unavailable: " ++ e.message
  | malformedRecord kind id reason =>
    "Malformed " ++ kind.name ++ " record '" ++ id ++ "': " ++ reason
  | emptySet kind => "No " ++ kind.name ++ " artifacts match the query"
  | invalidPattern e => "Invalid subsystem pattern: " ++ e.message
  | unknownWorkUnit id => "Work unit " ++ id.toText ++ " not found"
  | invalidTransition step => step.message
  | pool e => "Work pool error: " ++ e.message

def causes : Failure → List String
  | storeUnavailable e => [e.message]
  | invalidPattern e => [e.message]
  | pool (.file e) => [PoolError.message (.file e), e.message]
  | pool e => [e.message]
  | _ => []

end Failure

end CausalWork
