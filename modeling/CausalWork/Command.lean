import CausalWork.Kind

namespace CausalWork

inductive Command
  | inject (artifactId : String) (kind : Kind) (json : Bool)
  | validate (artifactId : String) (kind : Kind) (json : Bool)
  | list (kind : Kind) (json : Bool)
  | tips (kind : Kind) (subsystem : Option String) (json : Bool)
  | latest (kind : Kind) (json : Bool)
  | units (artifactId : Option String) (kind : Kind) (json : Bool)
  | dispatch (unitId : String) (agent : Option String)
  | complete (unitId : String)
  | fail (unitId reason : String)
  | config
  deriving DecidableEq

inductive Usage
  | help
  | helpForLack
  | version
  | unknownCommand
  | unknownArgument
  | missingArgument
  | missingValue
  | invalidValue
  | needlessValue
  | repeated
  deriving DecidableEq

namespace Command

def usesPool : Command → Bool
  | inject .. | units .. | dispatch .. | complete _ | fail .. => true
  | _ => false

end Command

end CausalWork
