import CausalWork.Command

namespace CausalWork.Usage

def isWish : Usage → Bool
  | help | version => true
  | _ => false

def commands : List String :=
  ["inject <artifact id> [-k <kind>] [--json]", "validate <artifact id> [-k <kind>] [--json]",
    "list [<kind>] [--json]", "tips [<kind>] [-s <pattern>] [--json]", "latest [<kind>] [--json]",
    "units [-a <artifact id>] [-k <kind>] [--json]", "dispatch <unit id> [-a <agent>]",
    "complete <unit id>", "fail <unit id> -r <reason>", "config"]

def overview : String :=
  String.join ("Usage: causeway <command>\n\nCommands:\n" ::
    commands.map fun command => "  " ++ command ++ "\n")

def fault (note : String) : String :=
  "error: " ++ note ++ "\n\nFor more information, try '--help'.\n"

def message : Usage → String
  | help => overview
  | helpForLack => overview
  | version => "causeway\n"
  | unknownCommand => fault "there is no such command"
  | unknownArgument => fault "an argument is not expected here"
  | missingArgument => fault "an argument that is required is missing"
  | missingValue => fault "an option lacks its value"
  | invalidValue => fault "a value does not name a kind of artifact"
  | needlessValue => fault "an option takes no value"
  | repeated => fault "an option is given more than once"

end CausalWork.Usage
