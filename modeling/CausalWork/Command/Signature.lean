import CausalWork.Command

namespace CausalWork.Command

inductive Form
  | flag
  | text
  | kind
  deriving DecidableEq

structure Choice where
  name : String
  letter : Option Char
  form : Form
  deriving DecidableEq

structure Signature where
  place : Option Choice
  choices : List Choice

/-- The arguments that were given, the latest first. A flag has an empty value. -/
abbrev Given := List (String × String)

namespace Given

def text? (given : Given) (name : String) : Option String := given.lookup name

def kind (given : Given) : Kind := ((given.text? "kind").bind Kind.ofText?).getD .chunk

def json (given : Given) : Bool := (given.text? "json").isSome

end Given

namespace Signature

def unitId : Choice := ⟨"unit_id", none, .text⟩

def artifactId : Choice := ⟨"artifact_id", none, .text⟩

def kind : Choice := ⟨"kind", some 'k', .kind⟩

def json : Choice := ⟨"json", none, .flag⟩

def subsystem : Choice := ⟨"subsystem", some 's', .text⟩

def artifact : Choice := ⟨"artifact", some 'a', .text⟩

def agent : Choice := ⟨"agent", some 'a', .text⟩

def reason : Choice := ⟨"reason", some 'r', .text⟩

def ofName? : String → Option Signature
  | "inject" => some ⟨some artifactId, [kind, json]⟩
  | "validate" => some ⟨some artifactId, [kind, json]⟩
  | "list" => some ⟨some kind, [json]⟩
  | "tips" => some ⟨some kind, [subsystem, json]⟩
  | "latest" => some ⟨some kind, [json]⟩
  | "units" => some ⟨none, [artifact, kind, json]⟩
  | "dispatch" => some ⟨some unitId, [agent]⟩
  | "complete" => some ⟨some unitId, []⟩
  | "fail" => some ⟨some unitId, [reason]⟩
  | "config" => some ⟨none, []⟩
  | _ => none

def build? (name : String) (given : Given) : Option Command := do
  match name with
  | "inject" => return .inject (← given.text? "artifact_id") given.kind given.json
  | "validate" => return .validate (← given.text? "artifact_id") given.kind given.json
  | "list" => return .list given.kind given.json
  | "tips" => return .tips given.kind (given.text? "subsystem") given.json
  | "latest" => return .latest given.kind given.json
  | "units" => return .units (given.text? "artifact") given.kind given.json
  | "dispatch" => return .dispatch (← given.text? "unit_id") (given.text? "agent")
  | "complete" => return .complete (← given.text? "unit_id")
  | "fail" => return .fail (← given.text? "unit_id") (← given.text? "reason")
  | "config" => return .config
  | _ => none

end Signature

end CausalWork.Command
