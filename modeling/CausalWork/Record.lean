import CausalWork.Artifact
import CausalWork.Yaml.Reader

namespace CausalWork.Record

inductive Fault
  | unreadable
  | status (kind : Kind) (text : String)
  deriving DecidableEq

namespace Fault

/-- Of an unreadable text only the format is named that it should have. -/
def message : Fault → String
  | unreadable => "<yaml>"
  | status kind text => Status.invalidText kind text

end Fault

structure Own where
  status : String
  createdAfter : List String
  subsystems : List String

def own? (y : Yaml) : Option Own := do
  match ← y.fields? ["status", "created_after", "subsystems"] with
  | [status, createdAfter, subsystems] =>
    return {
      status := ← Yaml.required Yaml.text? status
      createdAfter := ← Yaml.defaulted [] Yaml.texts? createdAfter
      subsystems := ← Yaml.defaulted [] Yaml.texts? subsystems }
  | _ => none

def artifact (kind : Kind) (id text : String) : Except Fault Artifact :=
  match (Yaml.parse? text).bind own? with
  | none => .error .unreadable
  | some own =>
    match Status.ofText? kind own.status with
    | none => .error (.status kind own.status)
    | some status => .ok ⟨id, kind, status, own.createdAfter, own.subsystems, .home⟩

def foreign? (kind : Kind) (id : String) (y : Yaml) : Option Reference := do
  match ← y.fields? ["repo", "track", "pinned", "created_after"] with
  | [repo, track, pinned, createdAfter] =>
    return {
      id, kind
      locator := {
        repo := ← Yaml.required Yaml.text? repo
        track := ← Yaml.defaulted none (Yaml.nullable Yaml.text?) track
        pinned := ← Yaml.defaulted none (Yaml.nullable Yaml.text?) pinned }
      createdAfter := ← Yaml.defaulted [] Yaml.texts? createdAfter }
  | _ => none

def reference (kind : Kind) (id text : String) : Except Fault Reference :=
  match (Yaml.parse? text).bind (foreign? kind id) with
  | none => .error .unreadable
  | some r => .ok r

end CausalWork.Record
