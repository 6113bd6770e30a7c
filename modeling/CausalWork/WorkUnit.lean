import CausalWork.Artifact
import CausalWork.Timestamp.Text
import CausalWork.Uuid

namespace CausalWork

inductive State
  | queued
  | dispatched
  | completed
  | failed
  deriving DecidableEq

inductive Transition
  | dispatch (agent : Option String)
  | complete
  | fail (reason : String)
  deriving DecidableEq

/-- One attempt at an artifact. Those that are read have timestamps, others may have any moments. -/
structure WorkUnit (τ : Type := Timestamp) where
  id : Uuid
  artifactId : String
  kind : Kind
  external : Bool
  state : State
  assignedAgent : Option String
  attempt : UInt32
  queuedAt : τ
  dispatchedAt : Option τ
  finishedAt : Option τ
  error : Option String
  deriving DecidableEq

structure InvalidTransition where
  unitId : Uuid
  source : State
  target : State
  deriving DecidableEq

namespace State

def all : List State := [queued, dispatched, completed, failed]

def name : State → String
  | queued => "queued"
  | dispatched => "dispatched"
  | completed => "completed"
  | failed => "failed"

def isLive : State → Bool
  | queued | dispatched => true
  | completed | failed => false

def isTerminal (s : State) : Bool := !s.isLive

def canBecome : State → State → Bool
  | queued, dispatched => true
  | dispatched, completed => true
  | dispatched, failed => true
  | _, _ => false

def next (s : State) : List State := all.filter s.canBecome

def ofName? (s : String) : Option State := all.find? fun state => state.name = s

def toJson (s : State) : Json := .text s.name

def ofJson? (m : Json.Manner) (j : Json) : Option State := do ofName? (← j.word? m)

theorem canBecome_isLive (s t : State) (h : s.canBecome t) : s.isLive := by
  cases s <;> cases t <;> simp_all [canBecome, isLive]

theorem ofName?_name (s : State) : ofName? s.name = some s := by cases s <;> decide

end State

namespace Transition

def target : Transition → State
  | dispatch _ => .dispatched
  | complete => .completed
  | fail _ => .failed

def toJson : Transition → Json
  | dispatch agent => .object (("to", .text "dispatch") :: Json.optional "agent" agent)
  | complete => .object [("to", .text "complete")]
  | fail reason => .object [("to", .text "fail"), ("reason", .text reason)]

def ofJson? (m : Json.Manner) (j : Json) : Option Transition := do
  match ← j.tagged? m 0 "to" ["dispatch", "complete", "fail"] with
  | ("dispatch", rest) =>
    match ← rest.fields? ["agent"] with
    | [agent] => return dispatch (← Json.nullable Json.text? agent)
    | _ => none
  | ("complete", rest) => if rest.isFieldless then some complete else none
  | ("fail", rest) =>
    match ← rest.fields? ["reason"] with
    | [reason] => return fail (← Json.required Json.text? reason)
    | _ => none
  | _ => none

end Transition

namespace InvalidTransition

def message (e : InvalidTransition) : String :=
  "invalid transition for work unit " ++ e.unitId.toText ++ ": " ++ e.source.name ++ " -> " ++
    e.target.name

end InvalidTransition

namespace WorkUnit

def isLive (u : WorkUnit) : Bool := u.state.isLive

def isFor (u : WorkUnit) (kind : Kind) (artifactId : String) : Bool :=
  u.kind = kind && u.artifactId = artifactId

def queued (id : Uuid) (now : Timestamp) (a : Artifact) : WorkUnit where
  id := id
  artifactId := a.id
  kind := a.kind
  external := a.isExternal
  state := .queued
  assignedAgent := none
  attempt := 1
  queuedAt := now
  dispatchedAt := none
  finishedAt := none
  error := none

/-- The unit after an allowed step. A dispatch without an agent keeps the agent it had. -/
def advance (u : WorkUnit) (now : Timestamp) : Transition → WorkUnit
  | .dispatch agent =>
    { u with
      state := .dispatched
      dispatchedAt := some now
      assignedAgent := agent <|> u.assignedAgent }
  | .complete => { u with state := .completed, finishedAt := some now }
  | .fail reason =>
    { u with state := .failed, finishedAt := some now, error := some reason }

def apply (u : WorkUnit) (t : Transition) (now : Timestamp) :
    Except InvalidTransition WorkUnit :=
  if u.state.canBecome t.target then .ok (u.advance now t)
  else .error ⟨u.id, u.state, t.target⟩

def timeMember {τ : Type} [Temporal τ] (name : String) (t : Option τ) : List (String × Json) :=
  Json.optional name (t.map Temporal.toText)

def toJson {τ : Type} [Temporal τ] (u : WorkUnit τ) : Json :=
  .object <|
    [("id", .text u.id.toText), ("artifact_id", .text u.artifactId), ("kind", u.kind.toJson),
      ("external", .bool u.external), ("state", u.state.toJson)] ++
    Json.optional "assigned_agent" u.assignedAgent ++
    [("attempt", .natural u.attempt.toNat), ("queued_at", .text (Temporal.toText u.queuedAt))] ++
    timeMember "dispatched_at" u.dispatchedAt ++
    timeMember "finished_at" u.finishedAt ++
    Json.optional "error" u.error

def fieldNames : List String :=
  ["id", "artifact_id", "kind", "external", "state", "assigned_agent", "attempt", "queued_at",
    "dispatched_at", "finished_at", "error"]

def attempt? (j : Json) : Option UInt32 := do
  let n ← j.natural?
  if n < UInt32.size then return UInt32.ofNat n else none

def time? (j : Json) : Option Timestamp := j.text?.bind Timestamp.ofText?

def uuid? (j : Json) : Option Uuid := j.text?.bind Uuid.ofText?

def ofJson? (m : Json.Manner) (j : Json) : Option WorkUnit := do
  match ← j.fields? fieldNames with
  | [id, artifactId, kind, external, state, agent, attempt, queued, dispatched, finished, error] =>
    return {
      id := ← Json.required uuid? id
      artifactId := ← Json.required Json.text? artifactId
      kind := ← Json.required (Kind.ofJson? m) kind
      external := ← Json.defaulted false Json.bool? external
      state := ← Json.required (State.ofJson? m) state
      assignedAgent := ← Json.nullable Json.text? agent
      attempt := ← Json.required attempt? attempt
      queuedAt := ← Json.required time? queued
      dispatchedAt := ← Json.nullable time? dispatched
      finishedAt := ← Json.nullable time? finished
      error := ← Json.nullable Json.text? error }
  | _ => none

theorem apply_eq_ok_iff (u v : WorkUnit) (t : Transition) (now : Timestamp) :
    u.apply t now = .ok v ↔ u.state.canBecome t.target ∧ u.advance now t = v := by
  unfold apply
  split <;> simp_all

theorem advance_id (u : WorkUnit) (now : Timestamp) (t : Transition) :
    (u.advance now t).id = u.id := by
  cases t <;> rfl

theorem advance_state (u : WorkUnit) (now : Timestamp) (t : Transition) :
    (u.advance now t).state = t.target := by
  cases t <;> rfl

theorem advance_isFor (u : WorkUnit) (now : Timestamp) (t : Transition) :
    (u.advance now t).isFor = u.isFor := by
  cases t <;> rfl

end WorkUnit

end CausalWork
