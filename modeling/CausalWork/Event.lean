import CausalWork.WorkUnit

namespace CausalWork

inductive Change (τ : Type := Timestamp)
  | enqueued (unit : WorkUnit τ)
  | transitioned (transition : Transition)
  deriving DecidableEq

structure Event (τ : Type := Timestamp) where
  time : τ
  unitId : Uuid
  change : Change τ
  deriving DecidableEq

namespace Change

def toJson {τ : Type} [Temporal τ] : Change τ → Json
  | enqueued u => .object [("event", .text "enqueued"), ("unit", u.toJson)]
  | transitioned t => .object [("event", .text "transitioned"), ("transition", t.toJson)]

def ofJson? (j : Json) : Option Change := do
  match ← j.tagged? .strict 1 "event" ["enqueued", "transitioned"] with
  | ("enqueued", rest) =>
    match ← rest.fields? ["unit"] with
    | [unit] => return enqueued (← Json.required (WorkUnit.ofJson? .free) unit)
    | _ => none
  | ("transitioned", rest) =>
    match ← rest.fields? ["transition"] with
    | [transition] => return transitioned (← Json.required (Transition.ofJson? .free) transition)
    | _ => none
  | _ => none

end Change

namespace Event

def enqueued {τ : Type} (u : WorkUnit τ) : Event τ := ⟨u.queuedAt, u.id, .enqueued u⟩

def transitioned (id : Uuid) (now : Timestamp) (t : Transition) : Event :=
  ⟨now, id, .transitioned t⟩

def toJson {τ : Type} [Temporal τ] (e : Event τ) : Json :=
  .object [("timestamp", .text (Temporal.toText e.time)), ("unit_id", .text e.unitId.toText),
    ("change", e.change.toJson)]

def ofJson? (j : Json) : Option Event := do
  match ← j.fields? ["timestamp", "unit_id", "change"] with
  | [time, unitId, change] =>
    return {
      time := ← Json.required WorkUnit.time? time
      unitId := ← Json.required WorkUnit.uuid? unitId
      change := ← Json.required Change.ofJson? change }
  | _ => none

end Event

end CausalWork
