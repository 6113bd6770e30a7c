import CausalWork.Event
import CausalWork.Proofs.Json.Record
import CausalWork.Proofs.Timestamp
import CausalWork.Proofs.Uuid

namespace CausalWork

open Json

theorem Kind.ofJson?_toJson (m : Manner) (k : Kind) : Kind.ofJson? m k.toJson = some k :=
  k.ofName?_name

theorem State.ofJson?_toJson (m : Manner) (s : State) : State.ofJson? m s.toJson = some s :=
  s.ofName?_name

namespace Transition

def case : Transition → String
  | dispatch _ => "dispatch"
  | complete => "complete"
  | fail _ => "fail"

def record : Transition → List (String × Option Json)
  | dispatch agent => [("agent", agent.map text)]
  | complete => []
  | fail reason => [("reason", some (text reason))]

theorem toJson_eq (t : Transition) : t.toJson = object (("to", text t.case) :: present t.record) := by
  rcases t with ⟨_ | agent⟩ | _ | reason <;> rfl

theorem isPlain_toJson (t : Transition) : t.toJson.isPlain := by
  rcases t with ⟨_ | agent⟩ | _ | reason <;> rfl

theorem fits_toJson (t : Transition) (room : Nat) : t.toJson.fits (room + 1) := by
  rcases t with ⟨_ | agent⟩ | _ | reason <;> simp [toJson, Json.optional, fits, membersFit]

theorem ofJson?_toJson (m : Manner) (t : Transition) : Transition.ofJson? m t.toJson = some t := by
  have ht : t.toJson.tagged? m 0 "to" ["dispatch", "complete", "fail"] =
      some (t.case, object (present t.record)) := by
    have hfit := t.fits_toJson (deepest - 1)
    rw [toJson_eq] at hfit ⊢
    refine tagged?_present ?_ (.inr hfit)
    cases t <;> simp [record]
  rw [ofJson?, ht]
  cases t with
  | dispatch agent =>
      have hf := fields?_present [("agent", agent.map text)] (by simp)
      cases agent <;> simp_all [case, record, nullable, text?]
  | complete => rfl
  | fail reason =>
      have hf := fields?_present [("reason", some (text reason))] (by simp)
      simp_all [case, record, required, text?]

end Transition

namespace WorkUnit

theorem uuid?_toText (u : Uuid) : uuid? (text u.toText) = some u := by
  simp [uuid?, text?, Uuid.ofText?_toText]

theorem time?_toText (t : Timestamp) : time? (text (Temporal.toText t)) = some t := by
  have ht : Temporal.toText t = t.toText := rfl
  simp [time?, text?, ht, Timestamp.ofText?_toText]

theorem attempt?_toNat (n : UInt32) : attempt? (natural n.toNat) = some n := by
  simp [attempt?, natural?, n.toNat_lt_size]

theorem nullable_text (s : Option String) : nullable text? (s.map text) = some s := by
  cases s <;> rfl

theorem nullable_time (t : Option Timestamp) :
    nullable time? (t.map fun t => text (Temporal.toText t)) = some t := by
  cases t with
  | none => rfl
  | some t => simp [nullable, time?_toText]

def record (u : WorkUnit) : List (String × Option Json) :=
  [("id", some (text u.id.toText)), ("artifact_id", some (text u.artifactId)),
    ("kind", some u.kind.toJson), ("external", some (bool u.external)),
    ("state", some u.state.toJson), ("assigned_agent", u.assignedAgent.map text),
    ("attempt", some (natural u.attempt.toNat)),
    ("queued_at", some (text (Temporal.toText u.queuedAt))),
    ("dispatched_at", u.dispatchedAt.map fun t => text (Temporal.toText t)),
    ("finished_at", u.finishedAt.map fun t => text (Temporal.toText t)),
    ("error", u.error.map text)]

theorem present_cons_time (name : String) (t : Option Timestamp)
    (fields : List (String × Option Json)) :
    present ((name, t.map fun t => text (Temporal.toText t)) :: fields) =
      timeMember name t ++ present fields := by
  cases t <;> rfl

theorem toJson_eq (u : WorkUnit) : u.toJson = object (present u.record) := by
  simp only [record, present_nil, present_cons_some, present_cons_map_text, present_cons_time]
  simp only [toJson, List.append_assoc, List.cons_append, List.nil_append, List.append_nil]

theorem ofJson?_toJson (m : Manner) (u : WorkUnit) : WorkUnit.ofJson? m u.toJson = some u := by
  have hf : (object (present u.record)).fields? fieldNames = some (u.record.map Prod.snd) :=
    fields?_present u.record (by simp [record])
  rw [ofJson?, toJson_eq, hf]
  simp [record, required, defaulted, bool?, text?, uuid?_toText, time?_toText, attempt?_toNat,
    nullable_text, nullable_time, Kind.ofJson?_toJson, State.ofJson?_toJson]

theorem isPlain_toJson (u : WorkUnit) : u.toJson.isPlain := by
  rw [toJson_eq]
  refine isPlain_present ?_
  have hn : u.attempt.toNat < UInt64.size := Nat.lt_trans u.attempt.toNat_lt_size (by decide)
  have hs (s : Option String) : (s.map text).all isPlain := all_map (fun _ => rfl) s
  have ht (t : Option Timestamp) : (t.map fun t => text (Temporal.toText t)).all isPlain :=
    all_map (fun _ => rfl) t
  simp [record, isPlain, hn, Kind.toJson, State.toJson, hs, ht]

theorem fits_toJson (u : WorkUnit) (room : Nat) : u.toJson.fits (room + 1) := by
  rw [toJson_eq]
  refine fits_present ?_
  have hs (s : Option String) : (s.map text).all (fits room) := all_map (fun _ => rfl) s
  have ht (t : Option Timestamp) : (t.map fun t => text (Temporal.toText t)).all (fits room) :=
    all_map (fun _ => rfl) t
  simp [record, fits, Kind.toJson, State.toJson, hs, ht]

end WorkUnit

namespace Change

def case : Change → String
  | enqueued _ => "enqueued"
  | transitioned _ => "transitioned"

def record : Change → List (String × Option Json)
  | enqueued u => [("unit", some u.toJson)]
  | transitioned t => [("transition", some t.toJson)]

theorem toJson_eq (c : Change) :
    c.toJson = object (("event", text c.case) :: present c.record) := by
  cases c <;> rfl

theorem isPlain_toJson (c : Change) : c.toJson.isPlain := by
  cases c with
  | enqueued u => simp [toJson, isPlain, membersPlain, u.isPlain_toJson]
  | transitioned t => simp [toJson, isPlain, membersPlain, t.isPlain_toJson]

theorem fits_toJson (c : Change) (room : Nat) : c.toJson.fits (room + 2) := by
  cases c with
  | enqueued u => simp [toJson, fits, membersFit, u.fits_toJson]
  | transitioned t => simp [toJson, fits, membersFit, t.fits_toJson]

theorem ofJson?_toJson (c : Change) : Change.ofJson? c.toJson = some c := by
  have ht : c.toJson.tagged? .strict 1 "event" ["enqueued", "transitioned"] =
      some (c.case, object (present c.record)) := by
    have hfit := c.fits_toJson (deepest - 1 - 2)
    rw [toJson_eq] at hfit ⊢
    refine tagged?_present ?_ (.inr hfit)
    cases c <;> simp [record]
  rw [ofJson?, ht]
  cases c with
  | enqueued u =>
      have hf := fields?_present [("unit", some u.toJson)] (by simp)
      simp_all [case, record, required, u.ofJson?_toJson]
  | transitioned t =>
      have hf := fields?_present [("transition", some t.toJson)] (by simp)
      simp_all [case, record, required, t.ofJson?_toJson]

end Change

namespace Event

def record (e : Event) : List (String × Option Json) :=
  [("timestamp", some (text (Temporal.toText e.time))), ("unit_id", some (text e.unitId.toText)),
    ("change", some e.change.toJson)]

theorem ofJson?_toJson (e : Event) : Event.ofJson? e.toJson = some e := by
  have hf : e.toJson.fields? ["timestamp", "unit_id", "change"] = some (e.record.map Prod.snd) :=
    fields?_present e.record (by simp [record])
  rw [ofJson?, hf]
  simp [record, required, WorkUnit.time?_toText, WorkUnit.uuid?_toText, e.change.ofJson?_toJson]

theorem isPlain_toJson (e : Event) : e.toJson.isPlain := by
  simp [toJson, isPlain, membersPlain, e.change.isPlain_toJson]

theorem read_compact (e : Event) : (Json.parse? e.toJson.compact).bind Event.ofJson? = some e := by
  rw [parse?_compact e.isPlain_toJson, Option.bind_some]
  exact e.ofJson?_toJson

end Event

end CausalWork
