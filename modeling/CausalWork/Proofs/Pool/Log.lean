import CausalWork.Proofs.Pool.Call

namespace CausalWork

/-- What a call answers and the event that it records, or why it is refused, when the units of a
pool are these. -/
def Units.react (units : Units) : Call → Except PoolError (Answer × Event)
  | .enqueue u =>
    match (Pool.ofArtifact units u.kind u.artifactId).find? WorkUnit.isLive with
    | some live => .error (.conflict u.artifactId live.id)
    | none => .ok (.queued u.id, .enqueued (Journal.numbered units u))
  | .transition now id t =>
    match units.get? id with
    | none => .error (.unknownUnit id)
    | some u =>
      match u.apply t now with
      | .error step => .error (.invalidTransition step)
      | .ok v => .ok (.moved v, .transitioned id now t)

namespace Journal

open CausalWork.Units

variable {journal : Journal} {es : List Event} {units : Units}

/-- Of a journal that can be read a call sees the units alone, and it adds one event or nothing. -/
theorem perform_eq (h : journal.units = .ok units) (call : Call) : journal.perform call =
    match units.react call with
    | .error error => (.error error, journal)
    | .ok (answer, e) => (.ok answer, journal.append e) := by
  cases call with
  | enqueue u =>
      rw [perform, enqueue_eq h, react]
      cases (Pool.ofArtifact units u.kind u.artifactId).find? WorkUnit.isLive <;> rfl
  | transition now id t =>
      rw [perform, transition_eq h, react]
      cases units.get? id with
      | none => rfl
      | some u =>
          dsimp only
          cases u.apply t now <;> rfl

end Journal

/-- The events of a pool that keeps them as they are and not as text. -/
abbrev Log := List Event

namespace Log

open CausalWork.Units

def perform (log : Log) (call : Call) : Except PoolError Answer × Log :=
  match (replay log).react call with
  | .error error => (.error error, log)
  | .ok (answer, e) => (.ok answer, log ++ [e])

def ofCalls (calls : List Call) : Log := calls.foldl (fun log call => (log.perform call).2) []

def accepted (log : Log) : List Call → List WorkUnit
  | [] => []
  | call :: calls => call.taken (log.perform call).1 ++ accepted (log.perform call).2 calls

end Log

namespace Journal

variable {journal : Journal} {log : Log}

theorem Holds.perform (h : journal.Holds log) (call : Call) :
    (journal.perform call).1 = (Log.perform log call).1 ∧
      (journal.perform call).2.Holds (Log.perform log call).2 := by
  rw [perform_eq h.units, Log.perform]
  cases (Units.replay log).react call with
  | error error => exact ⟨rfl, h⟩
  | ok told => exact ⟨rfl, h.append told.2⟩

theorem Holds.foldl (h : journal.Holds log) (calls : List Call) :
    (calls.foldl (fun journal call => (journal.perform call).2) journal).Holds
      (calls.foldl (fun log call => (Log.perform log call).2) log) := by
  induction calls generalizing journal log with
  | nil => exact h
  | cons call calls ih => exact ih (h.perform call).2

theorem holds_ofCalls (calls : List Call) : (ofCalls calls).Holds (Log.ofCalls calls) :=
  holds_none.foldl calls

theorem Holds.accepted (h : journal.Holds log) (calls : List Call) :
    journal.accepted calls = Log.accepted log calls := by
  induction calls generalizing journal log with
  | nil => rfl
  | cons call calls ih =>
      rw [Journal.accepted, Log.accepted, (h.perform call).1, ih (h.perform call).2]

end Journal

namespace Pool

def sampleTime : Timestamp := ⟨⟨2024, 2, 29, by decide⟩, ⟨0, 0, by decide, by decide⟩⟩

def sampleUnit (digit : Fin 16) : WorkUnit :=
  WorkUnit.queued ⟨List.replicate 32 digit, List.length_replicate⟩ sampleTime
    ⟨"parser", .chunk, .chunk .future, [], [], .home⟩

end Pool

end CausalWork
