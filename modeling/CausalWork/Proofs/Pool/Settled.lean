import CausalWork.Proofs.Pool.Call

namespace CausalWork

variable {τ σ : Type}

def WorkUnit.map (f : τ → σ) (u : WorkUnit τ) : WorkUnit σ :=
  { u with
    queuedAt := f u.queuedAt
    dispatchedAt := u.dispatchedAt.map f
    finishedAt := u.finishedAt.map f }

def Change.map (f : τ → σ) : Change τ → Change σ
  | enqueued u => enqueued (u.map f)
  | transitioned t => transitioned t

def Event.map (f : τ → σ) (e : Event τ) : Event σ := ⟨f e.time, e.unitId, e.change.map f⟩

def Call.map (f : τ → σ) : Call τ → Call σ
  | enqueue u => enqueue (u.map f)
  | transition now id t => transition now id t

theorem WorkUnit.map_settle_map (u : WorkUnit) :
    (u.map Timestamp.toMoment).map Moment.settle = u := by
  have hsome : ∀ t : Option Timestamp, (t.map Timestamp.toMoment).map Moment.settle = t := by
    rintro (_ | t)
    · rfl
    · exact congrArg some t.settle_toMoment
  simp only [map, hsome, Timestamp.settle_toMoment]

theorem Call.map_settle_map (call : Call) :
    (call.map Timestamp.toMoment).map Moment.settle = call := by
  cases call with
  | enqueue u => exact congrArg enqueue u.map_settle_map
  | transition now id t => rfl

section

variable [Temporal τ] [Temporal σ] {f : τ → σ} (hf : ∀ t, Temporal.toText (f t) = Temporal.toText t)

include hf

theorem WorkUnit.timeMember_map (name : String) (t : Option τ) :
    timeMember name (t.map f) = timeMember name t := by
  cases t with
  | none => rfl
  | some t => exact congrArg (fun s => [(name, Json.text s)]) (hf t)

theorem WorkUnit.toJson_map (u : WorkUnit τ) : (u.map f).toJson = u.toJson := by
  simp only [toJson, map, timeMember_map hf, hf]

theorem Event.toJson_map (e : Event τ) : (e.map f).toJson = e.toJson := by
  obtain ⟨time, unitId, change⟩ := e
  have hchange : (change.map f).toJson = change.toJson := by
    cases change with
    | enqueued u => simp only [Change.map, Change.toJson, WorkUnit.toJson_map hf]
    | transitioned t => rfl
  simp only [toJson, map, hf, hchange]

/-- A pool knows the moments of a unit that it is handed by their texts alone. -/
theorem Pool.enqueue_map (journal : Journal) (u : WorkUnit τ) :
    enqueue journal (u.map f) = enqueue journal u := by
  have happend (u : WorkUnit τ) :
      journal.append (.enqueued (u.map f)) = journal.append (.enqueued u) := by
    have he : (Event.enqueued u).map f = .enqueued (u.map f) := rfl
    rw [← he, Journal.append, Journal.line, Event.toJson_map hf]
    rfl
  cases h : journal.units with
  | error e => simp only [enqueue, h]
  | ok units =>
      have hnumbered : Journal.numbered units (u.map f) = (Journal.numbered units u).map f := rfl
      rw [Journal.enqueue_eq h, Journal.enqueue_eq h, hnumbered, happend]
      rfl

theorem Journal.perform_map (journal : Journal) (call : Call τ) :
    journal.perform (call.map f) = journal.perform call := by
  cases call with
  | enqueue u => simp only [Call.map, perform, Pool.enqueue_map hf]
  | transition now id t => rfl

theorem Journal.ofCalls_map (calls : List (Call τ)) :
    ofCalls (calls.map (Call.map f)) = ofCalls calls := by
  simp only [ofCalls, List.foldl_map, perform_map hf]

end

theorem Temporal.toText_settle (t : Moment) : toText t.settle = toText t := t.toText_settle

end CausalWork
