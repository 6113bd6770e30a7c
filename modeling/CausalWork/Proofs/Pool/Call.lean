import CausalWork.Proofs.Journal
import CausalWork.Proofs.Pool.Sound

namespace CausalWork

/-- A call that may change a pool. The clock of the machine never shows a leap second. -/
inductive Call (τ : Type := Timestamp)
  | enqueue (u : WorkUnit τ)
  | transition (now : Timestamp) (id : Uuid) (t : Transition)

inductive Answer
  | queued (id : Uuid)
  | moved (u : WorkUnit)
  deriving DecidableEq

/-- The unit that a call brings into a pool by its answer, as it was handed in. -/
def Call.taken : Call → Except PoolError Answer → List WorkUnit
  | enqueue u, .ok _ => [u]
  | _, _ => []

theorem Call.taken_error (call : Call) (error : PoolError) : call.taken (.error error) = [] := by
  cases call <;> rfl

theorem Call.taken_transition (now : Timestamp) (id : Uuid) (t : Transition)
    (answer : Except PoolError Answer) : (transition now id t).taken answer = [] := by
  cases answer <;> rfl

namespace Journal

open CausalWork.Units

def perform {τ : Type} [Temporal τ] (journal : Journal) :
    Call τ → Except PoolError Answer × Journal
  | .enqueue u =>
    let (answer, after) := Pool.enqueue journal u
    (answer.map .queued, after)
  | .transition now id t =>
    let (answer, after) := Pool.transition journal now id t
    (answer.map .moved, after)

theorem perform_enqueue (journal : Journal) (u : WorkUnit) :
    (journal.perform (.enqueue u)).2 = (Pool.enqueue journal u).2 := rfl

def ofCalls {τ : Type} [Temporal τ] (calls : List (Call τ)) : Journal :=
  calls.foldl (fun journal call => (journal.perform call).2) none

/-- The units that calls bring into a pool when they are made one after another. -/
def accepted (journal : Journal) : List Call → List WorkUnit
  | [] => []
  | call :: calls =>
    call.taken (journal.perform call).1 ++ accepted (journal.perform call).2 calls

/-- A journal that the pool has written: each of its events could be recorded where it stands. -/
def Written (journal : Journal) : Prop := ∃ es, journal.Holds es ∧ Accepted es

variable {journal : Journal} {es : List Event}

def numbered {τ : Type} (units : Units) (u : WorkUnit τ) : WorkUnit τ :=
  { u with attempt := UInt32.ofNat (Pool.ofArtifact units u.kind u.artifactId).length + 1 }

theorem enqueue_eq {τ : Type} [Temporal τ] {units : Units} (h : journal.units = .ok units)
    (u : WorkUnit τ) : Pool.enqueue journal u =
      match (Pool.ofArtifact units u.kind u.artifactId).find? WorkUnit.isLive with
      | some live => (.error (.conflict u.artifactId live.id), journal)
      | none => (.ok u.id, journal.append (.enqueued (numbered units u))) := by
  rw [Pool.enqueue, h]
  rfl

theorem transition_eq {units : Units} (h : journal.units = .ok units) (now : Timestamp) (id : Uuid)
    (t : Transition) : Pool.transition journal now id t =
      match units.get? id with
      | none => (.error (.unknownUnit id), journal)
      | some u =>
        match u.apply t now with
        | .error step => (.error (.invalidTransition step), journal)
        | .ok v => (.ok v, journal.append (.transitioned id now t)) := by
  unfold Pool.transition
  generalize journal.units = found at h ⊢
  subst h
  rfl

theorem enqueue_cases (h : journal.Holds es) (u : WorkUnit) :
    (∃ live ∈ Pool.ofArtifact (replay es) u.kind u.artifactId, live.isLive ∧
      Pool.enqueue journal u = (.error (.conflict u.artifactId live.id), journal)) ∨
    ((replay es).Accepts (.enqueued (numbered (replay es) u)) ∧
      Pool.enqueue journal u =
        (.ok u.id, journal.append (.enqueued (numbered (replay es) u)))) := by
  rw [enqueue_eq h.units u]
  cases hf : (Pool.ofArtifact (replay es) u.kind u.artifactId).find? WorkUnit.isLive with
  | some live => exact .inl ⟨live, List.mem_of_find?_eq_some hf, List.find?_some hf, rfl⟩
  | none =>
      refine .inr ⟨.enqueued _ (fun v hv => ?_) rfl, rfl⟩
      simpa using List.find?_eq_none.1 hf v hv

theorem transition_cases (h : journal.Holds es) (now : Timestamp) (id : Uuid) (t : Transition) :
    (∃ error, Pool.transition journal now id t = (.error error, journal)) ∨
    (∃ u v, (replay es).get? id = some u ∧ u.apply t now = .ok v ∧
      Pool.transition journal now id t =
        (.ok v, journal.append (.transitioned id now t))) := by
  cases hg : (replay es).get? id with
  | none => exact .inl ⟨.unknownUnit id, by simp [Pool.transition, h.units, hg]⟩
  | some u =>
      cases ha : u.apply t now with
      | error step =>
          exact .inl ⟨.invalidTransition step, by simp [Pool.transition, h.units, hg, ha]⟩
      | ok v => exact .inr ⟨u, v, rfl, ha, by simp [Pool.transition, h.units, hg, ha]⟩

theorem perform_outcomes (h : journal.Holds es) (call : Call) :
    (∃ error, journal.perform call = (.error error, journal)) ∨
    (∃ u, call = .enqueue u ∧ (replay es).Accepts (.enqueued (numbered (replay es) u)) ∧
      journal.perform call =
        (.ok (.queued u.id), journal.append (.enqueued (numbered (replay es) u)))) ∨
    (∃ now id t u v, call = .transition now id t ∧ (replay es).get? id = some u ∧
      u.apply t now = .ok v ∧
      journal.perform call = (.ok (.moved v), journal.append (.transitioned id now t))) := by
  cases call with
  | enqueue u =>
      rcases enqueue_cases h u with ⟨live, -, -, he⟩ | ⟨ha, he⟩
      · exact .inl ⟨_, by rw [perform, he]; rfl⟩
      · exact .inr (.inl ⟨u, rfl, ha, by rw [perform, he]; rfl⟩)
  | transition now id t =>
      rcases transition_cases h now id t with ⟨error, he⟩ | ⟨u, v, hg, ha, he⟩
      · exact .inl ⟨_, by rw [perform, he]; rfl⟩
      · exact .inr (.inr ⟨now, id, t, u, v, rfl, hg, ha, by rw [perform, he]; rfl⟩)

/-- A call fails and leaves the journal as it was, or it succeeds and adds one event to it. -/
theorem perform_cases (h : journal.Holds es) (call : Call) :
    (∃ error, journal.perform call = (.error error, journal)) ∨
    (∃ answer e, (replay es).Accepts e ∧
      journal.perform call = (.ok answer, journal.append e)) := by
  rcases perform_outcomes h call with
    hrefused | ⟨u, -, ha, he⟩ | ⟨now, id, t, u, v, -, hg, ha, he⟩
  · exact .inl hrefused
  · exact .inr ⟨_, _, ha, he⟩
  · exact .inr ⟨_, _, .transitioned hg ha, he⟩

theorem Written.perform (h : journal.Written) (call : Call) : (journal.perform call).2.Written := by
  obtain ⟨es, hes, ha⟩ := h
  rcases perform_cases hes call with ⟨error, he⟩ | ⟨answer, e, hacc, he⟩
  · rw [he]
    exact ⟨es, hes, ha⟩
  · rw [he]
    exact ⟨es ++ [e], hes.append e, ha.snoc hacc⟩

theorem Written.foldl (h : journal.Written) (calls : List Call) :
    (calls.foldl (fun journal call => (journal.perform call).2) journal).Written := by
  induction calls generalizing journal with
  | nil => exact h
  | cons call calls ih => exact ih (h.perform call)

/-- Whatever is asked of a pool, in whatever order, leaves a journal that the pool has written. -/
theorem written_ofCalls (calls : List Call) : (ofCalls calls).Written :=
  Written.foldl ⟨[], holds_none, .nil⟩ calls

end Journal

end CausalWork
