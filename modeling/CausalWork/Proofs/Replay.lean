import CausalWork.Proofs.Pool.Log
import Mathlib.Data.List.Induction

namespace CausalWork

namespace WorkUnit

/-- The unit after a step that is tried. A step that its state does not allow leaves it as it is. -/
def tried (u : WorkUnit) (now : Timestamp) (t : Transition) : WorkUnit :=
  match u.apply t now with
  | .ok v => v
  | .error _ => u

def walk (u : WorkUnit) (steps : List (Timestamp × Transition)) : WorkUnit :=
  steps.foldl (fun u step => u.tried step.1 step.2) u

end WorkUnit

namespace Event

/-- What an event makes of the unit under its id. -/
def revise (before : Option WorkUnit) (e : Event) : Option WorkUnit :=
  match e.change with
  | .enqueued u => some u
  | .transitioned t => before.map fun u => u.tried e.time t

def steps (id : Uuid) (steps : List (Timestamp × Transition)) : List Event :=
  steps.map fun step => transitioned id step.1 step.2

theorem foldl_revise_steps (id : Uuid) (u : WorkUnit) (ts : List (Timestamp × Transition)) :
    (steps id ts).foldl revise (some u) = some (u.walk ts) := by
  induction ts generalizing u with
  | nil => rfl
  | cons step ts ih => exact ih (u.tried step.1 step.2)

theorem foldl_revise_none {es : List Event} (h : ∀ e ∈ es, ∀ u, e.change ≠ .enqueued u) :
    es.foldl revise none = none := by
  induction es with
  | nil => rfl
  | cons e es ih =>
      have hnone : revise none e = none := by
        unfold revise
        cases hc : e.change with
        | enqueued u => exact absurd hc (h e List.mem_cons_self u)
        | transitioned t => rfl
      rw [List.foldl_cons, hnone]
      exact ih fun e' he => h e' (List.mem_cons_of_mem e he)

theorem exists_last_enqueued {id : Uuid} {es : List Event} (h : ∀ e ∈ es, e.unitId = id) :
    (∀ e ∈ es, ∀ u, e.change ≠ .enqueued u) ∨
      ∃ before time u ts, es = before ++ ⟨time, id, .enqueued u⟩ :: steps id ts := by
  induction es using List.reverseRecOn with
  | nil => exact .inl fun e he => nomatch he
  | append_singleton es e ih =>
      obtain ⟨time, id', change⟩ := e
      obtain rfl : id' = id := h _ (List.mem_append_right es List.mem_cons_self)
      cases change with
      | enqueued u => exact .inr ⟨es, time, u, [], rfl⟩
      | transitioned t =>
          rcases ih fun e he => h e (List.mem_append_left _ he) with
            hnone | ⟨before, time', u, ts, rfl⟩
          · refine .inl fun e he u => ?_
            rcases List.mem_append.1 he with he | he
            · exact hnone e he u
            · obtain rfl := List.mem_singleton.1 he
              exact nofun
          · exact .inr ⟨before, time', u, ts ++ [(time, t)], by simp [steps, transitioned]⟩

end Event

namespace Units

variable {units : Units} {es es' : List Event}

def ofUnit (id : Uuid) (es : List Event) : List Event := es.filter fun e => e.unitId = id

theorem get?_record (units : Units) (e : Event) (id : Uuid) : (units.record e).get? id =
    if e.unitId = id then e.revise (units.get? id) else units.get? id := by
  obtain ⟨time, id', change⟩ := e
  by_cases hid : id' = id
  · subst hid
    rw [if_pos rfl]
    cases change with
    | enqueued u => exact get?_put_self units id' u
    | transitioned t =>
        unfold record Event.revise
        dsimp only
        cases hget : units.get? id' with
        | none => exact hget
        | some u =>
            dsimp only [Option.map_some, WorkUnit.tried]
            cases u.apply t time with
            | ok v => exact get?_put_self units id' v
            | error refusal => exact hget
  · rw [if_neg hid]
    cases change with
    | enqueued u => exact get?_put_of_ne units u (Ne.symm hid)
    | transitioned t =>
        unfold record
        dsimp only
        cases units.get? id' with
        | none => rfl
        | some u =>
            dsimp only
            cases u.apply t time with
            | ok v => exact get?_put_of_ne units v (Ne.symm hid)
            | error refusal => rfl

theorem get?_foldl_record (units : Units) (es : List Event) (id : Uuid) :
    (es.foldl record units).get? id = (ofUnit id es).foldl Event.revise (units.get? id) := by
  induction es generalizing units with
  | nil => rfl
  | cons e es ih =>
      rw [List.foldl_cons, ih, get?_record, ofUnit, ofUnit, List.filter_cons]
      by_cases hid : e.unitId = id
      · rw [if_pos hid, if_pos (decide_eq_true hid)]
        rfl
      · rw [if_neg hid, if_neg (by simpa using hid)]

theorem get?_replay (es : List Event) (id : Uuid) :
    (replay es).get? id = (ofUnit id es).foldl Event.revise none := get?_foldl_record [] es id

/-- A unit is there if it was brought in, as what it was brought in as for the last time and with
the steps after that which were allowed. -/
theorem get?_replay_cases (es : List Event) (id : Uuid) :
    (∀ e ∈ ofUnit id es, ∀ u, e.change ≠ .enqueued u) ∧ (replay es).get? id = none ∨
      ∃ before time u ts, ofUnit id es = before ++ ⟨time, id, .enqueued u⟩ :: Event.steps id ts ∧
        (replay es).get? id = some (u.walk ts) := by
  rw [get?_replay]
  have hid : ∀ e ∈ ofUnit id es, e.unitId = id := fun e he =>
    of_decide_eq_true (List.mem_filter.1 he).2
  rcases Event.exists_last_enqueued hid with hnone | ⟨before, time, u, ts, hsplit⟩
  · exact .inl ⟨hnone, Event.foldl_revise_none hnone⟩
  · refine .inr ⟨before, time, u, ts, hsplit, ?_⟩
    rw [hsplit, List.foldl_append, List.foldl_cons]
    exact Event.foldl_revise_steps id u ts

/-- A step of a unit that is not there, or one that its unit refuses. -/
def Idle (units : Units) (e : Event) : Prop :=
  ∃ t, e.change = .transitioned t ∧
    ∀ u, units.get? e.unitId = some u → ∃ refusal, u.apply t e.time = .error refusal

theorem Idle.record_eq {e : Event} (h : units.Idle e) : units.record e = units := by
  obtain ⟨t, hc, hrefused⟩ := h
  unfold record
  rw [hc]
  dsimp only
  cases hget : units.get? e.unitId with
  | none => rfl
  | some u =>
      obtain ⟨refusal, happly⟩ := hrefused u hget
      dsimp only
      rw [happly]

/-- The second log is the first one without some of the events that were idle where they stood. -/
inductive Pruned : Units → List Event → List Event → Prop
  | nil (units : Units) : Pruned units [] []
  | keep {units : Units} {e : Event} {es es' : List Event} (h : Pruned (units.record e) es es') :
      Pruned units (e :: es) (e :: es')
  | drop {units : Units} {e : Event} {es es' : List Event} (hidle : units.Idle e)
      (h : Pruned units es es') : Pruned units (e :: es) es'

theorem Pruned.foldl_record (h : Pruned units es es') :
    es'.foldl record units = es.foldl record units := by
  induction h with
  | nil units => rfl
  | keep h ih => exact ih
  | drop hidle h ih => rw [List.foldl_cons, hidle.record_eq, ih]

/-- A log in which every event does something where it stands. -/
def Lively (units : Units) (es : List Event) : Prop :=
  ∀ before e after, es = before ++ e :: after → ¬ (before.foldl record units).Idle e

theorem exists_pruned_lively (units : Units) (es : List Event) :
    ∃ es', Pruned units es es' ∧ Lively units es' := by
  induction es generalizing units with
  | nil => exact ⟨[], .nil units, fun before e after h => by simp at h⟩
  | cons e es ih =>
      by_cases hidle : units.Idle e
      · obtain ⟨es', hp, hl⟩ := ih units
        exact ⟨es', .drop hidle hp, hl⟩
      · obtain ⟨es', hp, hl⟩ := ih (units.record e)
        refine ⟨e :: es', .keep hp, fun before e' after hsplit => ?_⟩
        cases before with
        | nil =>
            obtain ⟨rfl, -⟩ := List.cons.inj hsplit
            exact hidle
        | cons first before =>
            obtain ⟨rfl, hrest⟩ := List.cons.inj hsplit
            exact hl before e' after hrest

/-- Every unit has the same events in the same order in both logs. -/
def Reordered (es es' : List Event) : Prop := ∀ id, ofUnit id es = ofUnit id es'

/-- Events of different units may change places. -/
theorem reordered_swap (front back : List Event) {a b : Event} (h : a.unitId ≠ b.unitId) :
    Reordered (front ++ a :: b :: back) (front ++ b :: a :: back) := by
  intro id
  unfold ofUnit
  rw [List.filter_append, List.filter_append]
  congr 1
  by_cases ha : a.unitId = id
  · have hb : b.unitId ≠ id := fun hb => h (ha.trans hb.symm)
    simp [ha, hb]
  · simp [List.filter_cons, ha]

theorem nodup_record (h : (units.map Prod.fst).Nodup) (e : Event) :
    ((units.record e).map Prod.fst).Nodup := by
  unfold record
  cases e.change with
  | enqueued u => exact nodup_put h _ u
  | transitioned t =>
      dsimp only
      cases units.get? e.unitId with
      | none => exact h
      | some u =>
          dsimp only
          cases u.apply t e.time with
          | ok v => exact nodup_put h _ v
          | error refusal => exact h

theorem nodup_replay (es : List Event) : ((replay es).map Prod.fst).Nodup := by
  induction es using List.reverseRecOn with
  | nil => exact List.nodup_nil
  | append_singleton es e ih =>
      rw [replay_append_singleton]
      exact nodup_record ih e

/-- Units that are found alike under every id are the same, but for the order in which they came. -/
theorem perm_of_get?_eq {units units' : Units} (hn : (units.map Prod.fst).Nodup)
    (hn' : (units'.map Prod.fst).Nodup) (h : ∀ id, units.get? id = units'.get? id) :
    units.Perm units' := by
  refine (List.perm_ext_iff_of_nodup hn.of_map hn'.of_map).2 fun entry => ?_
  rw [mem_iff_get? hn entry.1 entry.2, mem_iff_get? hn' entry.1 entry.2, h]

/-- Whatever a log holds, what it says of a unit is said by the events of that unit alone: it is
there as it was brought in last, with the allowed ones of the steps that follow. Idle events may be
left out, also all of them, and events of different units may change places. -/
theorem replay_by_unit (es : List Event) :
    (∀ id es', ofUnit id es = ofUnit id es' → (replay es).get? id = (replay es').get? id) ∧
      (∀ id, (∀ e ∈ ofUnit id es, ∀ u, e.change ≠ .enqueued u) ∧ (replay es).get? id = none ∨
        ∃ before time u ts, ofUnit id es = before ++ ⟨time, id, .enqueued u⟩ :: Event.steps id ts ∧
          (replay es).get? id = some (u.walk ts)) ∧
      (∀ es', Pruned [] es es' → replay es' = replay es) ∧
      (∃ es', Pruned [] es es' ∧ Lively [] es') ∧
      ∀ es', Reordered es es' →
        (∀ id, (replay es).get? id = (replay es').get? id) ∧ (replay es).Perm (replay es') := by
  have hown (id : Uuid) (es' : List Event) (h : ofUnit id es = ofUnit id es') :
      (replay es).get? id = (replay es').get? id := by
    rw [get?_replay, get?_replay, h]
  refine ⟨hown, get?_replay_cases es, fun es' h => h.foldl_record, exists_pruned_lively [] es,
    fun es' h => ?_⟩
  have hget : ∀ id, (replay es).get? id = (replay es').get? id := fun id => hown id es' (h id)
  exact ⟨hget, perm_of_get?_eq (nodup_replay es) (nodup_replay es') hget⟩

open Pool in
example :
    let u := sampleUnit 0
    let other := (sampleUnit 1).id
    replay [.transitioned u.id sampleTime (.dispatch none), .enqueued u,
        ⟨sampleTime, other, .enqueued u⟩, .transitioned u.id sampleTime .complete,
        .transitioned other sampleTime (.dispatch none)] =
      [(u.id, u), (other, { u with state := .dispatched, dispatchedAt := some sampleTime })] := by
  decide +kernel

end Units

end CausalWork
