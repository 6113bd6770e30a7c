import CausalWork.Event

namespace CausalWork

abbrev Units := List (Uuid × WorkUnit)

namespace Units

def get? (units : Units) (id : Uuid) : Option WorkUnit := units.lookup id

def put (id : Uuid) (u : WorkUnit) : Units → Units
  | [] => [(id, u)]
  | entry :: units => if entry.1 = id then (id, u) :: units else entry :: put id u units

/-- What an event does to the units. A step that its unit does not allow, or that no unit
is there for, changes nothing. -/
def record (units : Units) (e : Event) : Units :=
  match e.change with
  | .enqueued u => units.put e.unitId u
  | .transitioned t =>
    match units.get? e.unitId with
    | none => units
    | some u =>
      match u.apply t e.time with
      | .ok v => units.put e.unitId v
      | .error _ => units

def replay (events : List Event) : Units := events.foldl record []

/-- The units alone, by the moment they were queued and then by id. -/
def ordered (units : List WorkUnit) : List WorkUnit :=
  units.mergeSort fun a b =>
    if a.queuedAt = b.queuedAt then a.id.le b.id else a.queuedAt.le b.queuedAt

theorem get?_cons_self (units : Units) (id : Uuid) (u : WorkUnit) :
    get? ((id, u) :: units) id = some u :=
  List.lookup_cons_self

theorem get?_cons_of_ne (units : Units) (entry : Uuid × WorkUnit) {id : Uuid} (h : id ≠ entry.1) :
    get? (entry :: units) id = units.get? id := by
  have hb : (id == entry.1) = false := by simpa using h
  unfold get?
  rw [List.lookup_cons, hb]

theorem get?_put_self (units : Units) (id : Uuid) (u : WorkUnit) :
    (units.put id u).get? id = some u := by
  induction units with
  | nil => exact get?_cons_self [] id u
  | cons entry units ih =>
      unfold put
      split
      · exact get?_cons_self units id u
      · rename_i h
        rw [get?_cons_of_ne _ entry (Ne.symm h)]
        exact ih

theorem get?_put_of_ne (units : Units) {id other : Uuid} (u : WorkUnit) (h : other ≠ id) :
    (units.put id u).get? other = units.get? other := by
  induction units with
  | nil => exact get?_cons_of_ne [] (id, u) h
  | cons entry units ih =>
      unfold put
      split
      · rename_i he
        rw [get?_cons_of_ne units (id, u) h, get?_cons_of_ne units entry (he ▸ h)]
      · by_cases ho : other = entry.1
        · subst ho
          rw [get?_cons_self, get?_cons_self]
        · rw [get?_cons_of_ne _ entry ho, get?_cons_of_ne _ entry ho]
          exact ih

end Units

end CausalWork
