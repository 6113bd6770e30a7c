namespace CausalWork

/-- How far an order of ids has come: for each id the number of its parents that are not placed yet,
and the ids that wait for none, in ascending order. -/
structure Countdown where
  degrees : List (String × Nat)
  ready : List String

namespace Countdown

def enter (id : String) : List String → List String
  | [] => [id]
  | x :: xs => if id < x then id :: x :: xs else x :: enter id xs

def setDegree (id : String) (degree : Nat) (degrees : List (String × Nat)) :
    List (String × Nat) :=
  degrees.map fun d => if d.1 = id then (id, degree) else d

def lower? (c : Countdown) (id : String) : Option Countdown :=
  match c.degrees.lookup id with
  | none => some c
  | some 0 => none
  | some (degree + 1) =>
    some ⟨setDegree id degree c.degrees, if degree = 0 then enter id c.ready else c.ready⟩

/-- Places the first id that is ready, counts it off at its children, and goes on. Each step places
an id, so the steps suffice if there are as many of them as ids. -/
def place? (children : String → List String) : (steps : Nat) → Countdown → Option (List String)
  | 0, c => if c.ready.isEmpty then some [] else none
  | steps + 1, c =>
    match c.ready with
    | [] => some []
    | id :: ready => do
      let c ← (children id).foldlM lower? { c with ready }
      return id :: (← place? children steps c)

def start (links : List (String × List String)) : Countdown where
  degrees := links.map fun l => (l.1, l.2.length)
  ready := (links.filter fun l => l.2.isEmpty).map Prod.fst

end Countdown

end CausalWork
