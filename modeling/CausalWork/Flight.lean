import CausalWork.Resolution

namespace CausalWork

inductive Sought
  | reference (r : Reference)
  | foreign (kind : Kind) (id : String)

structure Caller where
  sought : Sought
  result : Option (Except Failure Artifact)

/-- The lookup that asks the remotes for all that wait for the same answer: what it wants, why some
could not tell, the latest first, and who is still to be asked, each with its place. -/
structure Errand where
  leader : Wanted
  reasons : List String
  remotes : List (Nat × Remote)

/-- What a resolver keeps for a question. One lookup at a time may fill a cell, the others wait
until it is full, and then it stays as it is. Of a busy cell it is known whether the next remote was
called and has yet to answer. -/
inductive Cell
  | idle
  | busy (errand : Errand) (called : Bool)
  | full (outcome : Outcome)

/-- A resolver whose lookups run side by side. The calls that the remotes got, each for the sake of
a question, are kept with the latest first. -/
structure Flight where
  cells : Question → Cell
  callers : List Caller
  asked : List (Question × Nat)

/-- What may happen next, in any order: lookups begin, one comes to the cell of its question, a
remote is called, a remote answers out of the store that it then has, and a lookup returns what its
cell holds. No lookup is given up. -/
inductive Act
  | spawn (all : List Sought)
  | enter (caller : Nat)
  | call (q : Question)
  | hear (q : Question) (place : Nat) (store : Store)
  | take (caller : Nat)

namespace Sought

def wanted : Sought → Wanted
  | reference r => r.wanted
  | foreign kind id => ⟨kind, id, none⟩

def settle : Sought → Outcome → Except Failure Artifact
  | reference r, outcome => r.settle outcome
  | foreign kind id, outcome => outcome.settle kind id

end Sought

def Caller.question (t : Caller) : Question := t.sought.wanted.question

def Errand.next (e : Errand) : Cell :=
  match e.remotes with
  | [] => .full (.ofReasons e.reasons)
  | _ => .busy e false

namespace Network

def embark (n : Network) (w : Wanted) : Cell :=
  match n.candidates w.question.repo with
  | [] => .full (n.inquire w.question w.pin).1
  | remotes => .busy ⟨w, [], remotes⟩ false

def resume (n : Network) (w : Wanted) (reasons : List String) (r : Remote)
    (rest : List (Nat × Remote)) : Cell :=
  match r.heed w.pin reasons (r.ask n.deadline w.kind w.id) with
  | .inl outcome => .full outcome
  | .inr reasons => Errand.next ⟨w, reasons, rest⟩

end Network

namespace Flight

def start : Flight := ⟨fun _ => .idle, [], []⟩

def fill (f : Flight) (q : Question) (c : Cell) : Flight :=
  { f with cells := fun q' => if q' = q then c else f.cells q' }

/-- An act whose moment has not come changes nothing. -/
def step (n : Network) (f : Flight) : Act → Flight
  | .spawn all => { f with callers := f.callers ++ all.map fun s => ⟨s, none⟩ }
  | .enter i =>
    match f.callers[i]? with
    | none => f
    | some t =>
      match f.cells t.question with
      | .idle => f.fill t.question (n.embark t.sought.wanted)
      | _ => f
  | .call q =>
    match f.cells q with
    | .busy ⟨w, reasons, (place, r) :: rest⟩ false =>
      { f.fill q (.busy ⟨w, reasons, (place, r) :: rest⟩ true) with asked := (q, place) :: f.asked }
    | _ => f
  | .hear q place store =>
    match f.cells q with
    | .busy ⟨w, reasons, (next, r) :: rest⟩ true =>
      if next = place then f.fill q (n.resume w reasons { r with store } rest) else f
    | _ => f
  | .take i =>
    match f.callers[i]? with
    | none => f
    | some t =>
      match t.result, f.cells t.question with
      | none, .full outcome =>
        { f with callers := f.callers.set i ⟨t.sought, some (t.sought.settle outcome)⟩ }
      | _, _ => f

end Flight

def Network.fly (n : Network) (acts : List Act) : Flight := acts.foldl (Flight.step n) Flight.start

end CausalWork
