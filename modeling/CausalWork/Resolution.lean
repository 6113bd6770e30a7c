import CausalWork.Failure
import CausalWork.Network

namespace CausalWork

inductive Outcome
  | found (artifact : Artifact)
  | unclaimed
  | unreachable (reason : String)
  deriving DecidableEq

/-- A question to the remotes: a kind, an id, and the repository if only one is asked. -/
structure Question where
  kind : Kind
  id : String
  repo : Option String
  deriving DecidableEq

/-- What is looked for: a kind, an id, and the locator of the reference that asks if there is one.
-/
structure Wanted where
  kind : Kind
  id : String
  pin : Option Locator

def Wanted.question (w : Wanted) : Question := ⟨w.kind, w.id, w.pin.map Locator.repo⟩

def Reference.wanted (r : Reference) : Wanted := ⟨r.kind, r.id, some r.locator⟩

/-- What one request has learned so far, and the places of the remotes that it asked, the latest
first. -/
structure Memo where
  outcomes : List (Question × Outcome)
  asked : List Nat

namespace Memo

def empty : Memo := ⟨[], []⟩

end Memo

def Outcome.ofReasons : List String → Outcome
  | [] => unclaimed
  | reasons => unreachable (String.intercalate "; " reasons.reverse)

def Outcome.settle (kind : Kind) (id : String) : Outcome → Except Failure Artifact
  | found a => .ok a
  | unclaimed => .error (.notFound kind id)
  | unreachable reason => .error (.unresolved id reason)

/-- What an outcome says of a reference. The artifact comes after what the reference says, not after
what its owner says. -/
def Reference.settle (r : Reference) : Outcome → Except Failure Artifact
  | .found a => .ok { a with createdAfter := r.createdAfter }
  | .unclaimed => .error (.unresolved r.id ("not found in " ++ r.locator.toText))
  | .unreachable reason => .error (.unresolved r.id reason)

def Remote.heed (r : Remote) (pin : Option Locator) (reasons : List String) :
    Reply → Outcome ⊕ List String
  | .owned a => .inl (.found { a with source := .external (pin.getD r.locator) })
  | .disclaimed => .inr reasons
  | .failed reason => .inr (reason :: reasons)

namespace Network

/-- Asks remotes in turn until one owns the id. Reasons of failures are kept in reverse. The second
part has the places of those that were asked, the latest first. -/
def survey (deadline : Option Nat) (q : Question) (pin : Option Locator) :
    (reasons : List String) → (asked : List Nat) → List (Nat × Remote) → Outcome × List Nat
  | reasons, asked, [] => (.ofReasons reasons, asked)
  | reasons, asked, (place, r) :: remotes =>
    match r.heed pin reasons (r.ask deadline q.kind q.id) with
    | .inl outcome => (outcome, place :: asked)
    | .inr reasons => survey deadline q pin reasons (place :: asked) remotes

/-- Asks the remotes afresh. A repository that no remote stands for cannot be reached. -/
def inquire (n : Network) (q : Question) (pin : Option Locator) : Outcome × List Nat :=
  match n.candidates q.repo, q.repo with
  | [], some repo => (.unreachable ("no remote configured for " ++ repo), [])
  | remotes, _ => survey n.deadline q pin [] [] remotes

/-- The answer to a question within one request: the first one stands for all later ones. Here a
lookup is one step; a `Flight` takes it apart. -/
def lookup (n : Network) (kind : Kind) (id : String) (pin : Option Locator) :
    StateM Memo Outcome := fun memo =>
  let q : Question := ⟨kind, id, pin.map Locator.repo⟩
  match memo.outcomes.lookup q with
  | some outcome => (outcome, memo)
  | none =>
    let (outcome, asked) := n.inquire q pin
    (outcome, ⟨(q, outcome) :: memo.outcomes, asked ++ memo.asked⟩)

def resolveReference (n : Network) (r : Reference) : StateM Memo (Except Failure Artifact) :=
  r.settle <$> n.lookup r.kind r.id (some r.locator)

def resolveForeign (n : Network) (kind : Kind) (id : String) :
    StateM Memo (Except Failure Artifact) :=
  Outcome.settle kind id <$> n.lookup kind id none

def resolve (n : Network) (home : Store) (kind : Kind) (id : String) :
    StateM Memo (Except Failure Artifact) := do
  match home.get kind id with
  | .error e => return .error (.ofStore e)
  | .ok (some (.own a)) => return .ok a
  | .ok (some (.external r)) => n.resolveReference r
  | .ok (some (.malformed id reason)) => return .error (.malformedRecord kind id reason)
  | .ok none => n.resolveForeign kind id

/-- Resolves references, each looked up after the one before. Lookups that run side by side are a
`Flight`, and are told the same while the stores stand still. -/
def resolveReferences (n : Network) (refs : List Reference) :
    StateM Memo (List (Reference × Except Failure Artifact)) :=
  refs.mapM fun r => return (r, ← n.resolveReference r)

def resolveIds (n : Network) (kind : Kind) (ids : List String) :
    StateM Memo (List (String × Except Failure Artifact)) :=
  ids.mapM fun id => return (id, ← n.resolveForeign kind id)

end Network

end CausalWork
