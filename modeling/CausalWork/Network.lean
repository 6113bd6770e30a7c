import CausalWork.Store
import CausalWork.Text.Duration

namespace CausalWork

structure Remote where
  locator : Locator
  store : Store

/-- The foreign repositories in the order in which they are asked, and how many milliseconds each
may take. -/
structure Network where
  remotes : List Remote
  deadline : Option Nat

inductive Reply
  | owned (artifact : Artifact)
  | disclaimed
  | failed (reason : String)
  deriving DecidableEq

namespace Remote

def isLate (r : Remote) (deadline : Option Nat) (id : String) : Bool :=
  deadline.any fun ms => 1000 * ms < r.store.latency id

/-- A remote owns what it has a record of its own for. Its references to others are no claims. -/
def ask (r : Remote) (deadline : Option Nat) (kind : Kind) (id : String) : Reply :=
  let fail (reason : String) : Reply := .failed (r.locator.repo ++ ": " ++ reason)
  if r.isLate deadline id then fail ("timed out after " ++ Text.duration (deadline.getD 0))
  else match r.store.get kind id with
    | .ok (some (.own a)) => .owned a
    | .ok (some (.malformed _ reason)) => fail ("malformed record: " ++ reason)
    | .ok _ => .disclaimed
    | .error e => fail e.message

end Remote

namespace Network

def hasRemotes (n : Network) : Bool := !n.remotes.isEmpty

def candidates (n : Network) (repo : Option String) : List (Nat × Remote) :=
  let placed := n.remotes.zipIdx.map fun (r, place) => (place, r)
  match repo with
  | none => placed
  | some repo => placed.filter fun r => r.2.locator.repo = repo

end Network

end CausalWork
