import CausalWork.FileError
import CausalWork.Json.Reader
import CausalWork.Replay
import CausalWork.Text.Blank
import CausalWork.Text.Bytes
import CausalWork.Text.Lines

namespace CausalWork

/-- The content of the file that records a pool's events, if there is such a file. -/
abbrev Journal := Option Bytes

inductive PoolError
  | conflict (artifactId : String) (existing : Uuid)
  | unknownUnit (id : Uuid)
  | invalidTransition (step : InvalidTransition)
  | file (error : FileError)
  | noEvent
  deriving DecidableEq

namespace PoolError

def message : PoolError → String
  | conflict artifactId existing =>
    "Artifact '" ++ artifactId ++ "' already has live work unit " ++ existing.toText
  | unknownUnit id => "Work unit not found: " ++ id.toText
  | invalidTransition step => step.message
  | file e => "IO error: " ++ e.message
  | noEvent => "Serialization error: a line is no event"

end PoolError

namespace Journal

def event? (line : Bytes) : Except PoolError (Option Event) :=
  match line.text? with
  | none => .error (.file .notText)
  | some s =>
    if Text.isBlankText s then .ok none
    else match (Json.parse? s).bind Event.ofJson? with
      | none => .error .noEvent
      | some e => .ok (some e)

def byteLines (content : Bytes) : List Bytes := Text.lines 10 13 content

/-- All events in order. One line that cannot be read makes the whole journal unreadable. -/
def events (journal : Journal) : Except PoolError (List Event) := do
  return (← (byteLines (journal.getD [])).mapM event?).filterMap id

def units (journal : Journal) : Except PoolError Units := do
  return Units.replay (← events journal)

def line {τ : Type} [Temporal τ] (e : Event τ) : Bytes := Bytes.ofText (e.toJson.compact ++ "\n")

def append {τ : Type} [Temporal τ] (journal : Journal) (e : Event τ) : Journal :=
  some (journal.getD [] ++ line e)

end Journal

namespace Pool

def ofArtifact (units : Units) (kind : Kind) (artifactId : String) : List WorkUnit :=
  (units.map Prod.snd).filter fun u => u.isFor kind artifactId

/-- Adds a unit, unless its artifact has one that is not over. The unit's attempt counts those of
its artifact. -/
def enqueue {τ : Type} [Temporal τ] (journal : Journal) (u : WorkUnit τ) :
    Except PoolError Uuid × Journal :=
  match journal.units with
  | .error e => (.error e, journal)
  | .ok units =>
    let earlier := ofArtifact units u.kind u.artifactId
    match earlier.find? WorkUnit.isLive with
    | some live => (.error (.conflict u.artifactId live.id), journal)
    | none =>
      let u := { u with attempt := UInt32.ofNat earlier.length + 1 }
      (.ok u.id, journal.append (.enqueued u))

def transition (journal : Journal) (now : Timestamp) (id : Uuid) (t : Transition) :
    Except PoolError WorkUnit × Journal :=
  match journal.units with
  | .error e => (.error e, journal)
  | .ok units =>
    match units.get? id with
    | none => (.error (.unknownUnit id), journal)
    | some u =>
      match u.apply t now with
      | .error step => (.error (.invalidTransition step), journal)
      | .ok v => (.ok v, journal.append (.transitioned id now t))

def get (journal : Journal) (id : Uuid) : Except PoolError (Option WorkUnit) := do
  return (← journal.units).get? id

def list (journal : Journal) : Except PoolError (List WorkUnit) := do
  return Units.ordered ((← journal.units).map Prod.snd)

def history (journal : Journal) (kind : Kind) (artifactId : String) :
    Except PoolError (List WorkUnit) := do
  return Units.ordered (ofArtifact (← journal.units) kind artifactId)

def liveFor (journal : Journal) (kind : Kind) (artifactId : String) :
    Except PoolError (Option WorkUnit) := do
  return (← history journal kind artifactId).find? WorkUnit.isLive

end Pool

end CausalWork
