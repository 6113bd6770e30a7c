import CausalWork.Kind

namespace CausalWork

inductive ChunkStatus
  | future
  | implementing
  | active
  | superseded
  | historical
  deriving DecidableEq

inductive SubsystemStatus
  | discovering
  | documented
  | refactoring
  | stable
  | deprecated
  deriving DecidableEq

inductive NarrativeStatus
  | drafting
  | active
  | completed
  deriving DecidableEq

inductive InvestigationStatus
  | ongoing
  | solved
  | noted
  | deferred
  deriving DecidableEq

inductive Status
  | chunk (stage : ChunkStatus)
  | subsystem (stage : SubsystemStatus)
  | narrative (stage : NarrativeStatus)
  | investigation (stage : InvestigationStatus)
  deriving DecidableEq

namespace Status

def kind : Status → Kind
  | chunk _ => .chunk
  | subsystem _ => .subsystem
  | narrative _ => .narrative
  | investigation _ => .investigation

def ofKind : Kind → List Status
  | .chunk =>
    [chunk .future, chunk .implementing, chunk .active, chunk .superseded, chunk .historical]
  | .subsystem =>
    [subsystem .discovering, subsystem .documented, subsystem .refactoring, subsystem .stable,
      subsystem .deprecated]
  | .narrative => [narrative .drafting, narrative .active, narrative .completed]
  | .investigation =>
    [investigation .ongoing, investigation .solved, investigation .noted, investigation .deferred]

def name : Status → String
  | chunk .future => "FUTURE"
  | chunk .implementing => "IMPLEMENTING"
  | chunk .active => "ACTIVE"
  | chunk .superseded => "SUPERSEDED"
  | chunk .historical => "HISTORICAL"
  | subsystem .discovering => "DISCOVERING"
  | subsystem .documented => "DOCUMENTED"
  | subsystem .refactoring => "REFACTORING"
  | subsystem .stable => "STABLE"
  | subsystem .deprecated => "DEPRECATED"
  | narrative .drafting => "DRAFTING"
  | narrative .active => "ACTIVE"
  | narrative .completed => "COMPLETED"
  | investigation .ongoing => "ONGOING"
  | investigation .solved => "SOLVED"
  | investigation .noted => "NOTED"
  | investigation .deferred => "DEFERRED"

def requiresPlan : Status → Bool
  | chunk .implementing | chunk .active => true
  | subsystem .refactoring => true
  | narrative .active => true
  | investigation .ongoing => true
  | _ => false

def isTerminal : Status → Bool
  | chunk .superseded | chunk .historical => true
  | subsystem .deprecated => true
  | narrative .completed => true
  | investigation .solved | investigation .noted | investigation .deferred => true
  | _ => false

def ofText? (k : Kind) (s : String) : Option Status :=
  let word := Text.folded s
  (ofKind k).find? fun status => Text.folded status.name = word

def ofName? (k : Kind) (s : String) : Option Status :=
  (ofKind k).find? fun status => status.name = s

def invalidText (k : Kind) (s : String) : String := "invalid " ++ k.name ++ " status: " ++ s

def toJson (s : Status) : Json := .object [(s.kind.name, .text s.name)]

def ofJson? : Json → Option Status
  | .object [(family, stage)] => do ofName? (← Kind.ofName? family) (← stage.word? .strict)
  | _ => none

theorem ofName?_name (s : Status) : ofName? s.kind s.name = some s := by
  cases s with
  | chunk stage => cases stage <;> decide
  | subsystem stage => cases stage <;> decide
  | narrative stage => cases stage <;> decide
  | investigation stage => cases stage <;> decide

end Status

end CausalWork
