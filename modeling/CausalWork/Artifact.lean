import CausalWork.Status

namespace CausalWork

/-- Where a foreign artifact lives: a repository, a branch to follow and a revision to stay at. -/
structure Locator where
  repo : String
  track : Option String
  pinned : Option String
  deriving DecidableEq

inductive Source
  | home
  | external (locator : Locator)
  deriving DecidableEq

structure Artifact where
  id : String
  kind : Kind
  status : Status
  createdAfter : List String
  subsystems : List String
  source : Source
  deriving DecidableEq

/-- A stand-in at home for an artifact of a foreign repository. -/
structure Reference where
  id : String
  kind : Kind
  locator : Locator
  createdAfter : List String
  deriving DecidableEq

namespace Locator

def marked (mark : String) : Option String → String
  | none => ""
  | some s => mark ++ s

def toText (l : Locator) : String := l.repo ++ marked "@" l.track ++ marked "#" l.pinned

def members (l : Locator) : List (String × Json) :=
  ("repo", .text l.repo) :: Json.optional "track" l.track ++ Json.optional "pinned" l.pinned

def toJson (l : Locator) : Json := .object l.members

def ofJson? (j : Json) : Option Locator := do
  match ← j.fields? ["repo", "track", "pinned"] with
  | [repo, track, pinned] =>
    return {
      repo := ← Json.required Json.text? repo
      track := ← Json.nullable Json.text? track
      pinned := ← Json.nullable Json.text? pinned }
  | _ => none

end Locator

namespace Source

def locator? : Source → Option Locator
  | home => none
  | external l => some l

def toJson : Source → Json
  | home => .object [("origin", .text "local")]
  | external l => .object (("origin", .text "external") :: l.members)

def ofJson? (j : Json) : Option Source := do
  match ← j.tagged? .strict 1 "origin" ["local", "external"] with
  | ("local", rest) => if rest.isFieldless then some home else none
  | ("external", rest) => return external (← Locator.ofJson? rest)
  | _ => none

end Source

namespace Artifact

def isExternal (a : Artifact) : Bool := a.source.locator?.isSome

def members (a : Artifact) : List (String × Json) :=
  [("id", .text a.id), ("kind", a.kind.toJson), ("status", a.status.toJson),
    ("created_after", Json.list a.createdAfter), ("subsystems", Json.list a.subsystems),
    ("source", a.source.toJson)]

def toJson (a : Artifact) : Json := .object a.members

def ofJson? (j : Json) : Option Artifact := do
  match ← j.fields? ["id", "kind", "status", "created_after", "subsystems", "source"] with
  | [id, kind, status, createdAfter, subsystems, source] =>
    return {
      id := ← Json.required Json.text? id
      kind := ← Json.required (Kind.ofJson? .strict) kind
      status := ← Json.required Status.ofJson? status
      createdAfter := ← Json.defaulted [] Json.texts? createdAfter
      subsystems := ← Json.defaulted [] Json.texts? subsystems
      source := ← Json.defaulted .home Source.ofJson? source }
  | _ => none

end Artifact

namespace Reference

/-- The artifact that the owner's record and this reference make together: the reference says
where it lives and what it came after here. -/
def claim (r : Reference) (a : Artifact) : Artifact :=
  { a with createdAfter := r.createdAfter, source := .external r.locator }

def toJson (r : Reference) : Json :=
  .object [("id", .text r.id), ("kind", r.kind.toJson), ("locator", r.locator.toJson),
    ("created_after", Json.list r.createdAfter)]

def ofJson? (j : Json) : Option Reference := do
  match ← j.fields? ["id", "kind", "locator", "created_after"] with
  | [id, kind, locator, createdAfter] =>
    return {
      id := ← Json.required Json.text? id
      kind := ← Json.required (Kind.ofJson? .strict) kind
      locator := ← Json.required Locator.ofJson? locator
      createdAfter := ← Json.defaulted [] Json.texts? createdAfter }
  | _ => none

end Reference

end CausalWork
