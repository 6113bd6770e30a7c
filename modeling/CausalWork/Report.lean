import CausalWork.Config
import CausalWork.Snapshot

namespace CausalWork.Report

open Text

def pad (width : Nat) (s : String) : String :=
  s ++ String.ofList (List.replicate (width - s.length) ' ')

def rule (width : Nat) : String := String.ofList (List.replicate width '-')

def line (s : String) : String := s ++ "\n"

def lines (texts : List String) : String := String.join (texts.map line)

def indent (first rest s : String) : String :=
  String.intercalate "\n" <|
    (split '\n' s.toList).zipIdx.map fun (cs, n) =>
      (if n = 0 then first else rest) ++ String.ofList cs

def causeNumber (n : Nat) : String :=
  let ds := decimal n
  String.ofList (List.replicate (5 - ds.length) ' ' ++ ds) ++ ": "

def causeLines : List String → List String
  | [] => []
  | [cause] => ["", "Caused by:", indent "    " "    " cause]
  | causes =>
    ["", "Caused by:"] ++
      causes.zipIdx.map fun (cause, n) => indent (causeNumber n) "       " cause

def error (message : String) (causes : List String) : String :=
  lines (("Error: " ++ message) :: causeLines causes)

def artifactRow (a : Artifact) : String :=
  let source := match a.source with
    | .home => "local"
    | .external l => "[EXTERNAL] " ++ l.toText
  pad 32 a.id ++ " " ++ pad 14 a.status.name ++ " " ++ source

def unresolvedRow (u : Unresolved) : String :=
  pad 32 u.id ++ " " ++ pad 14 "?" ++ " [UNRESOLVABLE] " ++
    u.locator.elim "unknown" Locator.toText ++ " (" ++ u.reason ++ ")"

def row : Row → String
  | .artifact a => artifactRow a
  | .unresolved u => unresolvedRow u

def listing (kind : Kind) (rows : List Row) : String :=
  if rows.isEmpty then line ("No " ++ kind.plural ++ " found")
  else
    lines ((pad 32 "ID" ++ " " ++ pad 14 "STATUS" ++ " SOURCE") :: rule 75 :: rows.map row)

def listingJson (kind : Kind) (rows : List Row) : Json :=
  .object [("kind", kind.toJson), ("entries", .array (rows.map Row.toJson))]

def tips (kind : Kind) (artifacts : List Artifact) : String :=
  if artifacts.isEmpty then line ("No " ++ kind.name ++ " tips")
  else lines (artifacts.map artifactRow)

def unitRow (u : WorkUnit) : String :=
  let artifact := if u.external then u.artifactId ++ " [EXTERNAL]" else u.artifactId
  u.id.toText ++ " " ++ pad 28 artifact ++ " " ++ pad 12 u.state.name ++ " " ++
    pad 8 (toString u.attempt.toNat) ++ " " ++ u.assignedAgent.getD "-"

def units (units : List WorkUnit) : String :=
  if units.isEmpty then line "No work units found"
  else
    let head := pad 38 "UNIT ID" ++ " " ++ pad 28 "ARTIFACT" ++ " " ++ pad 12 "STATE" ++ " " ++
      pad 8 "ATTEMPT" ++ " AGENT"
    lines (head :: rule 100 :: units.map unitRow)

def moved (u : WorkUnit) : String :=
  lines <|
    (u.id.toText ++ " " ++ u.state.name ++ " (" ++ u.artifactId ++ ")") ::
      u.error.elim [] fun reason => ["  error: " ++ reason]

def json (j : Json) : String := line j.pretty

def artifactsJson (artifacts : List Artifact) : Json := .array (artifacts.map Artifact.toJson)

def unitsJson (units : List WorkUnit) : Json := .array (units.map WorkUnit.toJson)

def issuesJson (issues : List Issue) : Json := .array (issues.map Issue.toJson)

def checkout (c : Checkout) : String := "  " ++ pad 30 c.locator.toText ++ " " ++ c.root

def config (c : Config) : String :=
  lines <|
    ["causeway configuration", "", "Config file: " ++ c.file.getD "(none - using defaults)", "",
      "Paths:", "  Home (engine state): " ++ c.home, "  Artifacts:           " ++ c.artifacts,
      "  Work pool:           " ++ c.journal, "", "Remotes:"] ++
    (if c.remotes.isEmpty then ["  (none)"] else c.remotes.map checkout) ++
    ["", "Resolver deadline: " ++ c.deadline.elim "(none)" fun ms => toString ms ++ "ms"]

end CausalWork.Report
