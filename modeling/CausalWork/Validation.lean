import CausalWork.Artifact
import CausalWork.Graph

namespace CausalWork

structure Summary where
  hasSubstantivePlan : Bool
  deriving DecidableEq

inductive IssueCode
  | emptyPlan
  | terminalStatus
  | brokenLink
  deriving DecidableEq

structure Issue where
  code : IssueCode
  message : String
  deriving DecidableEq

namespace Summary

def toJson (s : Summary) : Json := .object [("has_substantive_plan", .bool s.hasSubstantivePlan)]

def ofJson? (j : Json) : Option Summary := do
  match ← j.fields? ["has_substantive_plan"] with
  | [plan] => return ⟨← Json.required Json.bool? plan⟩
  | _ => none

end Summary

namespace IssueCode

def all : List IssueCode := [emptyPlan, terminalStatus, brokenLink]

def name : IssueCode → String
  | emptyPlan => "EmptyPlanForActiveStatus"
  | terminalStatus => "TerminalStatusNotInjectable"
  | brokenLink => "BrokenCausalLink"

def ofJson? (j : Json) : Option IssueCode := do
  let word ← j.word? .strict
  all.find? fun code => code.name = word

end IssueCode

namespace Issue

def toText (i : Issue) : String := "[" ++ i.code.name ++ "] " ++ i.message

def toJson (i : Issue) : Json :=
  .object [("code", .text i.code.name), ("message", .text i.message)]

def ofJson? (j : Json) : Option Issue := do
  match ← j.fields? ["code", "message"] with
  | [code, message] =>
    return ⟨← Json.required IssueCode.ofJson? code, ← Json.required Json.text? message⟩
  | _ => none

end Issue

namespace Artifact

def title (a : Artifact) : String := a.kind.name ++ " '" ++ a.id ++ "'"

def unplanned : Kind → Status
  | .chunk => .chunk .future
  | .subsystem => .subsystem .documented
  | .narrative => .narrative .drafting
  | .investigation => .investigation .deferred

def statusIssues (a : Artifact) (summary : Summary) : List Issue :=
  if a.status.isTerminal then
    [⟨.terminalStatus, a.title ++ " has terminal status " ++ a.status.name ++
      "; terminal artifacts cannot be injected"⟩]
  else if a.status.requiresPlan && !summary.hasSubstantivePlan then
    [⟨.emptyPlan, a.title ++ " is " ++ a.status.name ++
      " but its plan is empty; write a plan, or revert the status to " ++
      (unplanned a.kind).name⟩]
  else []

def brokenLink (a : Artifact) (parent : String) : Issue :=
  ⟨.brokenLink, "'" ++ a.id ++ "' lists '" ++ parent ++ "' in created_after, but no such " ++
    a.kind.name ++ " exists locally or in any remote"⟩

def missingParents (a : Artifact) (dangling : List Edge) : List String :=
  ascending ((dangling.filter fun e => e.child = a.id).map Edge.parent)

/-- Why an artifact may not be handed to work: first its status, then each missing parent. -/
def issues (a : Artifact) (summary : Summary) (dangling : List Edge) : List Issue :=
  a.statusIssues summary ++ (a.missingParents dangling).map a.brokenLink

end Artifact

end CausalWork
