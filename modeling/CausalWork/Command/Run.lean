import CausalWork.Command
import CausalWork.Config
import CausalWork.Injection
import CausalWork.Pool.File
import CausalWork.Report
import CausalWork.Store.Files

namespace CausalWork

inductive Exit
  | done
  | failed
  | rejected
  | alreadyInjected
  deriving DecidableEq

structure Run where
  exit : Exit
  out : String
  err : String
  tree : FileTree

namespace Exit

def code : Exit → Nat
  | done => 0
  | failed => 1
  | rejected => 2
  | alreadyInjected => 3

end Exit

namespace Run

def printed (t : FileTree) (out : String) : Run := ⟨.done, out, "", t⟩

def stopped (t : FileTree) (message : String) (causes : List String) : Run :=
  ⟨.failed, "", Report.error message causes, t⟩

def ofFailure (t : FileTree) (e : Failure) : Run := stopped t e.message e.causes

def answer {α : Type} (t : FileTree) (print : α → String) : Except Failure α → Run
  | .ok a => printed t (print a)
  | .error e => ofFailure t e

def poolAnswer {α : Type} (print : α → String) : Except PoolError α × FileTree → Run
  | (.ok a, t) => printed t (print a)
  | (.error e, t) => ofFailure t (.ofPool e)

end Run

namespace Config

def homeStore (c : Config) (t : FileTree) : FileStore := ⟨"home", c.artifacts, t, 0⟩

/-- A checked out repository. A look at its files is over before the clock of a run has moved, so it
meets every deadline. -/
def remote (t : FileTree) (c : Checkout) : Remote :=
  ⟨c.locator, (FileStore.mk c.locator.repo c.root t 0).store⟩

def network (c : Config) (t : FileTree) : Network := ⟨c.remotes.map (remote t), c.deadline⟩

def project (c : Config) (t : FileTree) : Project :=
  ⟨(c.homeStore t).store, (c.homeStore t).content, c.network t⟩

def inject (c : Config) (t : FileTree) (fresh : Uuid) (now : Timestamp) (kind : Kind)
    (artifactId : String) : Except Failure Uuid × FileTree :=
  match Project.request ((c.project t).prepare fresh now kind artifactId) with
  | .error e => (.error e, t)
  | .ok u =>
    match Pool.onFile t c.journal fun journal => Pool.enqueue journal u with
    | (.error e, t) => (.error (.ofPool e), t)
    | (.ok id, t) => (.ok id, t)

end Config

namespace Command

open Run

def either (json : Bool) (document : Json) (text : String) : String :=
  if json then Report.json document else text

def injected (kind : Kind) (artifactId : String) (json : Bool) (t : FileTree) :
    Except Failure Uuid → Run
  | .ok id =>
    if json then printed t (Report.json (.object [("unit_id", .text id.toText)]))
    else ⟨.done, Report.line id.toText,
      Report.line ("[" ++ kind.name ++ " " ++ artifactId ++ " queued as " ++ id.toText ++ "]"), t⟩
  | .error (.rejected id issues) =>
    let document := Json.object [("issues", Report.issuesJson issues), ("rejected", .text id)]
    let notes := ("Cannot inject " ++ kind.name ++ " '" ++ id ++ "':") ::
      issues.map fun issue => "  " ++ issue.toText
    ⟨.rejected, if json then Report.json document else "",
      if json then "" else Report.lines notes, t⟩
  | .error (.alreadyInjected artifactId unitId) =>
    let document := Json.object
      [("already_injected", .text artifactId), ("unit_id", .text unitId.toText)]
    let note := "'" ++ artifactId ++ "' already has live work unit " ++ unitId.toText ++
      " (see `causeway units --artifact " ++ artifactId ++ "`)"
    ⟨.alreadyInjected, if json then Report.json document else "",
      if json then "" else Report.line note, t⟩
  | .error e => ofFailure t e

def validated (kind : Kind) (artifactId : String) (json : Bool) (t : FileTree)
    (issues : List Issue) : Run :=
  let text :=
    if issues.isEmpty then Report.line (kind.name ++ " '" ++ artifactId ++ "' is injectable")
    else Report.lines (issues.map Issue.toText)
  let exit : Exit := if issues.isEmpty then .done else .rejected
  ⟨exit, either json (Report.issuesJson issues) text, "", t⟩

def withConfig (around : Surroundings) (t : FileTree) (next : Config → Run) : Run :=
  match Config.load t around with
  | .error e => stopped t e.message []
  | .ok c => next c

def withPool (around : Surroundings) (t : FileTree) (next : Config → FileTree → Run) : Run :=
  withConfig around t fun c =>
    match t.makeDirectories ((Path.parent? c.journal).getD "") with
    | (.error e, t) => stopped t "Failed to open work pool" [e.message]
    | (.ok (), t) => next c t

def moveUnit (around : Surroundings) (t : FileTree) (now : Timestamp) (unitId : String)
    (step : Transition) : Run :=
  match Uuid.ofText? unitId with
  | none => stopped t ("Invalid work unit ID: " ++ unitId) ["the text is no work unit id"]
  | some id => withPool around t fun c t =>
    poolAnswer Report.moved <|
      Pool.onFile t c.journal fun journal => Pool.transition journal now id step

/-- Runs a command on the files. The unit that an injection adds has the id `fresh`. -/
def run (around : Surroundings) (t : FileTree) (fresh : Uuid) (now : Timestamp) : Command → Run
  | .inject artifactId kind json => withPool around t fun c t =>
    let (result, t) := c.inject t fresh now kind artifactId
    injected kind artifactId json t result
  | .validate artifactId kind json => withPool around t fun c t =>
    match Project.request ((c.project t).validate kind artifactId) with
    | .ok issues => validated kind artifactId json t issues
    | .error e => ofFailure t e
  | .list kind json => withPool around t fun c t =>
    answer t (fun rows => either json (Report.listingJson kind rows) (Report.listing kind rows))
      (Project.request ((c.project t).listing kind))
  | .tips kind subsystem json => withPool around t fun c t =>
    let p := c.project t
    answer t (fun tips => either json (Report.artifactsJson tips) (Report.tips kind tips))
      (Project.request (subsystem.elim (p.tips kind) (p.tipsFor kind)))
  | .latest kind json => withPool around t fun c t =>
    answer t (fun a => either json a.toJson (Report.line (Report.artifactRow a)))
      (Project.request ((c.project t).latest kind))
  | .units artifactId kind json => withPool around t fun c t =>
    poolAnswer (fun units => either json (Report.unitsJson units) (Report.units units))
      (Pool.askFile t c.journal fun journal =>
        artifactId.elim (Pool.list journal) (Pool.history journal kind))
  | .dispatch unitId agent => moveUnit around t now unitId (.dispatch agent)
  | .complete unitId => moveUnit around t now unitId .complete
  | .fail unitId reason => moveUnit around t now unitId (.fail reason)
  | .config => withConfig around t fun c => printed t (Report.config c)

end Command

end CausalWork
