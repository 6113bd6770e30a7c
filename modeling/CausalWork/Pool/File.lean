import CausalWork.FileTree.Write
import CausalWork.Pool

namespace CausalWork.Pool

def attempt {α : Type} : Except FileError α → Except PoolError α
  | .ok a => .ok a
  | .error e => .error (.file e)

def lockFile (path : String) : String := path ++ ".lock"

def lock (t : FileTree) (path : String) : Except FileError Unit × FileTree :=
  match t.makeDirectories ((Path.parent? (lockFile path)).getD "") with
  | (.error e, t) => (.error e, t)
  | (.ok (), t) =>
    match t.openFile (lockFile path) with
    | .error e => (.error e, t)
    | .ok t => (.ok (), t)

def journal (t : FileTree) (path : String) : Except FileError Journal :=
  if t.isReachable path then (t.read path).map some else .ok none

def save (t : FileTree) (path : String) (before after : Journal) : Except FileError FileTree :=
  if after = before then .ok t
  else match after with
    | none => .ok t
    | some content => t.write path content

/-- Runs an operation on the journal in a file, under its lock. What it leaves is saved, whether it
succeeds or fails. -/
def onFile {α : Type} (t : FileTree) (path : String)
    (operation : Journal → Except PoolError α × Journal) : Except PoolError α × FileTree :=
  match lock t path with
  | (.error e, t) => (.error (.file e), t)
  | (.ok (), t) =>
    match journal t path with
    | .error e => (.error (.file e), t)
    | .ok before =>
      let (answer, after) := operation before
      match save t path before after with
      | .error e => (.error (.file e), t)
      | .ok t => (answer, t)

def askFile {α : Type} (t : FileTree) (path : String) (question : Journal → Except PoolError α) :
    Except PoolError α × FileTree :=
  onFile t path fun journal => (question journal, journal)

end CausalWork.Pool
