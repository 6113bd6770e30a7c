import CausalWork.Command.Run
import CausalWork.FileTree.Edit

namespace CausalWork.Disk

def shallow? (path : String) : IO (Option Node) := do
  try
    let real ← IO.FS.realPath path
    if ← real.isDir then return some Node.empty
    else return some (.file (← IO.FS.readBinFile real).toList)
  catch _ => return none

def names (path : String) : IO (List String) := do
  try
    return (← (← IO.FS.realPath path).readDir).toList.map fun entry => entry.fileName
  catch _ => return []

def touch (t : FileTree) (place : List String) : IO FileTree := do
  if (t.root.find? place).isSome then return t
  match ← shallow? (FileTree.absolute place) with
  | some n => return { t with root := n.put place t.root }
  | none => return t

def bring : (depth : Nat) → (t : FileTree) → (place : List String) → IO FileTree
  | 0, t, place => touch t place
  | depth + 1, t, place => do
    let t ← touch t place
    (← names (FileTree.absolute place)).foldlM (fun t name => bring depth t (place ++ [name])) t

def follow (depth : Nat) : (t : FileTree) → (place names : List String) → IO FileTree
  | t, place, [] => bring depth t place
  | t, place, name :: names =>
    if Path.isSilent name then follow depth t place names
    else if name = ".." then follow depth t place.dropLast names
    else do follow depth (← touch t (place ++ [name])) (place ++ [name]) names

def add (depth : Nat) (t : FileTree) (path : String) : IO FileTree :=
  follow depth t (if Path.isAbsolute path then [] else t.start) (Path.pieces path)

def surroundings (start : List String) : IO FileTree := do
  let t ← bring 0 ⟨Node.empty, start⟩ start
  (Config.candidates start.reverse).foldlM (add 0) t

def addPlaces (c : Config) (t : FileTree) : IO FileTree := do
  let stores := c.artifacts :: c.remotes.map Checkout.root
  let t ← stores.foldlM (add 0) t
  let t ← (stores.flatMap fun root => Kind.all.map fun kind => Path.join root kind.plural).foldlM
    (add 2) t
  [c.journal, Pool.lockFile c.journal].foldlM (add 0) t

def perform : Edit → IO Unit
  | .makeDirectory path => IO.FS.createDirAll path
  | .write path content => IO.FS.writeBinFile path ⟨content.toArray⟩

def lock? (c : Config) : IO (Option IO.FS.Handle) := do
  try
    IO.FS.createDirAll ((Path.parent? c.journal).getD "")
    let handle ← IO.FS.Handle.mk (Pool.lockFile c.journal) .append
    handle.lock
    return some handle
  catch _ => return none

end CausalWork.Disk
