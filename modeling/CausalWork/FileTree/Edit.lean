import CausalWork.FileTree

namespace CausalWork

inductive Edit
  | makeDirectory (path : String)
  | write (path : String) (content : Bytes)
  deriving DecidableEq

namespace Node

def isFileOf (content : Bytes) : Node → Bool
  | file old => old = content
  | directory _ => false

mutual

/-- The steps from one tree to another that lacks nothing of it, each directory before what stands
in it. -/
def edits (place : List String) (before : Option Node) : Node → List Edit
  | file content =>
    if before.any (isFileOf content) then [] else [.write (FileTree.absolute place) content]
  | directory entries =>
    (if before.any isDirectory then [] else [.makeDirectory (FileTree.absolute place)]) ++
      entryEdits place before entries

def entryEdits (place : List String) (before : Option Node) : List (String × Node) → List Edit
  | [] => []
  | (name, n) :: entries =>
    edits (place ++ [name]) (before.bind (child? name)) n ++ entryEdits place before entries

end

end Node

def FileTree.edits (before after : FileTree) : List Edit := after.root.edits [] (some before.root)

end CausalWork
