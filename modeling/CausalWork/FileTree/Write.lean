import CausalWork.FileTree

namespace CausalWork.FileTree

def target (t : FileTree) (path : String) : Except FileError (List String × String) := do
  check path
  let names := Path.pieces path
  let place ← walk t.root (t.origin path) names.dropLast
  match t.root.find? place with
  | some (.directory _) =>
    let name := names.getLast?.getD ""
    if longestName < name.utf8ByteSize then throw .nameTooLong
    return (place, name)
  | _ => throw .notDirectory

def makeDirectory (t : FileTree) (path : String) : Except FileError FileTree :=
  match t.node? path with
  | .ok _ => .error .occupied
  | .error .notFound => do
    let trimmed := (Path.pieces path).reverse.dropWhile fun piece => piece.isEmpty
    let (place, name) ← t.target (String.intercalate "/" trimmed.reverse)
    if Path.isSilent name ∨ name = ".." then throw .notFound
    return { t with root := Node.empty.put (place ++ [name]) t.root }
  | .error e => .error e

def makeChain : List String → FileTree → Except FileError Unit × FileTree
  | [], t => (.ok (), t)
  | path :: parents, t =>
    if path.isEmpty then (.ok (), t)
    else match t.makeDirectory path with
      | .ok t => (.ok (), t)
      | .error .notFound =>
        match makeChain parents t with
        | (.error e, t) => (.error e, t)
        | (.ok (), t) =>
          match t.makeDirectory path with
          | .ok t => (.ok (), t)
          | .error e => (if t.isDirectory path then .ok () else .error e, t)
      | .error e => (if t.isDirectory path then .ok () else .error e, t)

def makeDirectories (t : FileTree) (path : String) : Except FileError Unit × FileTree :=
  makeChain (Path.ancestors path) t

def openFile (t : FileTree) (path : String) : Except FileError FileTree :=
  match t.node? path with
  | .ok (.file _) => .ok t
  | .ok (.directory _) => .error .isDirectory
  | .error .notFound => do
    let (place, name) ← t.target path
    if Path.isSilent name ∨ name = ".." then throw .isDirectory
    return { t with root := (Node.file []).put (place ++ [name]) t.root }
  | .error e => .error e

def write (t : FileTree) (path : String) (content : Bytes) : Except FileError FileTree := do
  let t ← t.openFile path
  return { t with root := (Node.file content).put (← t.locate path) t.root }

end CausalWork.FileTree
