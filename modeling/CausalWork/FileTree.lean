import CausalWork.FileError
import CausalWork.Path
import CausalWork.Text.Bytes

namespace CausalWork

inductive Node
  | file (content : Bytes)
  | directory (entries : List (String × Node))
  deriving Inhabited

structure FileTree where
  root : Node
  start : List String

namespace Node

def empty : Node := directory []

def isDirectory : Node → Bool
  | file _ => false
  | directory _ => true

def child? (name : String) : Node → Option Node
  | file _ => none
  | directory entries => entries.lookup name

/-- The entries of a directory, each name once. The first entry of a name is the one that is there.
-/
def distinct : List (String × Node) → List (String × Node)
  | [] => []
  | entry :: entries => entry :: (distinct entries).filter fun other => other.1 ≠ entry.1

def find? (n : Node) : List String → Option Node
  | [] => some n
  | name :: names => (n.child? name).bind fun c => c.find? names

def putEntry (name : String) (n : Node) : List (String × Node) → List (String × Node)
  | [] => [(name, n)]
  | entry :: entries =>
    if entry.1 = name then (name, n) :: entries else entry :: putEntry name n entries

/-- The tree with a node at the end of the names. What is missing on the way is made, and a file
on the way gives way to a directory. -/
def put (n : Node) : List String → Node → Node
  | [], _ => n
  | name :: names, directory entries =>
    directory (putEntry name (n.put names ((entries.lookup name).getD empty)) entries)
  | name :: names, file _ => directory [(name, n.put names empty)]

def remove : List String → Node → Node
  | [], n => n
  | _, file content => file content
  | [name], directory entries => directory (entries.filter fun entry => entry.1 ≠ name)
  | name :: names, directory entries =>
    match entries.lookup name with
    | none => directory entries
    | some n => directory (putEntry name (n.remove names) entries)

theorem lookup_putEntry_self (name : String) (n : Node) (entries : List (String × Node)) :
    (putEntry name n entries).lookup name = some n := by
  induction entries with
  | nil => exact List.lookup_cons_self
  | cons entry entries ih =>
      unfold putEntry
      split
      · exact List.lookup_cons_self
      · rename_i h
        have hb : (name == entry.1) = false := by simpa using fun e => h e.symm
        rw [List.lookup_cons, hb]
        exact ih

theorem lookup_putEntry_of_ne {name other : String} (n : Node) (entries : List (String × Node))
    (h : other ≠ name) : (putEntry name n entries).lookup other = entries.lookup other := by
  have hb : (other == name) = false := by simpa using h
  induction entries with
  | nil => rw [putEntry, List.lookup_cons, hb]
  | cons entry entries ih =>
      unfold putEntry
      split
      · rename_i he
        rw [List.lookup_cons, List.lookup_cons, he, hb]
      · rw [List.lookup_cons, List.lookup_cons, ih]

end Node

namespace FileTree

def longestName : Nat := 255

def longestPath : Nat := 4095

def walk (root : Node) : (place names : List String) → Except FileError (List String)
  | place, [] => .ok place.reverse
  | place, name :: names =>
    match root.find? place.reverse with
    | none => .error .notFound
    | some (.file _) => .error .notDirectory
    | some (.directory entries) =>
      if Path.isSilent name then walk root place names
      else if name = ".." then walk root place.tail names
      else if longestName < name.utf8ByteSize then .error .nameTooLong
      else if (entries.lookup name).isSome then walk root (name :: place) names
      else .error .notFound

variable (t : FileTree)

def origin (path : String) : List String := if Path.isAbsolute path then [] else t.start.reverse

def check (path : String) : Except FileError Unit :=
  if path.toList.contains '\x00' then .error .nulInPath
  else if longestPath < path.utf8ByteSize then .error .nameTooLong
  else if path.isEmpty then .error .notFound
  else .ok ()

def locate (path : String) : Except FileError (List String) := do
  check path
  walk t.root (t.origin path) (Path.pieces path)

def node? (path : String) : Except FileError Node := do
  let names ← t.locate path
  match t.root.find? names with
  | some n => return n
  | none => throw .notFound

def isThere (path : String) : Except FileError Bool :=
  match t.node? path with
  | .ok _ => .ok true
  | .error .notFound => .ok false
  | .error e => .error e

def isReachable (path : String) : Bool := (t.node? path).toOption.isSome

def isDirectory (path : String) : Bool := (t.node? path).toOption.any Node.isDirectory

def read (path : String) : Except FileError Bytes := do
  match ← t.node? path with
  | .file content => return content
  | .directory _ => throw .isDirectory

def readText (path : String) : Except FileError String := do
  match (← t.read path).text? with
  | some s => return s
  | none => throw .notText

def entries (path : String) : Except FileError (List (String × Node)) := do
  match ← t.node? path with
  | .directory entries => return Node.distinct entries
  | .file _ => throw .notDirectory

def absolute (names : List String) : String := "/" ++ String.intercalate "/" names

/-- The one path from the root, without detours, to what a path names. It is found a name at a time,
so it is what must not be too long. -/
def canonical (path : String) : Except FileError String := do
  if path.toList.contains '\x00' then throw .nulInPath
  if path.isEmpty then throw .notFound
  let direct := absolute (← walk t.root (t.origin path) (Path.pieces path))
  if longestPath < direct.utf8ByteSize then throw .nameTooLong
  return direct

end FileTree

end CausalWork
