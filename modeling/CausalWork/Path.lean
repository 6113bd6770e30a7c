import CausalWork.Text.Lines

namespace CausalWork.Path

open Text

def isAbsolute (path : String) : Bool := path.toList.head? = some '/'

def join (base path : String) : String :=
  if isAbsolute path then path
  else if base.isEmpty ∨ base.toList.getLast? = some '/' then base ++ path
  else base ++ "/" ++ path

def pieces (path : String) : List String := (split '/' path.toList).map String.ofList

def isSilent (piece : String) : Bool := piece.isEmpty || piece = "."

/-- A path without its last name; what says nothing at its end goes too. The root has no parent,
and neither has the empty path. -/
def parent? (path : String) : Option String :=
  let kept := (pieces path).reverse.dropWhile isSilent
  match kept.tail.dropWhile isSilent with
  | [] =>
    if kept.isEmpty then
      if isAbsolute path ∨ path.isEmpty then none else some ""
    else if isAbsolute path then some "/"
    else if (pieces path).head? = some "." then some "."
    else some ""
  | front => some (String.intercalate "/" front.reverse)

def ancestorsFrom : (steps : Nat) → String → List String
  | 0, path => [path]
  | steps + 1, path => path :: (parent? path).elim [] (ancestorsFrom steps)

def ancestors (path : String) : List String := ancestorsFrom path.length path

/-- Whether a text is the name of one entry of a directory, and of no other under any spelling. -/
def isPlain (name : String) : Bool :=
  !name.isEmpty && name.toList.all (fun c => c ≠ '/' ∧ c ≠ '\\') &&
    name ≠ "." && name ≠ ".."

end CausalWork.Path
