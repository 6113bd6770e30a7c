import CausalWork.Json.Basic

namespace CausalWork.Json

def member? (name : String) (members : List (String × Json)) : Option (Option Json) :=
  match members.filter fun m => m.1 = name with
  | [] => some none
  | [m] => some (some m.2)
  | _ => none

/-- The values of a record's fields in the order of their names. A record is an object, where
unknown names are passed over and a known one occurs once at most, or an array of the values of
the first fields. -/
def fields? (names : List String) : Json → Option (List (Option Json))
  | object members => names.mapM fun name => member? name members
  | array items =>
    if items.length ≤ names.length then
      some (items.map some ++ List.replicate (names.length - items.length) none)
    else none
  | _ => none

variable {α : Type}

def required (read : Json → Option α) (field : Option Json) : Option α := field.bind read

def defaulted (absent : α) (read : Json → Option α) : Option Json → Option α
  | none => some absent
  | some j => read j

def nullable (read : Json → Option α) : Option Json → Option (Option α)
  | none => some none
  | some null => some none
  | some j => (read j).map some

def text? : Json → Option String
  | text s => some s
  | _ => none

def bool? : Json → Option Bool
  | bool b => some b
  | _ => none

def natural? : Json → Option Nat
  | natural n => some n
  | _ => none

def list? (read : Json → Option α) : Json → Option (List α)
  | array items => items.mapM read
  | _ => none

def texts? : Json → Option (List String) := list? text?

/-- How the values of a document are read. A record under a tag is held until its case is known,
and what is held is read freely. -/
inductive Manner
  | strict
  | free
  deriving DecidableEq

def word? (m : Manner) : Json → Option String
  | text s => some s
  | object [(s, null)] => some s
  | object [(s, object [])] => if m = .free then some s else none
  | _ => none

def case? (m : Manner) (cases : List String) : Json → Option String
  | text s => some s
  | natural n => if m = .free then cases[n]? else none
  | _ => none

def deepest : Nat := 127

/-- The case that a record belongs to, named by its tag, and the rest of the record. In an array
the tag comes first. A record that is not held yet stands so many levels deep. -/
def tagged? (m : Manner) (depth : Nat) (tag : String) (cases : List String) (j : Json) :
    Option (String × Json) :=
  if m = .free || j.fits (deepest - depth) then
    match j with
    | object members => do
      let case ← (← member? tag members).bind (case? m cases)
      return (case, object (members.filter fun m => m.1 ≠ tag))
    | array (first :: rest) => do return (← case? m cases first, array rest)
    | _ => none
  else none

def isFieldless : Json → Bool
  | object _ => true
  | array items => items.isEmpty
  | _ => false

end CausalWork.Json
