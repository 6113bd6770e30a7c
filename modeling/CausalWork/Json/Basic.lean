import CausalWork.Text.Decimal
import CausalWork.Text.Hex

namespace CausalWork

/-- A document of nested values. An object keeps its members as they are written, in order and
with repeated names. A number that is not a plain natural keeps its spelling. What is written like
a value but stands for none is flawed: a text with half of a pair, an object with such a name, and
a number that is too large. -/
inductive Json
  | null
  | bool (b : Bool)
  | natural (n : Nat)
  | decimal (spelling : String)
  | text (s : String)
  | array (items : List Json)
  | object (members : List (String × Json))
  | flawed
  deriving Inhabited

namespace Json

open Text

/-- A character as it stands between quotes: quote, backslash and the control characters below
U+0020 are escaped, all else is itself. -/
def escape (c : Char) : List Char :=
  if c = '"' then ['\\', '"']
  else if c = '\\' then ['\\', '\\']
  else if c = '\x08' then ['\\', 'b']
  else if c = '\x0c' then ['\\', 'f']
  else if c = '\n' then ['\\', 'n']
  else if c = '\r' then ['\\', 'r']
  else if c = '\t' then ['\\', 't']
  else if c.toNat < 32 then
    ['\\', 'u', '0', '0', hexDigit (lastHex (c.toNat / 16)), hexDigit (lastHex c.toNat)]
  else [c]

def quote (s : String) : List Char := '"' :: s.toList.flatMap escape ++ ['"']

def literal (b : Bool) : List Char := if b then "true".toList else "false".toList

mutual

def chars : Json → List Char
  | null => "null".toList
  | bool b => literal b
  | natural n => Text.decimal n
  | decimal spelling => spelling.toList
  | text s => quote s
  | array [] => "[]".toList
  | array (item :: items) => '[' :: chars item ++ itemChars items ++ [']']
  | object [] => "\x7b\x7d".toList
  | object ((name, value) :: members) =>
    '{' :: quote name ++ ':' :: chars value ++ memberChars members ++ ['}']
  | flawed => "null".toList

def itemChars : List Json → List Char
  | [] => []
  | item :: items => ',' :: chars item ++ itemChars items

def memberChars : List (String × Json) → List Char
  | [] => []
  | (name, value) :: members => ',' :: quote name ++ ':' :: chars value ++ memberChars members

end

def compact (j : Json) : String := String.ofList (chars j)

def newline (depth : Nat) : List Char := '\n' :: List.replicate (2 * depth) ' '

mutual

def indented (depth : Nat) : Json → List Char
  | array [] => "[]".toList
  | array (item :: items) =>
    '[' :: newline (depth + 1) ++ indented (depth + 1) item ++ indentedItems (depth + 1) items ++
      newline depth ++ [']']
  | object [] => "\x7b\x7d".toList
  | object ((name, value) :: members) =>
    '{' :: newline (depth + 1) ++ quote name ++ ": ".toList ++ indented (depth + 1) value ++
      indentedMembers (depth + 1) members ++ newline depth ++ ['}']
  | null => chars null
  | bool b => chars (bool b)
  | natural n => chars (natural n)
  | decimal spelling => chars (decimal spelling)
  | text s => chars (text s)
  | flawed => chars flawed

def indentedItems (depth : Nat) : List Json → List Char
  | [] => []
  | item :: items => ',' :: newline depth ++ indented depth item ++ indentedItems depth items

def indentedMembers (depth : Nat) : List (String × Json) → List Char
  | [] => []
  | (name, value) :: members =>
    ',' :: newline depth ++ quote name ++ ": ".toList ++ indented depth value ++
      indentedMembers depth members

end

def pretty (j : Json) : String := String.ofList (indented 0 j)

mutual

def fits (room : Nat) : Json → Bool
  | array items => 0 < room && itemsFit (room - 1) items
  | object members => 0 < room && membersFit (room - 1) members
  | flawed => false
  | null => true
  | bool _ => true
  | natural _ => true
  | decimal _ => true
  | text _ => true

def itemsFit (room : Nat) : List Json → Bool
  | [] => true
  | item :: items => fits room item && itemsFit room items

def membersFit (room : Nat) : List (String × Json) → Bool
  | [] => true
  | (_, value) :: members => fits room value && membersFit room members

end

def list (items : List String) : Json := array (items.map text)

def optional (name : String) : Option String → List (String × Json)
  | none => []
  | some s => [(name, text s)]

end Json

end CausalWork
