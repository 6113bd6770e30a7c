import CausalWork.Json.Basic
import CausalWork.Json.Range

namespace CausalWork.Json

open Text

def isSpace (c : Char) : Bool := c = ' ' || c = '\n' || c = '\r' || c = '\t'

def skipSpace (cs : List Char) : List Char := cs.dropWhile isSpace

def unit? (a b c d : Char) : Option Nat := do
  return hexNumber [← hexValue? a, ← hexValue? b, ← hexValue? c, ← hexValue? d]

def isHighHalf (n : Nat) : Bool := 0xD800 ≤ n && n < 0xDC00

def isLowHalf (n : Nat) : Bool := 0xDC00 ≤ n && n < 0xE000

def joinHalves (high low : Nat) : Char :=
  Char.ofNat (0x10000 + 1024 * (high - 0xD800) + (low - 0xDC00))

def escaped? : Char → Option Char
  | '"' => some '"'
  | '\\' => some '\\'
  | '/' => some '/'
  | 'b' => some '\x08'
  | 'f' => some '\x0c'
  | 'n' => some '\n'
  | 'r' => some '\r'
  | 't' => some '\t'
  | _ => none

def prepend (n : Nat) : List Nat × List Char → List Nat × List Char
  | (ns, rest) => (n :: ns, rest)

/-- What stands before the closing quote, and what follows it. An escape of four digits may be one
half of a pair, which counts by itself here. Control characters must be escaped. -/
def unquote? : List Char → Option (List Nat × List Char)
  | [] => none
  | '"' :: rest => some ([], rest)
  | '\\' :: 'u' :: a :: b :: c :: d :: rest => do
    return prepend (← unit? a b c d) (← unquote? rest)
  | '\\' :: c :: rest => do return prepend (← escaped? c).toNat (← unquote? rest)
  | c :: rest => do if c.toNat < 32 then none else return prepend c.toNat (← unquote? rest)

def characters? : List Nat → Option (List Char)
  | [] => some []
  | [n] => if isHighHalf n || isLowHalf n then none else some [Char.ofNat n]
  | n :: low :: rest =>
    if isHighHalf n then
      if isLowHalf low then (characters? rest).map (joinHalves n low :: ·) else none
    else if isLowHalf n then none
    else (characters? (low :: rest)).map (Char.ofNat n :: ·)

def string? (ns : List Nat) : Option String := (characters? ns).map String.ofList

def digits (cs : List Char) : List Char × List Char := cs.span Char.isDigit

def whole? (cs : List Char) : Option (List Char × List Char) :=
  match digits cs with
  | ([], _) => none
  | ('0' :: _ :: _, _) => none
  | (ds, rest) => some (ds, rest)

def fraction? : List Char → Option (List Char × List Char)
  | '.' :: rest =>
    match digits rest with
    | ([], _) => none
    | (ds, rest) => some ('.' :: ds, rest)
  | rest => some ([], rest)

def exponentSign : List Char → List Char × List Char
  | '+' :: rest => (['+'], rest)
  | '-' :: rest => (['-'], rest)
  | rest => ([], rest)

def exponent? : List Char → Option (List Char × Int × List Char)
  | [] => some ([], 0, [])
  | c :: rest =>
    if c = 'e' ∨ c = 'E' then
      let (sign, rest) := exponentSign rest
      match digits rest with
      | ([], _) => none
      | (ds, rest) =>
        let n : Int := number ds
        some (c :: sign ++ ds, if sign = ['-'] then -n else n, rest)
    else some ([], 0, c :: rest)

def magnitude? (sign cs : List Char) : Option (Json × List Char) := do
  let (ds, rest) ← whole? cs
  let (fs, rest) ← fraction? rest
  let (es, exponent, rest) ← exponent? rest
  if isHuge ds fs.tail exponent then return (flawed, rest)
  else if sign ++ fs ++ es = [] then return (natural (number ds), rest)
  else return (decimal (String.ofList (sign ++ ds ++ fs ++ es)), rest)

def number? : List Char → Option (Json × List Char)
  | '-' :: rest => magnitude? ['-'] rest
  | cs => magnitude? [] cs

def ofMembers (members : List (Option String × Json)) : Json :=
  match members.mapM fun m => m.1.map (·, m.2) with
  | some members => object members
  | none => flawed

mutual

def value? : (fuel : Nat) → List Char → Option (Json × List Char)
  | 0, _ => none
  | fuel + 1, cs =>
    match skipSpace cs with
    | [] => none
    | 'n' :: 'u' :: 'l' :: 'l' :: rest => some (null, rest)
    | 't' :: 'r' :: 'u' :: 'e' :: rest => some (bool true, rest)
    | 'f' :: 'a' :: 'l' :: 's' :: 'e' :: rest => some (bool false, rest)
    | '"' :: rest => (unquote? rest).map fun (ns, rest) => ((string? ns).elim flawed text, rest)
    | '[' :: rest =>
      match skipSpace rest with
      | ']' :: rest => some (array [], rest)
      | _ => (items? fuel rest).map fun (items, rest) => (array items, rest)
    | '{' :: rest =>
      match skipSpace rest with
      | '}' :: rest => some (object [], rest)
      | _ => (members? fuel rest).map fun (members, rest) => (ofMembers members, rest)
    | cs => number? cs

def items? : (fuel : Nat) → List Char → Option (List Json × List Char)
  | 0, _ => none
  | fuel + 1, cs => do
    let (item, rest) ← value? fuel cs
    match skipSpace rest with
    | ',' :: rest =>
      let (items, rest) ← items? fuel rest
      return (item :: items, rest)
    | ']' :: rest => return ([item], rest)
    | _ => none

def members? : (fuel : Nat) → List Char → Option (List (Option String × Json) × List Char)
  | 0, _ => none
  | fuel + 1, cs =>
    match skipSpace cs with
    | '"' :: rest => do
      let (name, rest) ← unquote? rest
      match skipSpace rest with
      | ':' :: rest =>
        let (value, rest) ← value? fuel rest
        match skipSpace rest with
        | ',' :: rest =>
          let (members, rest) ← members? fuel rest
          return ((string? name, value) :: members, rest)
        | '}' :: rest => return ([(string? name, value)], rest)
        | _ => none
      | _ => none
    | _ => none

end

/-- The document that a text writes. Each level of nesting takes a character and at most two
steps, so the steps suffice. -/
def parse? (s : String) : Option Json :=
  let cs := s.toList
  match value? (2 * cs.length + 2) cs with
  | some (j, rest) => if (skipSpace rest).isEmpty then some j else none
  | none => none

end CausalWork.Json
