import CausalWork.Text.Decimal
import CausalWork.Text.Hex

namespace CausalWork

/-- A document of scalars, sequences and mappings. What a scalar stands for is up to the reader of
its field; only one without quotes can stand for nothing or for a number. -/
inductive Yaml
  | scalar (isPlain : Bool) (text : String)
  | sequence (items : List Yaml)
  | mapping (entries : List (Yaml × Yaml))
  deriving Inhabited

namespace Yaml

def blank : Yaml := scalar true ""

def text? : Yaml → Option String
  | scalar _ s => some s
  | _ => none

def isNull : Yaml → Bool
  | scalar true s => ["", "~", "null", "Null", "NULL"].contains s
  | _ => false

def nullable {α : Type} (read : Yaml → Option α) (y : Yaml) : Option (Option α) :=
  if y.isNull then some none else (read y).map some

def items? : Yaml → Option (List Yaml)
  | sequence items => some items
  | scalar true "" => some []
  | _ => none

def texts? (y : Yaml) : Option (List String) := do (← y.items?).mapM text?

def entries? : Yaml → Option (List (String × Yaml))
  | mapping entries => entries.mapM fun e => e.1.text?.map fun name => (name, e.2)
  | scalar true "" => some []
  | _ => none

def member? (name : String) (entries : List (String × Yaml)) : Option (Option Yaml) :=
  match entries.filter fun e => e.1 = name with
  | [] => some none
  | [e] => some (some e.2)
  | _ => none

def fields? (names : List String) (y : Yaml) : Option (List (Option Yaml)) := do
  let entries ← y.entries?
  names.mapM fun name => member? name entries

def required {α : Type} (read : Yaml → Option α) (field : Option Yaml) : Option α :=
  field.bind read

def defaulted {α : Type} (absent : α) (read : Yaml → Option α) : Option Yaml → Option α
  | none => some absent
  | some y => read y

def digitOf? (base : Nat) (c : Char) : Option Nat := do
  let d ← Text.hexValue? c
  if d.val < base then return d.val else none

def digitsOf? (base : Nat) (cs : List Char) : Option Nat := do
  let ds ← cs.mapM (digitOf? base)
  if ds.isEmpty then none else return ds.foldl (fun n d => base * n + d) 0

/-- A number in base ten, or with a mark in base sixteen, eight or two. Without a mark, a zero that
more digits follow makes it a text. -/
def unsigned? : List Char → Option Nat
  | '0' :: 'x' :: cs => digitsOf? 16 cs
  | '0' :: 'o' :: cs => digitsOf? 8 cs
  | '0' :: 'b' :: cs => digitsOf? 2 cs
  | '0' :: _ :: _ => none
  | cs => digitsOf? 10 cs

def word? : Yaml → Option Nat
  | scalar true s =>
    let n := match s.toList with
      | '+' :: cs => unsigned? cs
      | cs => unsigned? cs
    n.filter (· < UInt64.size)
  | _ => none

end Yaml

end CausalWork
