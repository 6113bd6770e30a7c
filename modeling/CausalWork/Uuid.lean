import CausalWork.Text.Hex

namespace CausalWork

structure Uuid where
  digits : List (Fin 16)
  length_eq : digits.length = 32
  deriving DecidableEq

namespace Uuid

open Text

def ofDigits? (ds : List (Fin 16)) : Option Uuid :=
  if h : ds.length = 32 then some ⟨ds, h⟩ else none

def zero : Uuid := ⟨List.replicate 32 (lastHex 0), List.length_replicate⟩

/-- The id that random digits make. One digit names the version, and one the variant in its two
high bits. -/
def ofRandom? (ds : List (Fin 16)) : Option Uuid :=
  ofDigits? ((ds.set 12 (lastHex 4)).modify 16 fun d => lastHex (8 + d.val % 4))

def le (a b : Uuid) : Bool := hexNumber a.digits ≤ hexNumber b.digits

def hyphened (cs : List Char) : List Char :=
  cs.take 8 ++ '-' :: (cs.drop 8).take 4 ++ '-' :: (cs.drop 12).take 4 ++
    '-' :: (cs.drop 16).take 4 ++ '-' :: cs.drop 20

def toText (u : Uuid) : String := String.ofList (hyphened (u.digits.map hexDigit))

def ofPlain? (cs : List Char) : Option Uuid := do ofDigits? (← cs.mapM hexValue?)

def ofHyphened? (cs : List Char) : Option Uuid :=
  let plain := cs.filter (· ≠ '-')
  if cs = hyphened plain then ofPlain? plain else none

def urn : List Char := "urn:uuid:".toList

/-- Reads the hyphened form, alone, in braces or as a name, and the form without hyphens. -/
def ofText? (s : String) : Option Uuid :=
  let cs := s.toList
  if cs.length = 32 then ofPlain? cs
  else if cs.length = 36 then ofHyphened? cs
  else if cs.length = 38 ∧ cs.head? = some '{' ∧ cs.getLast? = some '}' then
    ofHyphened? cs.tail.dropLast
  else if cs.length = 45 ∧ cs.take 9 = urn then ofHyphened? (cs.drop 9)
  else none

end Uuid

end CausalWork
