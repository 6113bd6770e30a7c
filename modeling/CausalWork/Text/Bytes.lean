import CausalWork.Text.Hex

namespace CausalWork

abbrev Bytes := List UInt8

namespace Bytes

open Text

def ofText (s : String) : Bytes := s.toList.flatMap String.utf8EncodeChar

def text? (b : Bytes) : Option String :=
  b.toByteArray.utf8Decode?.map fun cs => String.ofList cs.toList

def ofHex? : List Char → Option Bytes
  | [] => some []
  | [_] => none
  | h :: l :: rest => do
    return UInt8.ofNat (hexNumber [← hexValue? h, ← hexValue? l]) :: (← ofHex? rest)

theorem ofText_append (s t : String) : ofText (s ++ t) = ofText s ++ ofText t := by
  simp [ofText]

theorem text?_ofText (s : String) : text? (ofText s) = some s := by
  have h : (ofText s).toByteArray = s.toList.utf8Encode := rfl
  rw [text?, h, List.utf8Decode?_utf8Encode]
  simp

end Bytes

end CausalWork
