namespace CausalWork.Yaml

structure Mark where
  line : Nat
  column : Nat
  index : Nat

namespace Mark

def start : Mark := ⟨0, 0, 0⟩

def next (m : Mark) : Mark := ⟨m.line, m.column + 1, m.index + 1⟩

def skip (m : Mark) (count : Nat) : Mark := ⟨m.line, m.column + count, m.index + count⟩

def newline (m : Mark) (width : Nat) : Mark := ⟨m.line + 1, 0, m.index + width⟩

end Mark

def isBreak (c : Char) : Bool :=
  c = '\n' || c = '\r' || c = '\x85' || c = '\u2028' || c = '\u2029'

def isSpace (c : Char) : Bool := c = ' ' || c = '\t'

def atBlank : List Char → Bool
  | [] => true
  | c :: _ => isSpace c || isBreak c

/-- A line break at the front of a text: how it is kept, how wide it is, and what follows it. -/
def break? : List Char → Option (Char × Nat × List Char)
  | '\r' :: '\n' :: cs => some ('\n', 2, cs)
  | c :: cs =>
    if c = '\u2028' ∨ c = '\u2029' then some (c, 1, cs)
    else if isBreak c then some ('\n', 1, cs)
    else none
  | [] => none

def atDocumentMark : List Char → Bool
  | '-' :: '-' :: '-' :: cs => atBlank cs
  | '.' :: '.' :: '.' :: cs => atBlank cs
  | _ => false

def isAllowed (c : Char) : Bool :=
  c = '\t' || c = '\n' || c = '\r' || c = '\x85' || ' ' ≤ c && c ≤ '~' ||
    '\xa0' ≤ c && c.toNat ≠ 0xFFFE && c.toNat ≠ 0xFFFF

end CausalWork.Yaml
