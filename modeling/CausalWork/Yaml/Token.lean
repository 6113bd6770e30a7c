import CausalWork.Yaml.Scalar

namespace CausalWork.Yaml

/-- The marks that give a document its form, and its scalars. Only a plain scalar can stand for
something else than its text. Anchors, aliases, tags and directives are left out. -/
inductive Token
  | documentStart
  | documentEnd
  | sequenceStart
  | mappingStart
  | blockEnd
  | flowSequenceStart
  | flowSequenceEnd
  | flowMappingStart
  | flowMappingEnd
  | flowEntry
  | blockEntry
  | key
  | value
  | scalar (isPlain : Bool) (text : String)
  deriving DecidableEq

/-- A place where a key without a sign may have started, with the count of tokens before it. -/
structure Candidate where
  place : Nat
  mark : Mark
  isRequired : Bool

/-- How far a text of so many characters is read. Tokens and indentations are kept with the latest
first, and there is a candidate or none for each level of brackets, the innermost first. -/
structure Scan where
  size : Nat
  mark : Mark
  rest : List Char
  indents : List Nat
  allowsKey : Bool
  candidates : List (Option Candidate)
  tokens : List Token
  count : Nat

namespace Scan

def start (cs : List Char) : Scan := ⟨cs.length, .start, cs, [], true, [none], [], 0⟩

def isFlow (s : Scan) : Bool := 1 < s.candidates.length

def indent (s : Scan) : Option Nat := s.indents.head?

def steps (s : Scan) : Nat := s.size + 1

def emit (s : Scan) (t : Token) : Scan :=
  { s with tokens := t :: s.tokens, count := s.count + 1 }

def goTo (s : Scan) (mark : Mark) (rest : List Char) : Scan := { s with mark, rest }

def step (s : Scan) (count : Nat) : Scan := s.goTo (s.mark.skip count) (s.rest.drop count)

def allow (s : Scan) (allowsKey : Bool) : Scan := { s with allowsKey }

/-- Goes over white space and comments. In a block a tab is no white space where a key may start,
and a key may start on each new line. A line may start with a mark of byte order. -/
def skipBlank (flow : Bool) : (steps : Nat) → (allowsKey comment : Bool) → Mark → List Char →
    Bool × Mark × List Char
  | 0, allowsKey, _, m, cs => (allowsKey, m, cs)
  | steps + 1, allowsKey, comment, m, cs =>
    match cs, break? cs with
    | [], _ => (allowsKey, m, [])
    | _, some (_, width, rest) =>
      skipBlank flow steps (allowsKey || !flow) false (m.newline width) rest
    | c :: rest, none =>
      if comment || c = '#' then skipBlank flow steps allowsKey true m.next rest
      else if c = ' ' || c = '\t' && (flow || !allowsKey) || c = '\ufeff' && m.column = 0 then
        skipBlank flow steps allowsKey false m.next rest
      else (allowsKey, m, cs)

def toToken (s : Scan) : Scan :=
  let (allowsKey, mark, rest) :=
    skipBlank s.isFlow s.steps s.allowsKey false s.mark s.rest
  { s with allowsKey, mark, rest }

def isStale (m : Mark) (c : Candidate) : Bool :=
  c.mark.line < m.line || c.mark.index + 1024 < m.index

def refresh (m : Mark) : Option Candidate → Option (Option Candidate)
  | none => some none
  | some c => if isStale m c then (if c.isRequired then none else some none) else some (some c)

def dropStale? (s : Scan) : Option Scan := do
  return { s with candidates := ← s.candidates.mapM (refresh s.mark) }

def unroll (column : Option Nat) (s : Scan) : Scan :=
  if s.isFlow then s
  else
    let ended := s.indents.takeWhile fun indent => column.all (· < indent)
    { s with
      indents := s.indents.drop ended.length
      tokens := List.replicate ended.length .blockEnd ++ s.tokens
      count := s.count + ended.length }

def isDeeper (s : Scan) (column : Nat) : Bool := s.indent.all (· < column)

def roll (start : Token) (s : Scan) : Scan :=
  if !s.isFlow && s.isDeeper s.mark.column then
    { s.emit start with indents := s.mark.column :: s.indents }
  else s

def dropCandidate? (s : Scan) : Option Scan :=
  match s.candidates with
  | some c :: outer => if c.isRequired then none else some { s with candidates := none :: outer }
  | _ => some s

/-- Takes note that a key may start here. At the column of its block it has to be one. -/
def saveCandidate? (s : Scan) : Option Scan :=
  if s.allowsKey then do
    let s ← s.dropCandidate?
    let isRequired := !s.isFlow && s.indent = some s.mark.column
    return { s with
      candidates := some ⟨s.count, s.mark, isRequired⟩ :: s.candidates.tail }
  else some s

def documentMark? (s : Scan) (t : Token) : Option Scan := do
  let s ← (s.unroll none).dropCandidate?
  return ((s.allow false).emit t).step 3

def openFlow? (s : Scan) (t : Token) : Option Scan := do
  let s ← s.saveCandidate?
  let s := { s with candidates := none :: s.candidates }
  return ((s.allow true).emit t).step 1

def closeFlow? (s : Scan) (t : Token) : Option Scan := do
  let s ← s.dropCandidate?
  let s := if s.isFlow then { s with candidates := s.candidates.tail } else s
  return ((s.allow false).emit t).step 1

def flowEntry? (s : Scan) : Option Scan := do
  let s ← s.dropCandidate?
  return ((s.allow true).emit .flowEntry).step 1

def blockEntry? (s : Scan) : Option Scan := do
  if !s.isFlow && !s.allowsKey then none
  else
    let s ← (s.roll .sequenceStart).dropCandidate?
    return ((s.allow true).emit .blockEntry).step 1

def key? (s : Scan) : Option Scan := do
  if !s.isFlow && !s.allowsKey then none
  else
    let s ← (s.roll .mappingStart).dropCandidate?
    return ((s.allow !s.isFlow).emit .key).step 1

/-- Puts the sign of a key where its candidate started, and the start of a mapping if none stands
at its column. -/
def confirm (s : Scan) (c : Candidate) : Scan :=
  let later := s.tokens.take (s.count - c.place)
  let earlier := s.tokens.drop (s.count - c.place)
  let opens := !s.isFlow && s.isDeeper c.mark.column
  { s with
    indents := if opens then c.mark.column :: s.indents else s.indents
    candidates := none :: s.candidates.tail
    tokens := later ++ .key :: if opens then .mappingStart :: earlier else earlier
    count := s.count + if opens then 2 else 1 }

def value? (s : Scan) : Option Scan :=
  match s.candidates with
  | some c :: _ => some ((((s.confirm c).allow false).emit .value).step 1)
  | _ =>
    if !s.isFlow && !s.allowsKey then none
    else
      let s := s.roll .mappingStart
      some (((s.allow !s.isFlow).emit .value).step 1)

def scalar (s : Scan) (isPlain : Bool) (found : Scanned) : Scan :=
  (s.emit (.scalar isPlain (String.ofList found.content))).goTo found.mark found.rest

def quoted? (s : Scan) (quote : Char) : Option Scan := do
  let s ← s.saveCandidate?
  let found ← quoted quote s.steps [] .none s.mark.next s.rest.tail
  return (s.allow false).scalar false found

def block? (s : Scan) (folded : Bool) : Option Scan := do
  let s ← s.dropCandidate?
  let found ← block folded s.indent s.steps s.mark.next s.rest.tail
  return (s.allow true).scalar false found

def plain? (s : Scan) : Option Scan := do
  let s ← s.saveCandidate?
  let indent := s.indent.elim 0 (· + 1)
  let (found, broken) ← plain s.isFlow indent s.steps [] .none s.mark s.rest
  return (s.allow broken).scalar true found

def indicators : List Char := "-?:,[]\x7b\x7d#&*!|>'\"%@`".toList

def startsPlain (flow : Bool) (c : Char) (rest : List Char) : Bool :=
  !indicators.contains c && !isSpace c && !isBreak c ||
    c = '-' && !rest.head?.any isSpace ||
    !flow && (c = '?' || c = ':') && !atBlank rest

/-- The next token. A text with an anchor, an alias, a tag or a directive is not read at all, though
YAML has them. -/
def token? (s : Scan) : Option Scan :=
  match s.rest with
  | [] => some s
  | c :: rest =>
    if s.mark.column = 0 && c = '%' then none
    else if s.mark.column = 0 && atDocumentMark s.rest then
      s.documentMark? (if c = '-' then .documentStart else .documentEnd)
    else if c = '[' then s.openFlow? .flowSequenceStart
    else if c = '{' then s.openFlow? .flowMappingStart
    else if c = ']' then s.closeFlow? .flowSequenceEnd
    else if c = '}' then s.closeFlow? .flowMappingEnd
    else if c = ',' then s.flowEntry?
    else if c = '-' && atBlank rest then s.blockEntry?
    else if c = '?' && (s.isFlow || atBlank rest) then s.key?
    else if c = ':' && (s.isFlow || atBlank rest) then s.value?
    else if c = '|' && !s.isFlow then s.block? false
    else if c = '>' && !s.isFlow then s.block? true
    else if c = '\'' || c = '"' then s.quoted? c
    else if startsPlain s.isFlow c rest then s.plain?
    else none

def run? : (steps : Nat) → Scan → Option Scan
  | 0, _ => none
  | steps + 1, s => do
    let s ← s.toToken.dropStale?
    let s := s.unroll (some s.mark.column)
    if s.rest.isEmpty then (s.unroll none).dropCandidate?
    else run? steps (← s.token?)

end Scan

def tokens? (text : String) : Option (List Token) :=
  let cs := text.toList
  if cs.all isAllowed then
    (Scan.run? (cs.length + 1) (Scan.start cs)).map fun s => s.tokens.reverse
  else none

end CausalWork.Yaml
