import CausalWork.Text.Hex
import CausalWork.Yaml.Mark

namespace CausalWork.Yaml

/-- The white space since the last visible character of a scalar: spaces of one line, or line
breaks, the later ones in reverse. -/
inductive Gap
  | spaces (cs : List Char)
  | breaks (first : Option Char) (more : List Char)

structure Scanned where
  content : List Char
  mark : Mark
  rest : List Char

namespace Gap

def none : Gap := spaces []

def isBroken : Gap → Bool
  | spaces _ => false
  | breaks _ _ => true

def addSpace (c : Char) : Gap → Gap
  | spaces cs => spaces (c :: cs)
  | g => g

def addBreak (c : Char) : Gap → Gap
  | spaces _ => breaks (some c) []
  | breaks first more => breaks first (c :: more)

/-- What stands for the gap: one line break becomes a space, of several the first goes, and a break
that was escaped becomes nothing. -/
def fold : Gap → List Char
  | spaces cs => cs.reverse
  | breaks .none more => more.reverse
  | breaks (some '\n') [] => [' ']
  | breaks (some '\n') more => more.reverse
  | breaks (some c) more => c :: more.reverse

end Gap

def Gap.finish (gap : Gap) (done : List Char) (m : Mark) (cs : List Char) :
    Option (Scanned × Bool) :=
  some (⟨done.reverse, m, cs⟩, gap.isBroken)

/-- A scalar without quotes. It is given in reverse as far as it is read, and goes on until a mark
that ends it, or in a block until a line that is not indented. -/
def plain (flow : Bool) (indent : Nat) : (steps : Nat) → (done : List Char) → Gap → Mark →
    List Char → Option (Scanned × Bool)
  | 0, _, _, _, _ => none
  | steps + 1, done, gap, m, cs =>
    match cs with
    | [] => gap.finish done m cs
    | c :: rest =>
      if isSpace c then
        if c = '\t' ∧ gap.isBroken ∧ m.column < indent then none
        else plain flow indent steps done (gap.addSpace c) m.next rest
      else match break? cs with
        | some (b, width, rest) =>
          plain flow indent steps done (gap.addBreak b) (m.newline width) rest
        | none =>
          if gap.isBroken ∧ !flow ∧ m.column < indent then gap.finish done m cs
          else if m.column = 0 ∧ atDocumentMark cs then gap.finish done m cs
          else if c = '#' ∧ !gap.fold.isEmpty then gap.finish done m cs
          else if flow ∧ c = ':' ∧ rest.head?.any (",?[]\x7b\x7d".toList.contains ·) then none
          else if c = ':' ∧ atBlank rest then gap.finish done m cs
          else if flow ∧ ",[]\x7b\x7d".toList.contains c then gap.finish done m cs
          else plain flow indent steps (c :: (gap.fold.reverse ++ done)) .none m.next rest

def coded? (count : Nat) (cs : List Char) : Option (Char × Nat × List Char) := do
  let ds ← (cs.take count).mapM Text.hexValue?
  let n := Text.hexNumber ds
  if ds.length = count ∧ n.isValidChar then return (Char.ofNat n, count + 2, cs.drop count)
  else none

def escape? : List Char → Option (Char × Nat × List Char)
  | '0' :: cs => some ('\x00', 2, cs)
  | 'a' :: cs => some ('\x07', 2, cs)
  | 'b' :: cs => some ('\x08', 2, cs)
  | 't' :: cs => some ('\t', 2, cs)
  | '\t' :: cs => some ('\t', 2, cs)
  | 'n' :: cs => some ('\n', 2, cs)
  | 'v' :: cs => some ('\x0b', 2, cs)
  | 'f' :: cs => some ('\x0c', 2, cs)
  | 'r' :: cs => some ('\r', 2, cs)
  | 'e' :: cs => some ('\x1b', 2, cs)
  | ' ' :: cs => some (' ', 2, cs)
  | '"' :: cs => some ('"', 2, cs)
  | '/' :: cs => some ('/', 2, cs)
  | '\\' :: cs => some ('\\', 2, cs)
  | 'N' :: cs => some ('\x85', 2, cs)
  | '_' :: cs => some ('\xa0', 2, cs)
  | 'L' :: cs => some ('\u2028', 2, cs)
  | 'P' :: cs => some ('\u2029', 2, cs)
  | 'x' :: cs => coded? 2 cs
  | 'u' :: cs => coded? 4 cs
  | 'U' :: cs => coded? 8 cs
  | _ => none

/-- The rest of a scalar in quotes, up to the closing one. In single quotes a quote is written
twice; in double quotes a backslash escapes. -/
def quoted (quote : Char) : (steps : Nat) → (done : List Char) → Gap → Mark → List Char →
    Option Scanned
  | 0, _, _, _, _ => none
  | _, _, _, _, [] => none
  | steps + 1, done, gap, m, c :: cs =>
    if isSpace c then quoted quote steps done (gap.addSpace c) m.next cs
    else match break? (c :: cs) with
      | some (b, width, rest) => quoted quote steps done (gap.addBreak b) (m.newline width) rest
      | none =>
        let done := gap.fold.reverse ++ done
        if m.column = 0 ∧ atDocumentMark (c :: cs) then none
        else if c = quote then
          if quote = '\'' ∧ cs.head? = some '\'' then
            quoted quote steps ('\'' :: done) .none (m.skip 2) cs.tail
          else some ⟨done.reverse, m.next, cs⟩
        else if c = '\\' ∧ quote = '"' then
          match break? cs with
          | some (_, width, rest) =>
            quoted quote steps done (.breaks none []) (m.newline (width + 1)) rest
          | none =>
            match escape? cs with
            | some (d, width, rest) => quoted quote steps (d :: done) .none (m.skip width) rest
            | none => none
        else quoted quote steps (c :: done) .none m.next cs

inductive Chomp
  | strip
  | clip
  | keep

def header? : List Char → Option (Chomp × Nat × Nat × List Char)
  | cs =>
    let chomp (cs : List Char) : Option (Chomp × List Char) :=
      match cs with
      | '+' :: cs => some (.keep, cs)
      | '-' :: cs => some (.strip, cs)
      | _ => none
    let depth (cs : List Char) : Option (Nat × List Char) :=
      match cs with
      | c :: cs => if c.isDigit then some (c.toNat - 48, cs) else none
      | [] => none
    match chomp cs with
    | some (chomp, cs) =>
      match depth cs with
      | some (0, _) => none
      | some (depth, cs) => some (chomp, depth, 2, cs)
      | none => some (chomp, 0, 1, cs)
    | none =>
      match depth cs with
      | some (0, _) => none
      | some (depth, cs) =>
        match chomp cs with
        | some (chomp, cs) => some (chomp, depth, 2, cs)
        | none => some (.clip, depth, 1, cs)
      | none => some (.clip, 0, 0, cs)

/-- Empty lines of a block and the indentation of the line after them. The breaks are kept in
reverse, and `most` is the deepest column so far. An indentation of zero is not known yet. -/
def emptyLines (indent : Nat) : (steps : Nat) → (most : Nat) → (breaks : List Char) → Mark →
    List Char → Option (Nat × List Char × Mark × List Char)
  | 0, _, _, _, _ => none
  | steps + 1, most, breaks, m, cs =>
    let shallow : Bool := indent = 0 || m.column < indent
    match cs with
    | [] => some (max most m.column, breaks, m, [])
    | c :: rest =>
      if shallow && c = ' ' then emptyLines indent steps most breaks m.next rest
      else if shallow && c = '\t' then none
      else match break? cs with
        | some (b, width, rest) =>
          emptyLines indent steps (max most m.column) (b :: breaks) (m.newline width) rest
        | none => some (max most m.column, breaks, m, cs)

/-- How the break before a line of a folded block is written, if no empty lines follow it: as a
space, unless one of the lines around it starts with white space. -/
def joint (folded : Bool) (lead : List Char) (breaks : List Char) (spaced : Bool) : List Char :=
  if folded ∧ lead = ['\n'] ∧ !spaced then (if breaks.isEmpty then [' '] else []) else lead

/-- The lines of a block that are indented as it is. The scalar is given in reverse as far as it is
read; `lead` is the break that ended the last line and `breaks` are those of empty lines after it,
in reverse. -/
def blockLines (folded : Bool) (indent : Nat) : (steps : Nat) → (done lead breaks : List Char) →
    (spaced : Bool) → Mark → List Char →
    Option (List Char × List Char × List Char × Mark × List Char)
  | 0, _, _, _, _, _, _ => none
  | steps + 1, done, lead, breaks, spaced, m, cs =>
    if m.column = indent ∧ !cs.isEmpty then
      let opens := cs.head?.any isSpace
      let done := breaks ++ ((joint folded lead breaks (spaced || opens)).reverse ++ done)
      let line := cs.takeWhile (!isBreak ·)
      let rest := cs.drop line.length
      let (lead, m, rest) := match break? rest with
        | some (b, width, rest) => ([b], (m.skip line.length).newline width, rest)
        | none => ([], m.skip line.length, rest)
      match emptyLines indent steps 0 [] m rest with
      | none => none
      | some (_, breaks, m, rest) =>
        blockLines folded indent steps (line.reverse ++ done) lead breaks opens m rest
    else some (done, lead, breaks, m, cs)

def block (folded : Bool) (outer : Option Nat) (steps : Nat) (m : Mark) (cs : List Char) :
    Option Scanned := do
  let (chomp, depth, width, cs) ← header? cs
  let blanks := cs.takeWhile isSpace
  let cs := cs.drop blanks.length
  let comment := if cs.head? = some '#' then cs.takeWhile (!isBreak ·) else []
  let cs := cs.drop comment.length
  let m := m.skip (width + blanks.length + comment.length)
  let (m, cs) ← match cs with
    | [] => some (m, [])
    | cs => (break? cs).map fun (_, width, rest) => (m.newline width, rest)
  let told := if depth = 0 then 0 else outer.getD 0 + depth
  let (most, breaks, m, cs) ← emptyLines told steps 0 [] m cs
  let least := outer.elim 1 (· + 1)
  let indent := if told = 0 then max most least else told
  let (done, lead, breaks, m, cs) ←
    blockLines folded indent steps [] [] breaks false m cs
  let tail := match chomp with
    | .strip => []
    | .clip => lead
    | .keep => lead ++ breaks.reverse
  return ⟨done.reverse ++ tail, m, cs⟩

end CausalWork.Yaml
