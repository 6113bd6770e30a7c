namespace CausalWork

abbrev CharRanges := List (Char × Char)

inductive Piece
  | exactly (c : Char)
  | any
  | within (set : CharRanges)
  | outside (set : CharRanges)
  | run
  | deepRun
  deriving DecidableEq

structure Pattern where
  pieces : List Piece
  deriving DecidableEq

inductive PatternFault
  | wildcards
  | recursive
  | range
  deriving DecidableEq

structure PatternError where
  position : Nat
  fault : PatternFault
  deriving DecidableEq

/-- The outcome of laying a pattern over a text: it covers the text, it does not, or the text ends
too early for it, so that no later start can help. -/
inductive Cover
  | whole
  | miss
  | short
  deriving DecidableEq

namespace PatternError

def message (e : PatternError) : String :=
  "Pattern syntax error near position " ++ toString e.position ++ ": " ++
    match e.fault with
    | .wildcards => "wildcards are either regular `*` or recursive `**`"
    | .recursive => "recursive wildcards must form a single path component"
    | .range => "invalid range pattern"

end PatternError

namespace Pattern

def inRanges (set : CharRanges) (c : Char) : Bool := set.any fun r => r.1 ≤ c && c ≤ r.2

def ranges : List Char → CharRanges
  | a :: '-' :: b :: rest => (a, b) :: ranges rest
  | c :: rest => (c, c) :: ranges rest
  | [] => []

def bracketed? : List Char → Option (List Char × List Char)
  | [] => none
  | c :: rest =>
    match rest.span (· ≠ ']') with
    | (set, _ :: rest) => some (c :: set, rest)
    | (_, []) => none

def set? : List Char → Option (Piece × List Char)
  | '!' :: rest => (bracketed? rest).map fun (set, rest) => (.outside (ranges set), rest)
  | rest => (bracketed? rest).map fun (set, rest) => (.within (ranges set), rest)

def addDeepRun (done : List Piece) : List Piece :=
  match done with
  | .deepRun :: _ :: _ => done
  | _ => .deepRun :: done

/-- Reads pieces from a position on. The pieces before it are given in reverse, and so is the
character right before it. -/
def piecesFrom : (steps position : Nat) → (last : Option Char) → (done : List Piece) →
    List Char → Except PatternError (List Piece)
  | 0, _, _, done, _ => .ok done.reverse
  | _, _, _, done, [] => .ok done.reverse
  | steps + 1, position, last, done, '*' :: rest =>
    let (stars, rest) := rest.span (· = '*')
    match stars.length with
    | 0 => piecesFrom steps (position + 1) (some '*') (.run :: done) rest
    | 1 =>
      if last ≠ none ∧ last ≠ some '/' then .error ⟨position - 1, .recursive⟩
      else match rest with
        | [] => .ok (addDeepRun done).reverse
        | '/' :: rest => piecesFrom steps (position + 3) (some '/') (addDeepRun done) rest
        | _ => .error ⟨position + 2, .recursive⟩
    | _ => .error ⟨position + 2, .wildcards⟩
  | steps + 1, position, _, done, '[' :: rest =>
    match set? rest with
    | none => .error ⟨position, .range⟩
    | some (piece, after) =>
      let width := 1 + (rest.length - after.length)
      piecesFrom steps (position + width) (some ']') (piece :: done) after
  | steps + 1, position, _, done, '?' :: rest =>
    piecesFrom steps (position + 1) (some '?') (.any :: done) rest
  | steps + 1, position, _, done, c :: rest =>
    piecesFrom steps (position + 1) (some c) (.exactly c :: done) rest

def ofText? (s : String) : Except PatternError Pattern := do
  return ⟨← piecesFrom (s.length + 1) 0 none [] s.toList⟩

/-- Tries the rest of a pattern after every run from here on, the shortest first. A run over whole
components ends at a slash. -/
def tryRuns (deep : Bool) (rest : List Char → Cover) : List Char → Cover
  | [] => rest []
  | c :: cs =>
    if deep && c ≠ '/' then tryRuns deep rest cs
    else match rest cs with
      | .miss => tryRuns deep rest cs
      | cover => cover

def afterRun (deep : Bool) (rest : List Char → Cover) (cs : List Char) : Cover :=
  match rest cs with
  | .miss => tryRuns deep rest cs
  | cover => cover

def step (accepts : Char → Bool) (rest : List Char → Cover) : List Char → Cover
  | [] => .short
  | c :: cs => if accepts c then rest cs else .miss

def cover : List Piece → List Char → Cover
  | [], cs => if cs.isEmpty then .whole else .miss
  | .run :: pieces, cs => afterRun false (cover pieces) cs
  | .deepRun :: pieces, cs => afterRun true (cover pieces) cs
  | .any :: pieces, cs => step (fun _ => true) (cover pieces) cs
  | .exactly c :: pieces, cs => step (· = c) (cover pieces) cs
  | .within set :: pieces, cs => step (inRanges set) (cover pieces) cs
  | .outside set :: pieces, cs => step (fun c => !inRanges set c) (cover pieces) cs

def covers (p : Pattern) (s : String) : Bool := cover p.pieces s.toList = .whole

end Pattern

end CausalWork
