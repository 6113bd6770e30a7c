import CausalWork.Yaml.Basic
import CausalWork.Yaml.Token

namespace CausalWork.Yaml

def endsItem (tokens : List Token) : Bool :=
  match tokens with
  | .blockEntry :: _ => true
  | .blockEnd :: _ => true
  | _ => false

def endsHalf (tokens : List Token) : Bool :=
  match tokens with
  | .key :: _ => true
  | .value :: _ => true
  | .blockEnd :: _ => true
  | _ => false

def endsFlow (close : Token) (tokens : List Token) : Bool :=
  match tokens with
  | t :: _ => t = .flowEntry || t = close
  | [] => false

mutual

/-- A value. Inside brackets it is no block, and after a key a sequence need not be indented. -/
def value? : (steps : Nat) → (inBlock loose : Bool) → List Token → Option (Yaml × List Token)
  | 0, _, _, _ => none
  | steps + 1, inBlock, loose, tokens =>
    match tokens with
    | .blockEntry :: _ =>
      if loose then (looseItems? steps tokens).map fun (items, rest) => (sequence items, rest)
      else none
    | .scalar isPlain text :: rest => some (scalar isPlain text, rest)
    | .flowSequenceStart :: rest =>
      (flowItems? steps true rest).map fun (items, rest) => (sequence items, rest)
    | .flowMappingStart :: rest =>
      (flowEntries? steps true rest).map fun (entries, rest) => (mapping entries, rest)
    | .sequenceStart :: rest =>
      if inBlock then (blockItems? steps rest).map fun (items, rest) => (sequence items, rest)
      else none
    | .mappingStart :: rest =>
      if inBlock then (blockEntries? steps rest).map fun (entries, rest) => (mapping entries, rest)
      else none
    | _ => none

def blockItems? : (steps : Nat) → List Token → Option (List Yaml × List Token)
  | 0, _ => none
  | steps + 1, tokens =>
    match tokens with
    | .blockEnd :: rest => some ([], rest)
    | .blockEntry :: rest => do
      let (item, rest) ←
        if endsItem rest then some (blank, rest) else value? steps true false rest
      let (items, rest) ← blockItems? steps rest
      return (item :: items, rest)
    | _ => none

def looseItems? : (steps : Nat) → List Token → Option (List Yaml × List Token)
  | 0, _ => none
  | steps + 1, tokens =>
    match tokens with
    | .blockEntry :: rest => do
      let (item, rest) ←
        if endsItem rest || endsHalf rest then some (blank, rest) else value? steps true false rest
      let (items, rest) ← looseItems? steps rest
      return (item :: items, rest)
    | _ => some ([], tokens)

def blockValue? : (steps : Nat) → List Token → Option (Yaml × List Token)
  | 0, _ => none
  | steps + 1, tokens =>
    match tokens with
    | .value :: rest => if endsHalf rest then some (blank, rest) else value? steps true true rest
    | _ => some (blank, tokens)

def blockEntries? : (steps : Nat) → List Token → Option (List (Yaml × Yaml) × List Token)
  | 0, _ => none
  | steps + 1, tokens =>
    match tokens with
    | .blockEnd :: rest => some ([], rest)
    | .key :: rest => do
      let (key, rest) ← if endsHalf rest then some (blank, rest) else value? steps true true rest
      let (value, rest) ← blockValue? steps rest
      let (entries, rest) ← blockEntries? steps rest
      return ((key, value) :: entries, rest)
    | _ => none

def flowValue? (close : Token) : (steps : Nat) → List Token → Option (Yaml × List Token)
  | 0, _ => none
  | steps + 1, tokens =>
    match tokens with
    | .value :: rest =>
      if endsFlow close rest then some (blank, rest) else value? steps false false rest
    | _ => some (blank, tokens)

/-- The items of a sequence in brackets. A key and a value alone are a mapping of one entry. -/
def flowItems? : (steps : Nat) → (isFirst : Bool) → List Token →
    Option (List Yaml × List Token)
  | 0, _, _ => none
  | steps + 1, isFirst, tokens =>
    match tokens with
    | .flowSequenceEnd :: rest => some ([], rest)
    | _ => do
      let tokens ← if isFirst then some tokens else match tokens with
        | .flowEntry :: rest => some rest
        | _ => none
      match tokens with
      | .flowSequenceEnd :: rest => return ([], rest)
      | .key :: rest =>
        let (key, rest) ←
          if rest.head? = some .value || endsFlow .flowSequenceEnd rest then some (blank, rest.tail)
          else value? steps false false rest
        let (value, rest) ← flowValue? .flowSequenceEnd steps rest
        let (items, rest) ← flowItems? steps false rest
        return (mapping [(key, value)] :: items, rest)
      | _ =>
        let (item, rest) ← value? steps false false tokens
        let (items, rest) ← flowItems? steps false rest
        return (item :: items, rest)

def flowEntries? : (steps : Nat) → (isFirst : Bool) → List Token →
    Option (List (Yaml × Yaml) × List Token)
  | 0, _, _ => none
  | steps + 1, isFirst, tokens =>
    match tokens with
    | .flowMappingEnd :: rest => some ([], rest)
    | _ => do
      let tokens ← if isFirst then some tokens else match tokens with
        | .flowEntry :: rest => some rest
        | _ => none
      match tokens with
      | .flowMappingEnd :: rest => return ([], rest)
      | .key :: rest =>
        let (key, rest) ←
          if rest.head? = some .value || endsFlow .flowMappingEnd rest then some (blank, rest)
          else value? steps false false rest
        let (value, rest) ← flowValue? .flowMappingEnd steps rest
        let (entries, rest) ← flowEntries? steps false rest
        return ((key, value) :: entries, rest)
      | _ =>
        let (key, rest) ← value? steps false false tokens
        let (entries, rest) ← flowEntries? steps false rest
        return ((key, blank) :: entries, rest)

end

def content? (steps : Nat) (tokens : List Token) : Option (Yaml × List Token) :=
  match tokens with
  | [] => some (blank, [])
  | .documentStart :: _ => some (blank, tokens)
  | .documentEnd :: _ => some (blank, tokens)
  | _ => value? steps true false tokens

/-- The one document that a text holds. Each step takes a token, or is followed by one that does. -/
def parse? (text : String) : Option Yaml := do
  let tokens ← tokens? text
  let steps := 2 * tokens.length + 2
  let (y, rest) ← match tokens with
    | [] => none
    | .documentStart :: rest => content? steps rest
    | _ => value? steps true false tokens
  if rest.all (· = .documentEnd) then return y else none

end CausalWork.Yaml
