import CausalWork.Command.Signature

namespace CausalWork.Command

/-- How far the arguments of a command are read. The last one that was named or placed is settled
only when the next one comes: until then it may lack its value, and a bad value is no fault. -/
structure Progress where
  given : Given
  pending : Option (Choice × Option String)
  placed : Bool
  plain : Bool

namespace Progress

def start : Progress := ⟨[], none, false, false⟩

def fits : Form → String → Bool
  | .kind, value => (Kind.ofText? value).isSome
  | _, _ => true

def take (p : Progress) (c : Choice) (value : String) : Except Usage Progress :=
  if (p.given.text? c.name).isSome then .error .repeated
  else if fits c.form value then .ok { p with given := (c.name, value) :: p.given }
  else .error .invalidValue

def settle (p : Progress) : Except Usage Progress :=
  match p.pending with
  | none => .ok p
  | some (_, none) => .error .missingValue
  | some (c, some value) => take { p with pending := none } c value

def name (p : Progress) (c : Choice) (attached : Option String) : Except Usage Progress :=
  match c.form, attached with
  | .flag, some _ => .error .needlessValue
  | .flag, none => do (← p.settle).take c ""
  | _, some value => do (← p.settle).take c value
  | _, none => do return { ← p.settle with pending := some (c, none) }

def help (p : Progress) : Except Usage Progress := do
  let _ ← p.settle
  throw .help

def place (p : Progress) (s : Signature) (value : String) : Except Usage Progress := do
  match s.place with
  | none => throw .unknownArgument
  | some c =>
    if p.placed then throw .unknownArgument
    else return { ← p.settle with pending := some (c, some value), placed := true }

def splitValue (cs : List Char) : String × Option String :=
  match cs.span (· ≠ '=') with
  | (name, []) => (String.ofList name, none)
  | (name, _ :: value) => (String.ofList name, some (String.ofList value))

def long (p : Progress) (s : Signature) (cs : List Char) : Except Usage Progress :=
  let (name, attached) := splitValue cs
  if name = "help" then (if attached.isSome then .error .needlessValue else p.help)
  else match s.choices.find? fun c => c.name = name with
    | some c => p.name c attached
    | none => .error .unknownArgument

def short (p : Progress) (s : Signature) (letter : Char) (cs : List Char) : Except Usage Progress :=
  if letter = 'h' then p.help
  else match s.choices.find? fun c => c.letter = some letter with
    | none => .error .unknownArgument
    | some c =>
      p.name c <| match cs with
        | [] => none
        | '=' :: value => some (String.ofList value)
        | value => some (String.ofList value)

def bare (p : Progress) (s : Signature) (value : String) : Except Usage Progress :=
  match p.pending with
  | some (c, none) => .ok { p with pending := some (c, some value) }
  | _ => p.place s value

def read (s : Signature) (p : Progress) (argument : String) : Except Usage Progress :=
  if p.plain then p.place s argument
  else match argument.toList with
    | ['-', '-'] => .ok { p with plain := true }
    | '-' :: '-' :: cs => p.long s cs
    | '-' :: letter :: cs => p.short s letter cs
    | _ => p.bare s argument

end Progress

def ofArguments (name : String) (s : Signature) (arguments : List String) :
    Except Usage Command := do
  let p ← arguments.foldlM (Progress.read s) Progress.start
  let p ← p.settle
  match Signature.build? name p.given with
  | some c => return c
  | none => throw .missingArgument

def helpFor : List String → Usage
  | [] => .help
  | [name] => if name = "help" ∨ (Signature.ofName? name).isSome then .help else .unknownCommand
  | _ => .unknownCommand

def wish (cs : List Char) : Usage :=
  match cs with
  | '-' :: cs =>
    match Progress.splitValue cs with
    | ("help", none) => .help
    | ("version", none) => .version
    | ("help", some _) => .needlessValue
    | ("version", some _) => .needlessValue
    | _ => .unknownArgument
  | 'h' :: _ => .help
  | 'V' :: _ => .version
  | _ => .unknownArgument

def ofArgs : List String → Except Usage Command
  | [] => .error .helpForLack
  | word :: arguments =>
    match word.toList with
    | ['-', '-'] =>
      match arguments with
      | [] => .error .helpForLack
      | name :: _ =>
        if name = "help" ∨ (Signature.ofName? name).isSome then .error .unknownArgument
        else .error .unknownCommand
    | '-' :: c :: cs => .error (wish (c :: cs))
    | _ =>
      if word = "help" then .error (helpFor arguments)
      else match Signature.ofName? word with
        | some s => ofArguments word s arguments
        | none => .error .unknownCommand

end CausalWork.Command
