import CausalWork.Json.Fields
import CausalWork.Text.Blank

namespace CausalWork

inductive Kind
  | chunk
  | subsystem
  | narrative
  | investigation
  deriving DecidableEq

namespace Kind

def all : List Kind := [chunk, subsystem, narrative, investigation]

def name : Kind → String
  | chunk => "chunk"
  | subsystem => "subsystem"
  | narrative => "narrative"
  | investigation => "investigation"

def plural : Kind → String
  | chunk => "chunks"
  | subsystem => "subsystems"
  | narrative => "narratives"
  | investigation => "investigations"

def ofText? (s : String) : Option Kind :=
  let word := Text.folded s
  all.find? fun k => k.name = word || k.plural = word

def ofName? (s : String) : Option Kind := all.find? fun k => k.name = s

def unknownText (s : String) : String := "unknown artifact kind: " ++ s

def toJson (k : Kind) : Json := .text k.name

def ofJson? (m : Json.Manner) (j : Json) : Option Kind := do ofName? (← j.word? m)

theorem ofName?_name (k : Kind) : ofName? k.name = some k := by cases k <;> decide

end Kind

end CausalWork
