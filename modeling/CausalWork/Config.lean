import CausalWork.Artifact
import CausalWork.FileTree
import CausalWork.Yaml.Reader

namespace CausalWork

/-- What the surroundings of a run say: the user's directory, and overrides of where the state and
the artifacts are kept. -/
structure Surroundings where
  user : Option String
  home : Option String
  artifacts : Option String

structure Checkout where
  locator : Locator
  root : String
  deriving DecidableEq

structure Settings where
  home : Option String
  artifacts : Option String
  remotes : List Checkout
  deadline : Option Nat

structure Config where
  home : String
  artifacts : String
  remotes : List Checkout
  deadline : Option Nat
  file : Option String
  deriving DecidableEq

inductive ConfigError
  | noUserDirectory
  | unreadable (path : String)
  | invalid (path : String)
  deriving DecidableEq

namespace ConfigError

def message : ConfigError → String
  | noUserDirectory => "Failed to determine home directory"
  | unreadable path => "Failed to read config file: " ++ path
  | invalid path => "Failed to parse config file: " ++ path

end ConfigError

namespace Settings

def optionalText (field : Option Yaml) : Option (Option String) :=
  Yaml.defaulted none (Yaml.nullable Yaml.text?) field

def paths? (y : Yaml) : Option (Option String × Option String) := do
  match ← y.fields? ["home", "artifacts"] with
  | [home, artifacts] => return (← optionalText home, ← optionalText artifacts)
  | _ => none

def checkout? (y : Yaml) : Option Checkout := do
  match ← y.fields? ["repo", "path", "track", "pinned"] with
  | [repo, path, track, pinned] =>
    let repo ← Yaml.required Yaml.text? repo
    let root ← Yaml.required Yaml.text? path
    return ⟨⟨repo, ← optionalText track, ← optionalText pinned⟩, root⟩
  | _ => none

def deadline? (y : Yaml) : Option (Option Nat) := do
  match ← y.fields? ["deadline_ms"] with
  | [deadline] => Yaml.defaulted none (Yaml.nullable Yaml.word?) deadline
  | _ => none

def ofYaml? (y : Yaml) : Option Settings := do
  match ← y.fields? ["version", "paths", "remotes", "resolver"] with
  | [version, paths, remotes, resolver] =>
    let _ ← Yaml.required Yaml.text? version
    let (home, artifacts) ← Yaml.defaulted (none, none) paths? paths
    let remotes ← Yaml.defaulted [] (fun y => do (← y.items?).mapM checkout?) remotes
    let deadline ← Yaml.defaulted none (Yaml.nullable deadline?) resolver
    return ⟨home, artifacts, remotes, deadline.join⟩
  | _ => none

def ofText? (text : String) : Option Settings := (Yaml.parse? text).bind ofYaml?

end Settings

namespace Config

def directory : String := ".causeway"

def fileName : String := "config.yaml"

/-- Where a configuration file may be: under a directory, or else under one that it is in, the
nearest first. The directory is given by its names from the root, the last one first. -/
def candidates : List String → List String
  | [] => [Path.join (Path.join (FileTree.absolute []) directory) fileName]
  | name :: names =>
    Path.join (Path.join (FileTree.absolute (name :: names).reverse) directory) fileName ::
      candidates names

def file? (t : FileTree) : Option String := (candidates t.start.reverse).find? t.isReachable

/-- A path as it is written, unless it is relative: then it stands for what it names under a base,
if that is there. -/
def resolvePath (t : FileTree) (base path : String) : String :=
  if Path.isAbsolute path then path
  else match t.canonical (Path.join base path) with
    | .ok path => path
    | .error _ => Path.join base path

/-- Resolves the paths of the settings in a file. The state is looked for next to the file, the rest
in the directory above. -/
def ofSettings (t : FileTree) (around : Surroundings) (user file : String) (s : Settings) :
    Config :=
  let beside := (Path.parent? file).getD "."
  let base := (Path.parent? beside).getD "."
  let home := around.home.getD (s.home.elim user (resolvePath t beside))
  { home
    artifacts := around.artifacts.getD
      (s.artifacts.elim (Path.join home "artifacts") (resolvePath t base))
    remotes := s.remotes.map fun c => { c with root := resolvePath t base c.root }
    deadline := s.deadline
    file := some file }

def unconfigured (around : Surroundings) (user : String) : Config :=
  let home := around.home.getD user
  { home
    artifacts := around.artifacts.getD (Path.join home "artifacts")
    remotes := []
    deadline := none
    file := none }

/-- The configuration that holds in the directory the tree starts from. The nearest file decides:
if it cannot be used, no other is looked for. -/
def load (t : FileTree) (around : Surroundings) : Except ConfigError Config :=
  match around.user with
  | none => .error .noUserDirectory
  | some user =>
    let user := Path.join user directory
    match file? t with
    | none => .ok (unconfigured around user)
    | some file =>
      match t.readText file with
      | .error _ => .error (.unreadable file)
      | .ok text =>
        match Settings.ofText? text with
        | none => .error (.invalid file)
        | some s => .ok (ofSettings t around user file s)

def journal (c : Config) : String := Path.join c.home "work_pool.jsonl"

end Config

end CausalWork
