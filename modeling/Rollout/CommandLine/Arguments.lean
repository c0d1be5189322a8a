/-!
The arguments of the program: `plan MANIFEST` with options in any place behind `plan`.
-/

namespace Rollout.CommandLine

/-- What is to be planned. No name of an environment or project stands for all. -/
structure PlanRequest where
  manifest : String
  environments : List String
  projects : List String
deriving DecidableEq, Repr

/-- What the arguments ask for. -/
inductive Request
  | plan (request : PlanRequest)
  | help
  | version
  | misuse
deriving DecidableEq, Repr

/-- An option that takes a value. It may be given any number of times. -/
inductive Selector
  | environment
  | project
deriving DecidableEq, Repr

def Selector.name : Selector → String
  | .environment => "environment"
  | .project => "project"

def Selector.letter : Selector → Char
  | .environment => 'e'
  | .project => 'p'

def selectors : List Selector :=
  [.environment, .project]

/-- The arguments read so far behind `plan`. -/
structure Progress where
  isVerbose : Bool
  manifest : Option String
  environments : List String
  projects : List String
deriving DecidableEq, Repr

namespace Progress

def start : Progress :=
  ⟨false, none, [], []⟩

def select (progress : Progress) (selector : Selector) (name : String) : Progress :=
  match selector with
  | .environment => { progress with environments := progress.environments ++ [name] }
  | .project => { progress with projects := progress.projects ++ [name] }

/-- Takes the one argument that is no option. It must not be empty. -/
def setManifest? (progress : Progress) (manifest : String) : Option Progress :=
  if progress.manifest.isSome || manifest = "" then none
  else some { progress with manifest := some manifest }

def finish (progress : Progress) : Request :=
  match progress.manifest with
  | some manifest => .plan ⟨manifest, progress.environments, progress.projects⟩
  | none => .misuse

end Progress

/-- What an argument leads to: more arguments, the value of an option, or an answer. -/
inductive Reading
  | next (progress : Progress)
  | awaits (progress : Progress) (selector : Selector)
  | answer (request : Request)

/-- Notes that the output is to be verbose, once. -/
def beVerbose (progress : Progress) (next : Progress → Reading) : Reading :=
  if progress.isVerbose then .answer .misuse else next { progress with isVerbose := true }

/-- An option by its full name. Its value may stand behind an equals sign. -/
def longOption (progress : Progress) (text : List Char) : Reading :=
  let name := String.ofList (text.takeWhile (· ≠ '='))
  let value := (text.dropWhile (· ≠ '=')).tail
  let hasValue := text.contains '='
  match selectors.find? (·.name = name) with
  | some selector =>
      if hasValue then .next (progress.select selector (String.ofList value))
      else .awaits progress selector
  | none =>
      if hasValue then .answer .misuse
      else if name = "help" then .answer .help
      else if name = "verbose" then beVerbose progress .next
      else .answer .misuse

/-- Options by their letters. A value may follow its letter at once, or behind an equals sign. -/
def shortOptions (progress : Progress) : List Char → Reading
  | [] => .next progress
  | c :: rest =>
      match selectors.find? (·.letter = c), rest with
      | some selector, [] => .awaits progress selector
      | some selector, '=' :: value => .next (progress.select selector (String.ofList value))
      | some selector, value => .next (progress.select selector (String.ofList value))
      | none, _ =>
          if c = 'h' then .answer .help
          else if c = 'v' then beVerbose progress fun progress => shortOptions progress rest
          else .answer .misuse

/-- One argument behind `plan`. A lone hyphen is no option. -/
def argument (progress : Progress) (text : String) : Reading :=
  match text.toList with
  | '-' :: '-' :: name => longOption progress name
  | '-' :: c :: rest => shortOptions progress (c :: rest)
  | _ =>
      match progress.setManifest? text with
      | some progress => .next progress
      | none => .answer .misuse

def isOption (text : String) : Bool :=
  match text.toList with
  | '-' :: _ :: _ => true
  | _ => false

/-- The arguments behind `--`, none of which is an option. -/
def operands (progress : Progress) : List String → Request
  | [] => progress.finish
  | text :: rest =>
      match progress.setManifest? text with
      | some progress => operands progress rest
      | none => .misuse

/-- The arguments behind `plan`. -/
def planArguments (progress : Progress) : List String → Request
  | [] => progress.finish
  | "--" :: rest => operands progress rest
  | text :: rest =>
      match argument progress text, rest with
      | .next progress, rest => planArguments progress rest
      | .answer request, _ => request
      | .awaits _ _, [] => .misuse
      | .awaits progress selector, value :: rest =>
          -- What looks like an option is never the value of the option before it.
          if isOption value then .misuse else planArguments (progress.select selector value) rest

/-- The letters before any command. -/
def commonLetters (isVerbose : Bool) : List Char → Bool ⊕ Request
  | [] => .inl isVerbose
  | 'h' :: _ => .inr .help
  | 'V' :: _ => .inr .version
  | 'v' :: rest => if isVerbose then .inr .misuse else commonLetters true rest
  | _ => .inr .misuse

/-- All arguments. -/
def arguments (isVerbose : Bool) : List String → Request
  | [] => .misuse
  | "plan" :: rest => planArguments .start rest
  | "help" :: rest => if rest ∈ [[], ["plan"], ["help"]] then .help else .misuse
  | "--help" :: _ => .help
  | "--version" :: _ => .version
  | "--verbose" :: rest => if isVerbose then .misuse else arguments true rest
  | text :: rest =>
      match text.toList with
      | '-' :: c :: letters =>
          match commonLetters isVerbose (c :: letters) with
          | .inl isVerbose => arguments isVerbose rest
          | .inr request => request
      | _ => .misuse

def Request.ofArguments (texts : List String) : Request :=
  arguments false texts

end Rollout.CommandLine
