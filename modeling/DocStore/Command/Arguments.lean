/-!
# Command line arguments

Arguments are read from left to right and the first one that decides does so: a
request for help or the version, or an argument that is not understood. Options
take their value behind an equals sign or from the next argument, which must not
look like an option, and none may be given twice.
-/

set_option autoImplicit false

namespace DocStore

inductive Command where
  | compile (config : String) (query : Option String)
  | run (config : String) (query : Option String)
  | get (config path : String)
  deriving DecidableEq

structure Invocation where
  logLevel : String
  command : Command
  deriving DecidableEq

inductive CommandLine where
  | help
  | version
  | invalid
  | invoke (invocation : Invocation)
  deriving DecidableEq

namespace CommandLine

inductive Verb where
  | compile
  | run
  | get
  deriving DecidableEq

def Verb.ofName? (name : String) : Option Verb :=
  if name = "compile" then some .compile
  else if name = "run" then some .run
  else if name = "get" then some .get
  else none

inductive Form where
  | escape
  | long (name : String) (value : Option String)
  | short (letter : Char)
  | word
  deriving DecidableEq

def formOf (arg : String) : Form :=
  match arg.toList with
  | ['-', '-'] => .escape
  | '-' :: '-' :: rest =>
    match rest.dropWhile (· ≠ '=') with
    | [] => .long (String.ofList rest) none
    | _ :: value => .long (String.ofList (rest.takeWhile (· ≠ '='))) (some (String.ofList value))
  | '-' :: letter :: _ => .short letter
  | _ => .word

structure Given where
  logLevel : Option String := none
  config : Option String := none
  query : Option String := none
  path : Option String := none

def defaultLogLevel : String := "warn"

def defaultConfig : String := "./firestore.json"

def Given.set? (g : Given) (verb : Verb) (name value : String) : Option Given :=
  if name = "log-level" ∧ g.logLevel = none then some { g with logLevel := some value }
  else if name = "config" ∧ g.config = none ∧ value ≠ "" then some { g with config := some value }
  else if name = "query" ∧ verb ≠ .get ∧ g.query = none ∧ value ≠ "" then
    some { g with query := some value }
  else none

def Given.setPath? (g : Given) (verb : Verb) (word : String) : Option Given :=
  if verb = .get ∧ g.path = none then some { g with path := some word } else none

def Given.finish (g : Given) (verb : Verb) (outer : Option String) : CommandLine :=
  let level := (g.logLevel.or outer).getD defaultLogLevel
  let config := g.config.getD defaultConfig
  match verb, g.path with
  | .compile, _ => .invoke ⟨level, .compile config g.query⟩
  | .run, _ => .invoke ⟨level, .run config g.query⟩
  | .get, some path => .invoke ⟨level, .get config path⟩
  | .get, none => .invalid

def readWords (verb : Verb) (outer : Option String) (g : Given) : List String → CommandLine
  | [] => g.finish verb outer
  | word :: rest =>
    match g.setPath? verb word with
    | some g => readWords verb outer g rest
    | none => .invalid

def readCommand (verb : Verb) (outer : Option String) (g : Given) : List String → CommandLine
  | [] => g.finish verb outer
  | arg :: rest =>
    match formOf arg with
    | .escape => readWords verb outer g rest
    | .short letter => if letter = 'h' then .help else .invalid
    | .word =>
      match g.setPath? verb arg with
      | some g => readCommand verb outer g rest
      | none => .invalid
    | .long name (some value) =>
      match g.set? verb name value with
      | some g => readCommand verb outer g rest
      | none => .invalid
    | .long name none =>
      if name = "help" then .help
      else match rest with
        | [] => .invalid
        | value :: rest =>
          if formOf value = .word then
            match g.set? verb name value with
            | some g => readCommand verb outer g rest
            | none => .invalid
          else .invalid

def readHelp : List String → CommandLine
  | [] => .help
  | [word] => if (Verb.ofName? word).isSome ∨ word = "help" then .help else .invalid
  | _ => .invalid

def readFrom (level : Option String) : List String → CommandLine
  | [] => .invalid
  | arg :: rest =>
    match formOf arg with
    | .escape => .invalid
    | .short letter =>
      if letter = 'h' then .help else if letter = 'V' then .version else .invalid
    | .word =>
      match Verb.ofName? arg with
      | some verb => readCommand verb level {} rest
      | none => if arg = "help" then readHelp rest else .invalid
    | .long name (some value) =>
      if name = "log-level" ∧ level = none then readFrom (some value) rest else .invalid
    | .long name none =>
      if name = "help" then .help
      else if name = "version" then .version
      else match rest with
        | [] => .invalid
        | value :: rest =>
          if name = "log-level" ∧ level = none ∧ formOf value = .word then
            readFrom (some value) rest
          else .invalid

def read (args : List String) : CommandLine := readFrom none args

end CommandLine

end DocStore
