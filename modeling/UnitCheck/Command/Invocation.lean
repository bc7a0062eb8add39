/-
What a command line asks for.

In front of the name of a command only the settings of the whole program may stand.  A command
line without a command asks for a check with nothing set.  The first problem on the line counts,
and a request for help or for the version counts as soon as it is read.
-/
import UnitCheck.Command.Arguments
import UnitCheck.Output.Format

namespace UnitCheck

/-- What a check is asked for. -/
structure CheckOptions where
  paths : List (List Char) := []
  format : Option Format := none
  strict : Bool := false
  /-- The configuration file. -/
  config : Option (List Char) := none
deriving DecidableEq, Repr

/-- What a list of directives is asked for. -/
structure SchemaOptions where
  /-- The section type; all of them without one. -/
  sectionType : Option (List Char) := none
  /-- The configuration file. -/
  config : Option (List Char) := none
deriving DecidableEq, Repr

/-- A command. -/
inductive Command where
  /-- Check unit files. -/
  | check (options : CheckOptions)
  /-- List section types or directives. -/
  | schema (options : SchemaOptions)
deriving DecidableEq, Repr

/-- A command and how much of the log is wanted. -/
structure Invocation where
  verbosity : Nat
  command : Command
deriving DecidableEq, Repr

/-- Why no command is run. -/
inductive Halt where
  /-- Help was asked for. -/
  | help
  /-- The version was asked for. -/
  | version
  /-- The command line is wrong. -/
  | misuse (problem : Misuse)
deriving DecidableEq, Repr

/-- Set what can be set once. -/
def setOnce {α : Type} (setting : Setting) (old : Option α) (new : α) :
    Except Halt (Option α) :=
  match old with
  | none => .ok (some new)
  | some _ => .error (.misuse (.repeated setting))

/-- A path, which has to have characters. -/
def nonemptyPath (path : List Char) : Except Halt (List Char) :=
  if path.isEmpty then .error (.misuse .emptyPath) else .ok path

/-- The format of a name. -/
def formatOfArgument (name : List Char) : Except Halt Format :=
  match Format.ofName? (String.ofList name) with
  | some format => .ok format
  | none => .error (.misuse (.unfitValue .format name))

/-- The argument has no place here. -/
def unexpectedSetting {α : Type} (setting : Setting) : Except Halt α :=
  .error (.misuse (.unexpected setting.name.toList))

/-! ### The settings of the whole program -/

/-- The settings in front of a command. -/
def commonSettings : List Setting := [.verbose, .help, .version]

/-- Count the requests for more of the log. -/
def countVerbose (verbosity : Nat) : Argument → Except Halt Nat
  | .flag .verbose => .ok (verbosity + 1)
  | .flag .help => .error .help
  | .flag .version => .error .version
  | .flag setting | .value setting _ => unexpectedSetting setting
  | .operand text => .error (.misuse (.unexpected text))
  | .misuse problem => .error (.misuse problem)

/-! ### The settings of commands -/

/-- The settings of a check. -/
def CheckOptions.settings : List Setting := [.verbose, .help, .strict, .format, .config]

/-- What one more argument asks of a check, with the verbosity so far. -/
def CheckOptions.take (state : Nat × CheckOptions) (argument : Argument) :
    Except Halt (Nat × CheckOptions) := do
  let (verbosity, options) := state
  match argument with
  | .flag .strict =>
    if options.strict then throw (.misuse (.repeated .strict))
    return (verbosity, { options with strict := true })
  | .value .format name =>
    let format ← setOnce .format options.format (← formatOfArgument name)
    return (verbosity, { options with format := format })
  | .value .config path =>
    let config ← setOnce .config options.config (← nonemptyPath path)
    return (verbosity, { options with config := config })
  | .operand path =>
    return (verbosity, { options with paths := options.paths ++ [← nonemptyPath path] })
  | argument => return (← countVerbose verbosity argument, options)

/-- The settings of a list of directives. -/
def SchemaOptions.settings : List Setting := [.verbose, .help, .config]

/-- What one more argument asks of a list of directives, with the verbosity so far. -/
def SchemaOptions.take (state : Nat × SchemaOptions) (argument : Argument) :
    Except Halt (Nat × SchemaOptions) := do
  let (verbosity, options) := state
  match argument with
  | .value .config path =>
    let config ← setOnce .config options.config (← nonemptyPath path)
    return (verbosity, { options with config := config })
  | .operand name =>
    match options.sectionType with
    | none => return (verbosity, { options with sectionType := some name })
    | some _ => throw (.misuse (.unexpected name))
  | argument => return (← countVerbose verbosity argument, options)

/-- The configuration file: the one given, else the one of the environment, which must not be
empty then. -/
def configOrVariable (given : Option (List Char)) (configVariable : Option (List Char)) :
    Except Halt (Option (List Char)) :=
  match given, configVariable with
  | some path, _ => .ok (some path)
  | none, some path => (nonemptyPath path).map some
  | none, none => .ok none

namespace Invocation

/-- The verbosity asked for behind a command counts, if there is one. -/
def verbosityOf (before behind : Nat) : Nat :=
  if behind = 0 then before else behind

/-- A check with the arguments behind its name. -/
def ofCheck (configVariable : Option (List Char)) (before : Nat) (rest : List (List Char)) :
    Except Halt Invocation := do
  let (behind, options) ←
    (Argument.read CheckOptions.settings none rest).foldlM CheckOptions.take (0, {})
  let config ← configOrVariable options.config configVariable
  return ⟨verbosityOf before behind, .check { options with config := config }⟩

/-- A list of directives with the arguments behind its name. -/
def ofSchema (configVariable : Option (List Char)) (before : Nat) (rest : List (List Char)) :
    Except Halt Invocation := do
  let (behind, options) ←
    (Argument.read SchemaOptions.settings none rest).foldlM SchemaOptions.take (0, {})
  let config ← configOrVariable options.config configVariable
  return ⟨verbosityOf before behind, .schema { options with config := config }⟩

/-- The names of the commands that help can be asked about. -/
def commandNames : List String := ["check", "schema", "help"]

/-- What is asked for behind the name `help`: at most a command. -/
def helpOn (names : List (List Char)) : Halt :=
  match names with
  | [] => .help
  | name :: more =>
    if !commandNames.contains (String.ofList name) then .misuse (.unexpected name)
    else match more with
      | [] => .help
      | other :: _ => .misuse (.unexpected other)

/-- What the name of a command and the arguments behind it ask for. -/
def ofCommand (configVariable : Option (List Char)) (verbosity : Nat) (name : List Char)
    (rest : List (List Char)) : Except Halt Invocation :=
  match String.ofList name with
  | "check" => ofCheck configVariable verbosity rest
  | "schema" => ofSchema configVariable verbosity rest
  | "help" => .error (helpOn rest)
  | _ => .error (.misuse (.unexpected name))

/-- What arguments ask for, after the given number of requests for more of the log. -/
def ofArguments (configVariable : Option (List Char)) (verbosity : Nat) :
    List (List Char) → Except Halt Invocation
  | [] => .ok ⟨verbosity, .check {}⟩
  | text :: rest =>
    match ArgumentForm.of text with
    | .plain => ofCommand configVariable verbosity text rest
    | .stop =>
      match rest with
      | [] => .ok ⟨verbosity, .check {}⟩
      | next :: _ => .error (.misuse (.unexpected next))
    | .long name value => do
      let verbosity ←
        (Argument.readLong commonSettings name value).1.foldlM countVerbose verbosity
      ofArguments configVariable verbosity rest
    | .short letters => do
      let verbosity ← (Argument.readShort commonSettings letters).1.foldlM countVerbose verbosity
      ofArguments configVariable verbosity rest

end Invocation

end UnitCheck
