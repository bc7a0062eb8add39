/-
The arguments of a command line.

Arguments are read from left to right.  One that begins with a dash gives settings: two dashes
and a name, or one dash and letters, the last of which may be followed by its value.  A value may
also be divided from the name by an equals sign or be the next argument.  Two dashes alone end
the settings.  All other arguments, a single dash among them, are operands.
-/
namespace UnitCheck

/-- A setting of a command line. -/
inductive Setting where
  | verbose
  | help
  | version
  | strict
  | format
  | config
deriving DecidableEq, Repr

namespace Setting

/-- The name of the setting. -/
def name : Setting → String
  | .verbose => "verbose"
  | .help => "help"
  | .version => "version"
  | .strict => "strict"
  | .format => "format"
  | .config => "config"

/-- The letter of the setting. -/
def letter? : Setting → Option Char
  | .verbose => some 'v'
  | .help => some 'h'
  | .version => some 'V'
  | .strict => none
  | .format => some 'f'
  | .config => some 'c'

/-- Does the setting have a value? -/
def hasValue : Setting → Bool
  | .format | .config => true
  | .verbose | .help | .version | .strict => false

end Setting

/-- What is wrong with a command line. -/
inductive Misuse where
  /-- An argument that is no setting, command or operand that is known here. -/
  | unexpected (argument : List Char)
  /-- A setting without its value. -/
  | missingValue (setting : Setting)
  /-- A value of a setting that has none. -/
  | needlessValue (setting : Setting)
  /-- A value that is not one of those a setting can have. -/
  | unfitValue (setting : Setting) (value : List Char)
  /-- A setting that was given before. -/
  | repeated (setting : Setting)
  /-- A path without characters. -/
  | emptyPath
deriving DecidableEq, Repr

/-- The text of the problem. -/
def Misuse.message : Misuse → String
  | .unexpected argument => "unexpected argument '" ++ String.ofList argument ++ "' found"
  | .missingValue setting =>
    "a value is required for '--" ++ setting.name ++ "' but none was supplied"
  | .needlessValue setting => "unexpected value for '--" ++ setting.name ++ "' found"
  | .unfitValue setting value =>
    "invalid value '" ++ String.ofList value ++ "' for '--" ++ setting.name ++ "'"
  | .repeated setting =>
    "the argument '--" ++ setting.name ++ "' cannot be used multiple times"
  | .emptyPath => "a value is required for a path but none was supplied"

/-- What an argument says. -/
inductive Argument where
  /-- A setting without a value. -/
  | flag (setting : Setting)
  /-- A setting with its value. -/
  | value (setting : Setting) (text : List Char)
  | operand (text : List Char)
  /-- Nothing: the arguments cannot be read on. -/
  | misuse (problem : Misuse)
deriving DecidableEq, Repr

/-- The form of an argument. -/
inductive ArgumentForm where
  /-- Two dashes alone. -/
  | stop
  /-- Two dashes and a name, perhaps with an equals sign and a value. -/
  | long (name : List Char) (value : Option (List Char))
  /-- One dash and letters. -/
  | short (letters : List Char)
  | plain
deriving DecidableEq, Repr

/-- The form of an argument. -/
def ArgumentForm.of : List Char → ArgumentForm
  | ['-', '-'] => .stop
  | '-' :: '-' :: text =>
    .long (text.takeWhile (· != '=')) (text.dropWhile (· != '=')).tail?
  | '-' :: c :: text => .short (c :: text)
  | _ => .plain

namespace Argument

/-- What an argument with a name says, and the setting whose value is still owed. -/
def readLong (known : List Setting) (name : List Char) (value : Option (List Char)) :
    List Argument × Option Setting :=
  match known.find? (·.name.toList == name) with
  | none => ([misuse (.unexpected ('-' :: '-' :: name))], none)
  | some setting =>
    if setting.hasValue then
      match value with
      | some text => ([Argument.value setting text], none)
      | none => ([], some setting)
    else
      match value with
      | some _ => ([misuse (.needlessValue setting)], none)
      | none => ([flag setting], none)

/-- What letters say, and the setting whose value is still owed. -/
def readShort (known : List Setting) : List Char → List Argument × Option Setting
  | [] => ([], none)
  | c :: text =>
    match known.find? (·.letter? == some c) with
    | none => ([misuse (.unexpected ['-', c])], none)
    | some setting =>
      if setting.hasValue then
        match text with
        | [] => ([], some setting)
        | '=' :: text => ([value setting text], none)
        | text => ([value setting text], none)
      else
        let (arguments, owed) := readShort known text
        (flag setting :: arguments, owed)

/-- What arguments say, given the settings that are known and the setting whose value comes
next. -/
def read (known : List Setting) : Option Setting → List (List Char) → List Argument
  | none, [] => []
  | some setting, [] => [misuse (.missingValue setting)]
  | owed, text :: rest =>
    match ArgumentForm.of text, owed with
    | .plain, some setting => value setting text :: read known none rest
    | .plain, none => operand text :: read known none rest
    | _, some setting => [misuse (.missingValue setting)]
    | .stop, none => rest.map operand
    | .long name given, none =>
      let (arguments, owed) := readLong known name given
      arguments ++ read known owed rest
    | .short letters, none =>
      let (arguments, owed) := readShort known letters
      arguments ++ read known owed rest

end Argument

end UnitCheck
