import ApiDoc.Config

/-! # Command lines

What the program is asked to do, and how its arguments say so. An option takes a value, attached to
it or as the next argument, and is given at most once; no argument stands outside of an option.
-/

namespace ApiDoc

/-- What a generation is told on the command line, ahead of the configuration. -/
structure GenerateOptions where
  input : Option String := none
  version : Option String := none
  output : Option String := none
  format : Option OutputFormat := none
deriving DecidableEq, Repr

/-- What the program is asked to do. -/
inductive Command where
  /-- Write the document of a manifest. -/
  | generate (options : GenerateOptions)
  /-- List the versions. -/
  | versions
  /-- Write a new configuration file; with `force` in the place of an old one. -/
  | init (force : Bool)
  /-- Tell the version of the program. -/
  | version
deriving DecidableEq, Repr

/-- The options that take a value. -/
inductive OptionName where
  | input
  | version
  | output
  | format
deriving DecidableEq, Repr

namespace OptionName

def ofLong? (name : List Char) : Option OptionName :=
  if name = "input".toList then some input
  else if name = "spec-version".toList then some version
  else if name = "output".toList then some output
  else if name = "format".toList then some format
  else none

def ofLetter? (letter : Char) : Option OptionName :=
  if letter = 'i' then some input
  else if letter = 's' then some version
  else if letter = 'o' then some output
  else none

/-- The option an argument names, and the value attached to it: behind an equals sign, or right
behind a letter. -/
def ofArgument? (argument : String) : Option (OptionName × Option String) :=
  match argument.toList with
  | '-' :: '-' :: rest => do
    let name ← ofLong? (rest.takeWhile (· ≠ '='))
    match rest.dropWhile (· ≠ '=') with
    | [] => some (name, none)
    | _ :: value => some (name, some (String.ofList value))
  | '-' :: letter :: rest => do
    let name ← ofLetter? letter
    match rest with
    | [] => some (name, none)
    | '=' :: value => some (name, some (String.ofList value))
    | value => some (name, some (String.ofList value))
  | _ => none

end OptionName

/-- Whether an argument may be the value of the option in front of it. -/
def isValueArgument (argument : String) : Bool :=
  argument == "-" || argument.toList.head? != some '-'

namespace GenerateOptions

/-- Sets an option; none if it is set already or the value does not fit. -/
def set? (options : GenerateOptions) (name : OptionName) (value : String) :
    Option GenerateOptions :=
  match name with
  | .input =>
    if options.input.isSome || value.isEmpty then none
    else some { options with input := some value }
  | .version =>
    if options.version.isSome then none else some { options with version := some value }
  | .output =>
    if options.output.isSome || value.isEmpty then none
    else some { options with output := some value }
  | .format =>
    if options.format.isSome then none
    else (OutputFormat.ofName? value).map fun format => { options with format := some format }

def parse? (options : GenerateOptions) : List String → Option GenerateOptions
  | [] => some options
  | ["--"] => some options
  | argument :: rest =>
    match OptionName.ofArgument? argument, rest with
    | some (name, some value), rest => do parse? (← options.set? name value) rest
    | some (name, none), value :: rest =>
      if isValueArgument value then do parse? (← options.set? name value) rest else none
    | _, _ => none

end GenerateOptions

namespace Command

/-- Reads the arguments of a new configuration file: at most one flag. -/
def force? : List String → Option Bool
  | [] | ["--"] => some false
  | ["--force"] | ["--force", "--"] => some true
  | _ => none

/-- Reads a command line; none if it is malformed. -/
def parse? : List String → Option Command
  | "generate" :: rest => (GenerateOptions.parse? {} rest).map generate
  | "versions" :: rest => if rest = [] ∨ rest = ["--"] then some versions else none
  | "init" :: rest => (force? rest).map init
  | argument :: _ =>
    if argument == "--version" || "-V".toList.isPrefixOf argument.toList then some version
    else none
  | [] => none

end Command

end ApiDoc
