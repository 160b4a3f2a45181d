import ApiDoc.CommandLine
import ApiDoc.Config.File
import ApiDoc.Files
import ApiDoc.Generator
import ApiDoc.Json.Printer
import ApiDoc.Yaml.Printer

/-! # Commands

What the program does for each command. All reading comes before all writing, so that a command
which fails before its document is complete leaves the files alone; and it writes one file at most.
Commands work on anything that files can be read from and written to, of which a file tree held in
memory is one.
-/

namespace ApiDoc

/-- How files are reached. -/
structure FileAccess (m : Type → Type) where
  /-- Whether anything is at a path. -/
  present : String → m Bool
  /-- The content of a file; none if it cannot be read. -/
  read? : String → m (Option ByteArray)
  /-- Makes a directory and those that lead to it; answers whether it is there then. -/
  makeDirectory : String → m Bool
  /-- Writes a file; answers whether that worked. -/
  write : String → ByteArray → m Bool

def Files.access : FileAccess (StateM Files) where
  present path := return (← get).present path
  read? path := return (← get).read? path
  makeDirectory path := return (← get).canMakeDirectory path
  write path content := do
    match (← get).write? path content with
    | some files =>
      set files
      return true
    | none => return false

/-- Why a command failed. -/
inductive CommandError where
  | configuration
  | unreadable (path : String)
  | manifest (path : String) (error : ManifestError)
  | generation (version : String) (error : GenerateError)
  | directory (path : String)
  | unwritable (path : String)
  | configurationPresent
  | configurationUnwritable
deriving DecidableEq, Repr

namespace CommandError

def message : CommandError → String
  | configuration => "failed to load " ++ Config.fileName
  | unreadable path => "failed to read " ++ path
  | manifest path _ => "invalid manifest " ++ path
  | generation version _ => "failed to generate OpenAPI " ++ version ++ " document"
  | directory path => "failed to create directory " ++ path
  | unwritable path => "failed to write " ++ path
  | configurationPresent => Config.fileName ++ " already exists. Use --force to overwrite."
  | configurationUnwritable => "Is a directory (os error 21)"

/-- What made it fail, the nearest cause first; causes that lie outside of the program are left
out. -/
def causes : CommandError → List String
  | manifest _ error => [error.message]
  | generation _ error => [error.message, error.causeMessage]
  | _ => []

/-- A text behind `first`, its further lines behind `further`. -/
def indentLines (first further text : String) : String :=
  first ++ String.ofList (text.toList.flatMap fun c =>
    if c = '\n' then '\n' :: further.toList else [c])

/-- The list of causes, numbered if there are several. -/
def causeLines : List String → String
  | [] => ""
  | [cause] => "\n\nCaused by:\n" ++ indentLines "    " "    " cause
  | causes =>
    let numbered (cause : String × Nat) : String :=
      let number := toString cause.2
      indentLines ("\n" ++ String.ofList (List.replicate (5 - number.length) ' ') ++ number ++ ": ")
        "       " cause.1
    "\n\nCaused by:" ++ String.join (causes.zipIdx.map numbered)

def report (error : CommandError) : String :=
  "Error: " ++ error.message ++ causeLines error.causes ++ "\n"

end CommandError

/-- What a command tells. -/
structure Report where
  stdout : String := ""
  stderr : String := ""
deriving DecidableEq, Repr

/-- What a generation works with: the command line, and where that is silent the configuration. -/
structure Settings where
  config : Config
  input : String
  output : String
  version : String
  format : OutputFormat

def Settings.of (options : GenerateOptions) (config : Config) : Settings where
  config := config
  input := options.input.getD config.input
  output := options.output.getD config.output
  version := options.version.getD config.target
  format := options.format.getD config.format

/-- How the texts that the program deals with are read and written. -/
structure Codecs where
  command? : List String → Option Command
  config? : String → Option Config
  manifests : Manifest.Readers
  /-- The JSON text of a document, without a line end. -/
  json : Json → String
  yaml : Json → String

def Codecs.own : Codecs where
  command? := Command.parse?
  config? := Config.ofYaml?
  manifests := Manifest.readers
  json := Json.pretty
  yaml := Yaml.render

def Codecs.render (codecs : Codecs) (format : OutputFormat) (document : Json) : String :=
  match format with
  | .json => codecs.json document ++ "\n"
  | .yaml => codecs.yaml document

/-- Reads a manifest as what the extension of its path says. -/
def Manifest.Readers.fromFile (readers : Readers) (path text : String) : Except ManifestError Manifest :=
  if Path.extension? path == some "json" then readers.fromJson text else readers.fromYaml text

namespace Settings

/-- The text a generation writes, from the content of the manifest. -/
def document (settings : Settings) (codecs : Codecs) (content : Option ByteArray) :
    Except CommandError String := do
  let text ←
    match content.bind String.fromUTF8? with
    | some text => pure text
    | none => throw (.unreadable settings.input)
  let manifest ← (codecs.manifests.fromFile settings.input text).mapError (.manifest settings.input)
  let (generator, manifest) := Generator.registerEntities { config := settings.config } manifest
  let document ←
    (generator.generate manifest.routes settings.version).mapError (.generation settings.version)
  return codecs.render settings.format document

end Settings

namespace Command

variable {m : Type → Type} [Monad m] (codecs : Codecs) (access : FileAccess m)

/-- The configuration of the working directory, which may have none. -/
def loadConfig : ExceptT CommandError m Config := do
  if ← access.present Config.fileName then
    let content ← access.read? Config.fileName
    match content.map fun bytes => Config.loadWith codecs.config? Config.fileName (some bytes) with
    | some (.ok config) => return config.getD {}
    | _ => throw .configuration
  else return {}

def writeDocument (settings : Settings) (text : String) : ExceptT CommandError m Report := do
  if settings.output == "-" then return { stdout := text }
  if let some directory := Path.directory? settings.output then
    unless ← access.makeDirectory directory do throw (.directory directory)
  unless ← access.write settings.output text.toUTF8 do throw (.unwritable settings.output)
  return { stderr := "Wrote " ++ settings.output ++ " (OpenAPI " ++ settings.version ++ ")\n" }

def runGenerate (options : GenerateOptions) : ExceptT CommandError m Report := do
  let settings := Settings.of options (← loadConfig codecs access)
  let text ← ExceptT.mk (return settings.document codecs (← access.read? settings.input))
  writeDocument access settings text

def versionLines : String :=
  String.join (Exporters.builtIn.map fun (tag, dialect) => tag ++ "\t" ++ dialect.version ++ "\n")

def runInit (force : Bool) : ExceptT CommandError m Report := do
  if (← access.present Config.fileName) && !force then throw .configurationPresent
  unless ← access.write Config.fileName Config.template.toUTF8 do throw .configurationUnwritable
  return { stderr := "Created " ++ Config.fileName ++ "\n" }

def run : Command → ExceptT CommandError m Report
  | generate options => runGenerate codecs access options
  | versions => return { stdout := versionLines }
  | init force => runInit access force
  | version => return { stdout := "routedoc 0.3.0\n" }

/-- What the program ends with. -/
structure Answer where
  /-- The exit code: 0 if all went well, 1 for a failure, 2 for a malformed command line. -/
  code : Nat
  stdout : String := ""
  stderr : String := ""
deriving DecidableEq, Repr

def usage : String := "Usage: routedoc generate | versions | init | --version\n"

def respondWith (arguments : List String) : m Answer := do
  match codecs.command? arguments with
  | none => return { code := 2, stderr := usage }
  | some command =>
    match ← (run codecs access command).run with
    | .ok report => return { code := 0, stdout := report.stdout, stderr := report.stderr }
    | .error error => return { code := 1, stderr := error.report }

/-- Runs a command line with the readers and the printers of this library. -/
def respond : List String → m Answer := respondWith .own access

end Command

end ApiDoc
