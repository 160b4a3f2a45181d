import ApiDoc.Config
import ApiDoc.Document.Record
import ApiDoc.Json.Reader
import ApiDoc.Type.Chain
import ApiDoc.Yaml.Reader

/-! # Configuration files

The file a project keeps its configuration in, and how configurations are read. All fields may be
left out and then take their defaults.
-/

namespace ApiDoc

namespace Document

/-- The name of an output format; a record with the name as its only key and nothing under it says
the same. -/
def outputFormat? (document : Document) : Option OutputFormat :=
  match document with
  | record [(text name, null)] => OutputFormat.ofName? name
  | document => document.string?.bind OutputFormat.ofName?

def info? (document : Document) : Option Info := do
  let parts ← document.recordOrList? ["title", "version", "description"]
  let defaults : Info := {}
  some {
    title := ← parts.orDefault? "title" defaults.title string?
    version := ← parts.orDefault? "version" defaults.version string?
    description := ← parts.optional? "description" string? }

def config? (document : Document) : Option Config := do
  let parts ← document.recordOrList? ["input", "output", "format", "target", "info", "host",
    "base_path", "schemes", "consumes", "produces", "param_aliases", "security_schemes"]
  let defaults : Config := {}
  some {
    input := ← parts.orDefault? "input" defaults.input string?
    output := ← parts.orDefault? "output" defaults.output string?
    format := ← parts.orDefault? "format" defaults.format outputFormat?
    target := ← parts.orDefault? "target" defaults.target string?
    info := ← parts.orDefault? "info" defaults.info info?
    host := ← parts.optional? "host" string?
    basePath := ← parts.optional? "base_path" string?
    schemes := ← parts.orDefault? "schemes" [] (listOf? string?)
    consumes := ← parts.orDefault? "consumes" [] (listOf? string?)
    produces := ← parts.orDefault? "produces" [] (listOf? string?)
    paramAliases := ← parts.orDefault? "param_aliases" [] (tableOf? string?)
    securitySchemes := ← parts.orDefault? "security_schemes" [] (tableOf? value?) }

end Document

namespace Config

/-- The name of the file a project keeps its configuration in. -/
def fileName : String := ".routedoc.yaml"

def ofYaml? (text : String) : Option Config :=
  (Yaml.readDocument? text).bind Document.config?

def ofJson? (text : String) : Option Config :=
  (Json.readDocument? text).bind Document.config?

/-- Loads the configuration of a file with some content, by a reader of texts; none if there is no
file. -/
def loadWith (read? : String → Option Config) (path : String) (content : Option ByteArray) :
    Except ConfigError (Option Config) :=
  match content with
  | none => .ok none
  | some bytes =>
    match (String.fromUTF8? bytes).bind read? with
    | some config => .ok (some config)
    | none => .error (.unreadable path)

/-- Loads the configuration of a file with some content in YAML. -/
def load : String → Option ByteArray → Except ConfigError (Option Config) := loadWith ofYaml?

def templateLines : List String := [
  "# routedoc configuration",
  "input: routes.yaml",
  "output: openapi.json    # \"-\" writes to stdout",
  "format: json            # json | yaml",
  "target: \"3.0\"           # 2.0 | 3.0 | 3.1",
  "",
  "info:",
  "  title: API",
  "  version: 0.0.1",
  "  # description: What this API does",
  "",
  "# host: api.example.com",
  "# base_path: /v1",
  "schemes: []",
  "",
  "consumes: []            # defaults to application/json",
  "produces: []",
  "",
  "param_aliases: \x7b\x7d",
  "  # user_id: id         # path variable -> published name",
  "",
  "security_schemes: \x7b\x7d",
  "  # api_key:",
  "  #   type: apiKey",
  "  #   name: X-Api-Key",
  "  #   in: header"]

def template : String := String.join (templateLines.map (· ++ "\n"))

end Config

end ApiDoc
