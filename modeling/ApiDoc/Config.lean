import ApiDoc.Document

/-! # Configuration

What a generator is told besides the routes: where to read and write, which version to aim at, and
what the document says about the interface as a whole. Every part has a default.
-/

namespace ApiDoc

/-- The text format of a written document. -/
inductive OutputFormat where
  | json
  | yaml
deriving DecidableEq, Repr

def OutputFormat.name : OutputFormat → String
  | json => "json"
  | yaml => "yaml"

def OutputFormat.ofName? (name : String) : Option OutputFormat :=
  [OutputFormat.json, .yaml].find? (·.name == name)

/-- What the document says about the interface. -/
structure Info where
  title : String := "API"
  version : String := "0.0.1"
  description : Option String := none
deriving DecidableEq, Repr

/-- The configuration of a generator. -/
structure Config where
  /-- The manifest to read. -/
  input : String := "routes.yaml"
  /-- The document to write; `-` is the standard output. -/
  output : String := "openapi.json"
  format : OutputFormat := .json
  /-- The version the document is written for. -/
  target : String := "3.0"
  info : Info := {}
  host : Option String := none
  basePath : Option String := none
  schemes : List String := []
  /-- The request media types of routes that declare none. -/
  consumes : List String := []
  /-- The response media types of routes that declare none. -/
  produces : List String := []
  /-- The published names of path variables. -/
  paramAliases : Table String String := []
  /-- Security schemes, which documents show as they are. -/
  securitySchemes : Table String Json := []

end ApiDoc
