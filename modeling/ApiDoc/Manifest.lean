import ApiDoc.Document.Record
import ApiDoc.Json.Reader
import ApiDoc.Route.Descriptor
import ApiDoc.Yaml.Reader

/-! # Manifests

A manifest lists the routes of an application and the entities they refer to, as a JSON or a YAML
text. No two entities of a manifest have one name.
-/

namespace ApiDoc

/-- The routes of an application and their entities. -/
structure Manifest where
  routes : List RouteDescriptor := []
  entities : List Entity := []
deriving Inhabited

/-- Why a text is no manifest. -/
inductive ManifestError where
  | yaml
  | json
  | duplicateEntity (name : String)
deriving DecidableEq, Repr

/-- What is said of a text that is no manifest; of one that cannot be read, only its format. -/
def ManifestError.message : ManifestError → String
  | yaml => "failed to parse YAML"
  | json => "failed to parse JSON"
  | duplicateEntity name => "entity '" ++ name ++ "' is declared more than once"

namespace Document

mutual

/-- A type token: a text in the bracket notation, or a list of types. -/
def typeToken? : Document → Option TypeToken
  | list items _ => (typeTokens? items).map .ofParts
  | document => document.ownString?.map .parse

def typeTokens? : List Document → Option (List TypeToken)
  | [] => some []
  | item :: rest => do some ((← typeToken? item) :: (← typeTokens? rest))

end

def strings? (document : Document) : Option (List String) := document.listOf? string?

def values? (document : Document) : Option (List Json) := document.listOf? value?

def method? (document : Document) : Option Method := document.string?.bind Method.ofName?

/-- A status code: a number of 16 bits or a text. -/
def statusCode? (document : Document) : Option String :=
  let ofValue? : Json → Option String
    | .number (.int code) => if 0 ≤ code ∧ code ≤ 65535 then some (toString code) else none
    | .string code => some code
    | _ => none
  document.value?.bind ofValue?

def statusNumber? (document : Document) : Option Nat := document.natUpTo? 65535

def header? (document : Document) : Option HeaderSpec := do
  let parts ← document.recordOrList? [⟨"description", some "desc"⟩, "type", "required"]
  some {
    description := ← parts.optional? "description" string?
    type := ← parts.optional? "type" typeToken?
    required := ← parts.orDefault? "required" false bool? }

def paramDocumentation? (document : Document) : Option ParamDocumentation := do
  let parts ← document.record? [⟨"param_type", some "in"⟩, "hidden", "collection_format",
    ⟨"desc", some "description"⟩, "example"]
  some {
    location := ← parts.optional? "param_type" string?
    hidden := ← parts.orDefault? "hidden" false bool?
    collectionFormat := ← parts.optional? "collection_format" string?
    description := ← parts.optional? "desc" string?
    exampleValue := ← parts.optional? "example" value?
    extra := ← parts.extra? }

def param? (document : Document) : Option ParamSpec := do
  let parts ← document.recordOrList? ["type", "required", ⟨"desc", some "description"⟩, "default",
    "values", "documentation"]
  some {
    type := ← parts.optional? "type" typeToken?
    required := ← parts.optional? "required" bool?
    summary := ← parts.optional? "desc" string?
    defaultValue := ← parts.optional? "default" value?
    values := ← parts.orDefault? "values" [] values?
    documentation := ← parts.orDefault? "documentation" {} paramDocumentation? }

def response? (document : Document) : Option ResponseSpec := do
  let parts ← document.record? ["code", "message", "model", "is_array", "headers", "examples"]
  some {
    code := ← parts.required? "code" statusCode?
    message := ← parts.optional? "message" string?
    model := ← parts.optional? "model" typeToken?
    isArray := ← parts.orDefault? "is_array" false bool?
    headers := ← parts.orDefault? "headers" [] (tableOf? header?)
    examples := ← parts.optional? "examples" value?
    extra := ← parts.extra? }

def route? (document : Document) : Option RouteDescriptor := do
  let parts ← document.record? ["path", "method", "params", "headers", "entity", "is_array",
    "default_status", "success_message", "responses", "summary", "description",
    "body_description", "tags", "deprecated", "hidden", "security", "operation_id", "consumes",
    "produces"]
  some {
    path := ← parts.required? "path" string?
    method := ← parts.required? "method" method?
    params := ← parts.orDefault? "params" [] (tableOf? param?)
    headers := ← parts.orDefault? "headers" [] (tableOf? header?)
    entity := ← parts.optional? "entity" typeToken?
    isArray := ← parts.orDefault? "is_array" false bool?
    defaultStatus := ← parts.optional? "default_status" statusNumber?
    successMessage := ← parts.optional? "success_message" string?
    responses := ← parts.orDefault? "responses" [] (listOf? response?)
    summary := ← parts.optional? "summary" string?
    description := ← parts.optional? "description" string?
    bodyDescription := ← parts.optional? "body_description" string?
    tags := ← parts.orDefault? "tags" [] strings?
    deprecated := ← parts.orDefault? "deprecated" false bool?
    hidden := ← parts.orDefault? "hidden" false bool?
    security := ← parts.orDefault? "security" [] (listOf? (tableOf? strings?))
    operationId := ← parts.optional? "operation_id" string?
    consumes := ← parts.orDefault? "consumes" [] strings?
    produces := ← parts.orDefault? "produces" [] strings?
    extra := ← parts.extra? }

def fieldDocumentation? (document : Document) : Option FieldDocumentation := do
  let parts ← document.record? ["type", ⟨"desc", some "description"⟩, "required", "is_array",
    "nullable", "values", "example", "default", "format"]
  some {
    type := ← parts.optional? "type" typeToken?
    description := ← parts.optional? "desc" string?
    required := ← parts.orDefault? "required" false bool?
    isArray := ← parts.orDefault? "is_array" false bool?
    nullable := ← parts.orDefault? "nullable" false bool?
    values := ← parts.orDefault? "values" [] values?
    exampleValue := ← parts.optional? "example" value?
    defaultValue := ← parts.optional? "default" value?
    format := ← parts.optional? "format" string?
    extra := ← parts.extra? }

/-- A field whose nested fields are at most `levels` levels deep. -/
def fieldWithin? : Nat → Document → Option Field
  | 0, _ => none
  | levels + 1, document => do
    let parts ← document.recordOrList? ["name", "as", "type", "using", "is_array", "merge", "if",
      "documentation", "nested"]
    some {
      name := ← parts.required? "name" string?
      outputKey := ← parts.optional? "as" string?
      type := ← parts.optional? "type" typeToken?
      presenter := ← parts.optional? "using" string?
      isArray := ← parts.orDefault? "is_array" false bool?
      merge := ← parts.orDefault? "merge" false bool?
      condition := ← parts.optional? "if" string?
      documentation := ← parts.orDefault? "documentation" {} fieldDocumentation?
      nested := ← parts.orDefault? "nested" [] (listOf? (fieldWithin? levels)) }

def field? (document : Document) : Option Field := fieldWithin? (document.height + 1) document

def entity? (document : Document) : Option Entity := do
  let parts ← document.recordOrList? ["name", "fields"]
  some {
    name := ← parts.required? "name" string?
    fields := ← parts.orDefault? "fields" [] (listOf? field?) }

/-- A manifest, its entities not yet compared. -/
def manifest? (document : Document) : Option Manifest := do
  let parts ← document.recordOrList? ["routes", "entities"]
  some {
    routes := ← parts.orDefault? "routes" [] (listOf? route?)
    entities := ← parts.orDefault? "entities" [] (listOf? entity?) }

end Document

namespace Manifest

/-- The first name that occurred before it, given the names `seen` so far. -/
def firstRepeated? (seen : List String) : List String → Option String
  | [] => none
  | name :: rest => if name ∈ seen then some name else firstRepeated? (name :: seen) rest

/-- The manifest itself if its entities have distinct names. -/
def validate (manifest : Manifest) : Except ManifestError Manifest :=
  match firstRepeated? [] (manifest.entities.map Entity.name) with
  | some name => .error (.duplicateEntity name)
  | none => .ok manifest

/-- Reads a text with a reader for one format; `error` stands for what it cannot read. -/
def load (read? : String → Option Manifest) (error : ManifestError) (text : String) :
    Except ManifestError Manifest :=
  match read? text with
  | some manifest => manifest.validate
  | none => .error error

/-- How manifests are read. -/
structure Readers where
  json? : String → Option Manifest
  yaml? : String → Option Manifest

def Readers.fromJson (readers : Readers) : String → Except ManifestError Manifest :=
  load readers.json? .json

def Readers.fromYaml (readers : Readers) : String → Except ManifestError Manifest :=
  load readers.yaml? .yaml

def readers : Readers where
  json? text := (Json.readDocument? text).bind Document.manifest?
  yaml? text := (Yaml.readDocument? text).bind Document.manifest?

def ofJson : String → Except ManifestError Manifest := readers.fromJson

def ofYaml : String → Except ManifestError Manifest := readers.fromYaml

end Manifest

end ApiDoc
