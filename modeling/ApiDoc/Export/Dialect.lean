import ApiDoc.Api

/-! # Document versions

The dialects of the document format: 2.0, 3.0 and 3.1. They differ in the head of the document,
in where definitions live and how they are referred to, in how nullable and file schemas look, and
in the shape of parameters, bodies and responses. 3.0 and 3.1 differ only in their version and in
how nullable is written.
-/

namespace ApiDoc

/-- A version of the document format. -/
inductive Dialect where
  | v20
  | v30
  | v31
deriving DecidableEq, Repr

namespace Dialect

open Json

def version : Dialect → String
  | v20 => "2.0"
  | v30 => "3.0.3"
  | v31 => "3.1.0"

/-- What stands before the name of a definition in a reference. -/
def refBase : Dialect → String
  | v20 => "#/definitions/"
  | v30 | v31 => "#/components/schemas/"

/-- Whether a document can show alternatives; otherwise it shows the first one. -/
def supportsOneOf : Dialect → Bool
  | v20 => false
  | v30 | v31 => true

def fileSchema : Dialect → Fields
  | v20 => [("type", string "file")]
  | v30 | v31 => [("type", string "string"), ("format", string "binary")]

def nullSchema : Json := object [("type", string "null")]

/-- A schema without alternatives and without type names, or null. -/
def orNull (schema : Fields) : Fields := [("oneOf", array [object schema, nullSchema])]

/-- A nullable schema in 3.1: null joins the alternatives or the type names, otherwise it is an
alternative to the whole schema. -/
def nullable31 (schema : Fields) : Fields :=
  match schema.get? "oneOf" with
  | some (array variants) => schema.insert "oneOf" (array (variants ++ [nullSchema]))
  | _ =>
    match schema.get? "type" with
    | some (string name) => schema.insert "type" (array [string name, string "null"])
    | some (array types) =>
      if types.any (·.isString "null") then schema
      else schema.insert "type" (array (types ++ [string "null"]))
    | _ => orNull schema

/-- A nullable schema in 3.0, where what stands beside a reference is ignored. -/
def nullable30 (schema : Fields) : Fields :=
  let schema : Fields :=
    if schema.contains "$ref" then [("allOf", array [object schema])] else schema
  schema.insert "nullable" (bool true)

/-- Marks a rendered schema, perhaps a reference, as nullable. -/
def nullable (dialect : Dialect) (schema : Fields) : Fields :=
  match dialect with
  | v20 => schema.insert "x-nullable" (bool true)
  | v30 => nullable30 schema
  | v31 => nullable31 schema

def infoBlock (api : Api) : Json :=
  let info : Fields := [("title", string api.title)]
  let info := info.insertSome "description" (api.description.map string)
  object (info.insert "version" (string api.version))

def serverUrls (api : Api) : List String :=
  let basePath := api.basePath.getD ""
  match api.host with
  | some host =>
    if api.schemes.isEmpty then ["https://" ++ host ++ basePath]
    else api.schemes.map fun scheme => scheme ++ "://" ++ host ++ basePath
  | none => if basePath.isEmpty then [] else [basePath]

/-- Writes a list under a key unless it is empty. -/
def insertList (fields : Fields) (key : String) (items : List Json) : Fields :=
  if items.isEmpty then fields else fields.insert key (array items)

/-- Writes an object under a key unless it is empty. -/
def insertObject (fields : Fields) (key : String) (value : Fields) : Fields :=
  if value.isEmpty then fields else fields.insert key (object value)

def head (dialect : Dialect) (api : Api) : Fields :=
  match dialect with
  | v20 =>
    let head : Fields := [("swagger", string dialect.version), ("info", infoBlock api)]
    let head := head.insertSome "host" (api.host.map string)
    let head := head.insertSome "basePath" (api.basePath.map string)
    insertList head "schemes" (api.schemes.map string)
  | v30 | v31 =>
    let head : Fields := [("openapi", string dialect.version), ("info", infoBlock api)]
    insertList head "servers" ((serverUrls api).map fun url => object [("url", string url)])

/-- Ends a document with its definitions and its security schemes. -/
def finish (dialect : Dialect) (document definitions securitySchemes : Fields) : Fields :=
  match dialect with
  | v20 =>
    insertObject (insertObject document "definitions" definitions) "securityDefinitions"
      securitySchemes
  | v30 | v31 =>
    insertObject document "components"
      (insertObject (insertObject [] "schemas" definitions) "securitySchemes" securitySchemes)

/-- How a collection format is said in 3.0 and 3.1: a style, and whether values are repeated. -/
def styleOf : CollectionFormat → String × Bool
  | .csv | .tsv => ("form", false)
  | .ssv => ("spaceDelimited", false)
  | .pipes => ("pipeDelimited", false)
  | .multi => ("form", true)

/-- A parameter with its rendered schema; none if the document has no place for it. -/
def parameter? (dialect : Dialect) (parameter : Parameter) (schema : Json) : Option Fields :=
  let start : Fields :=
    [("name", string parameter.name), ("in", string parameter.location.name)]
  let start := start.insertSome "description" (parameter.description.map string)
  let start := start.insert "required" (bool parameter.required)
  let start := start.insert "schema" schema
  match dialect with
  | v20 =>
    let format := parameter.collectionFormat.map fun format => string format.name
    some ((start.insertSome "collectionFormat" format).insertSome "x-example"
      parameter.exampleValue)
  | v30 | v31 =>
    if parameter.location = .body then none
    else
      let styled :=
        match parameter.collectionFormat with
        | none => start
        | some format =>
          (start.insert "style" (string (styleOf format).1)).insert "explode"
            (bool (styleOf format).2)
      some (styled.insertSome "example" parameter.exampleValue)

/-- One content type of a body with its rendered schema. -/
structure RenderedMedia where
  mime : String
  schema : Json
  exampleValue : Option Json

/-- Where a request body goes. -/
inductive BodyPlacement where
  /-- Behind the parameters of the operation. -/
  | parameters (parameters : List Json)
  /-- Into a place of its own. -/
  | requestBody (body : Json)

def mediaObject (schema : Json) (exampleValue : Option Json) : Json :=
  let start : Fields := [("schema", schema)]
  object (start.insertSome "example" exampleValue)

/-- Writes the fields of a rendered schema into `fields`. -/
def flattenInto (fields : Fields) (schema : Json) : Fields :=
  match schema with
  | object more => fields.extend more
  | _ => fields

def isFormMime (mime : String) : Bool :=
  mime == "multipart/form-data" || mime == "application/x-www-form-urlencoded"

def hasFileProperty (schema : Json) : Bool :=
  match (schema.field? "properties").bind Json.fields? with
  | some properties =>
    properties.values.any fun property =>
      ((property.field? "type").map (·.isString "file")).getD false
  | none => false

def requiredNames (schema : Json) : List String :=
  match (schema.field? "required").bind Json.items? with
  | some names => names.filterMap Json.string?
  | none => []

/-- A form parameter for each top-level property of a rendered body. -/
def formParameters (schema : Json) : List Json :=
  match (schema.field? "properties").bind Json.fields? with
  | none => []
  | some properties =>
    properties.map fun (name, property) =>
      let start : Fields :=
        [("name", string name), ("in", string "formData"),
          ("required", bool ((requiredNames schema).contains name))]
      object (flattenInto start property)

/-- Places a request body with its rendered contents. -/
def requestBody (dialect : Dialect) (body : RequestBody) (content : List RenderedMedia) :
    BodyPlacement :=
  match dialect with
  | v20 =>
    match content with
    | [] => .parameters []
    | media :: _ =>
      if isFormMime media.mime || hasFileProperty media.schema then
        .parameters (formParameters media.schema)
      else
        let start : Fields := [("name", string "body"), ("in", string "body")]
        let start := start.insertSome "description" (body.description.map string)
        .parameters
          [object ((start.insert "required" (bool body.required)).insert "schema" media.schema)]
  | v30 | v31 =>
    let entries := content.map fun media =>
      (media.mime, mediaObject media.schema media.exampleValue)
    let start : Fields := Table.insertSome [] "description" (body.description.map string)
    let start := start.insert "content" (object (Table.ofEntries entries))
    .requestBody (object (if body.required then start.insert "required" (bool true) else start))

/-- A response header with its rendered schema. -/
structure RenderedHeader where
  description : Option String
  schema : Json

def headerObject (dialect : Dialect) (header : RenderedHeader) : Json :=
  let start : Fields := Table.insertSome [] "description" (header.description.map string)
  match dialect with
  | v20 => object (flattenInto start header.schema)
  | v30 | v31 => object (start.insert "schema" header.schema)

/-- A response with its rendered parts. `produces` are the media types it comes in. -/
def response (dialect : Dialect) (response : Response) (schema : Option Json)
    (headers : List (String × RenderedHeader)) (produces : List String) : Fields :=
  let start : Fields := [("description", string response.description)]
  let headerFields : Fields :=
    Table.ofEntries (headers.map fun (name, header) => (name, dialect.headerObject header))
  match dialect with
  | v20 =>
    let start := start.insertSome "schema" schema
    let start := insertObject start "headers" headerFields
    match response.examples, produces with
    | some examples, mime :: _ => start.insert "examples" (object [(mime, examples)])
    | _, _ => start
  | v30 | v31 =>
    let start := insertObject start "headers" headerFields
    if schema.isSome || response.examples.isSome then
      let entries := produces.map fun mime =>
        (mime, mediaObject (schema.getD (object [])) response.examples)
      start.insert "content" (object (Table.ofEntries entries))
    else start

/-- Writes the media types of an operation, where the version has them there. -/
def operationMedia (dialect : Dialect) (operation : Operation) (fields : Fields) : Fields :=
  match dialect with
  | v20 =>
    insertList (insertList fields "consumes" (operation.consumes.map string)) "produces"
      (operation.produces.map string)
  | v30 | v31 => fields

end Dialect

end ApiDoc
