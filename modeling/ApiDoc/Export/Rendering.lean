import ApiDoc.Export.Dialect

/-! # Rendering documents

One walk over the description of an interface renders every version. A schema with a canonical
name is rendered as a reference; its definition is rendered the first time the name is met, and
its place is reserved before that, so that a definition may refer to itself. A definition comes
from the table of the interface, or else from the schema at the place of use. Names that no path
reaches are defined last.

The walk goes into schemas by recursion on them. Going into a definition of the table is left to
the walk one level deeper; names already reserved are never entered again, so as many levels as
the table has definitions are enough.
-/

namespace ApiDoc

/-- Why an interface has no document. -/
inductive ExportError where
  /-- Two canonical names have one sanitized form. -/
  | nameCollision (sanitized first second : String)
  /-- A reference leads nowhere. -/
  | missingDefinition (name : String)
deriving DecidableEq, Repr

def ExportError.message : ExportError → String
  | nameCollision sanitized first second =>
    "definition name collision: '" ++ first ++ "' and '" ++ second ++ "' both export as '" ++
      sanitized ++ "'"
  | missingDefinition name => "reference to '" ++ name ++ "' has no definition"

namespace Export

open Json

def isNameChar (c : Char) : Bool := c.isAlphanum || c == '.' || c == '_' || c == '-'

/-- The name of a definition with every `::` and every other foreign character made `_`. -/
def sanitizeChars : List Char → List Char
  | ':' :: ':' :: rest => '_' :: sanitizeChars rest
  | c :: rest => (if isNameChar c then c else '_') :: sanitizeChars rest
  | [] => []

/-- The name under which a canonical name is defined. -/
def sanitize (name : String) : String := String.ofList (sanitizeChars name.toList)

/-- What the walk has defined so far. -/
structure State where
  /-- The canonical names met, under their sanitized forms. -/
  names : Table String String := []
  /-- The definitions rendered; a reserved place holds null. -/
  definitions : Fields := []

abbrev Render := StateT State (Except ExportError)

def fail {α : Type} (error : ExportError) : Render α := throw error

/-- Reserves the place of a canonical name; answers its sanitized form and whether it is new. -/
def reserve (name : String) : Render (String × Bool) := do
  let sanitized := sanitize name
  let state ← get
  match state.names.get? sanitized with
  | some owner =>
    if owner = name then return (sanitized, false)
    else fail (.nameCollision sanitized owner name)
  | none =>
    set ({ names := state.names.insert sanitized name,
           definitions := state.definitions.insert sanitized null } : State)
    return (sanitized, true)

def define (sanitized : String) (body : Fields) : Render Unit :=
  modify fun state =>
    { state with definitions := state.definitions.insert sanitized (object body) }

/-- Marks a rendered schema as nullable if the schema is, and writes its extensions. -/
def decorate (dialect : Dialect) (schema : Schema) (rendered : Fields) : Fields :=
  Table.extend (if schema.nullable then dialect.nullable rendered else rendered)
    schema.extensions

/-- The rendered definitions of the table, one level deeper: none for names the table lacks. -/
abbrev Definitions := String → Option (Render Fields)

/-- A reference to `name` from the place `site`. The first time, the definition is rendered: the
one of the table, otherwise `body`, the rendered content of the site. -/
def reference (dialect : Dialect) (table : Definitions) (name : String) (site : Schema)
    (body : Render Fields) : Render Json := do
  let (sanitized, fresh) ← reserve name
  if fresh then
    match table name with
    | some definition => define sanitized (← definition)
    | none =>
      if site.isStub then fail (.missingDefinition name)
      define sanitized (← body)
  return object (decorate dialect site [("$ref", string (dialect.refBase ++ sanitized))])

/-- A schema at a place of use: a reference if it has a canonical name, otherwise `body`, its
rendered content. -/
def useSite (dialect : Dialect) (table : Definitions) (site : Schema) (body : Render Fields) :
    Render Json :=
  match site.canonicalName with
  | some name => reference dialect table name site body
  | none => do return object (decorate dialect site (← body))

def typeFields (dialect : Dialect) (schema : Schema) : Fields :=
  match schema.type with
  | some .file => dialect.fileSchema
  | some type =>
    let start : Fields := [("type", string type.name)]
    start.insertSome "format" (schema.format.map string)
  | none => []

/-- The fields a schema starts with: those of its alternatives if it has any. Where alternatives
cannot be shown, `first` is the rendered first one. -/
def startFields (dialect : Dialect) (schema : Schema) (first : Render Json)
    (variants : Render (List Json)) : Render Fields :=
  if schema.oneOf.isEmpty then return typeFields dialect schema
  else if dialect.supportsOneOf then do return [("oneOf", array (← variants))]
  else do return ((← first).fields?).getD []

/-- The content of a schema, from its rendered parts. -/
def assemble (schema : Schema) (start : Render Fields) (properties : Render Fields)
    (items : Render Json) : Render Fields := do
  let fields := (← start).insertSome "description" (schema.description.map string)
  let fields ←
    if schema.properties.isEmpty then pure fields
    else do pure (fields.insert "properties" (object (← properties)))
  let fields :=
    if schema.required.isEmpty then fields
    else fields.insert "required" (strings schema.required)
  let fields ←
    if schema.isType .array then do pure (fields.insert "items" (← items)) else pure fields
  let fields := Dialect.insertList fields "enum" schema.enumValues
  return (fields.insertSome "default" schema.defaultValue).insertSome "example"
    schema.exampleValue

mutual

/-- The content of a schema, without its name, its nullability and its extensions. -/
def content (dialect : Dialect) (table : Definitions) : Schema → Render Fields
  | schema@{ properties := propertiesOf, items := itemsOf, oneOf := variantsOf, .. } =>
    assemble schema
      (startFields dialect schema (firstVariant dialect table variantsOf)
        (variants dialect table variantsOf))
      (properties dialect table propertiesOf [])
      (items dialect table itemsOf)

def firstVariant (dialect : Dialect) (table : Definitions) : List Schema → Render Json
  | [] => return object []
  | variant :: _ => useSite dialect table variant (content dialect table variant)

def variants (dialect : Dialect) (table : Definitions) : List Schema → Render (List Json)
  | [] => return []
  | variant :: rest => do
    let first ← useSite dialect table variant (content dialect table variant)
    let others ← variants dialect table rest
    return first :: others

def properties (dialect : Dialect) (table : Definitions) :
    List (String × Schema) → Fields → Render Fields
  | [], done => return done
  | (name, property) :: rest, done => do
    let rendered ← useSite dialect table property (content dialect table property)
    properties dialect table rest (done.insert name rendered)

/-- The items of an array; without any, strings. -/
def items (dialect : Dialect) (table : Definitions) : Option Schema → Render Json
  | none => return object (typeFields dialect .string)
  | some schema => useSite dialect table schema (content dialect table schema)

end

/-- The definitions of an interface with `levels` levels below them. -/
def definitionsAt (dialect : Dialect) (api : Api) : Nat → Definitions
  | 0 => fun _ => none
  | levels + 1 =>
    let deeper := definitionsAt dialect api levels
    fun name => (api.definitions.get? name).map fun definition => do
      return decorate dialect definition (← content dialect deeper definition)

def definitionsOf (dialect : Dialect) (api : Api) : Definitions :=
  definitionsAt dialect api (api.definitions.length + 1)

def schema (dialect : Dialect) (api : Api) (site : Schema) : Render Json :=
  let table := definitionsOf dialect api
  useSite dialect table site (content dialect table site)

/-- The rendered parameters that the document has a place for. -/
def parameters (dialect : Dialect) (api : Api) : List Parameter → Render (List Json)
  | [] => return []
  | parameter :: rest => do
    let rendered ← schema dialect api parameter.schema
    let others ← parameters dialect api rest
    match dialect.parameter? parameter rendered with
    | some fields => return object (fields.extend parameter.extensions) :: others
    | none => return others

def media (dialect : Dialect) (api : Api) :
    List MediaType → Render (List Dialect.RenderedMedia)
  | [] => return []
  | one :: rest => do
    let rendered ← schema dialect api one.schema
    let others ← media dialect api rest
    return ⟨one.mime, rendered, one.exampleValue⟩ :: others

def headers (dialect : Dialect) (api : Api) :
    List (String × Header) → Render (List (String × Dialect.RenderedHeader))
  | [] => return []
  | (name, header) :: rest => do
    let rendered ← schema dialect api header.schema
    let others ← headers dialect api rest
    return (name, ⟨header.description, rendered⟩) :: others

def response (dialect : Dialect) (api : Api) (produces : List String) (response : Response) :
    Render Json := do
  let body ←
    match response.schema with
    | some site => do pure (some (← schema dialect api site))
    | none => pure none
  let headers ← headers dialect api response.headers
  return object ((dialect.response response body headers produces).extend response.extensions)

def responses (dialect : Dialect) (api : Api) (produces : List String) :
    List (String × Response) → Fields → Render Fields
  | [], done => return done
  | (code, one) :: rest, done => do
    let rendered ← response dialect api produces one
    responses dialect api produces rest (done.insert code rendered)

/-- The parameters of an operation and its body, written where the version has them. -/
def parametersAndBody (dialect : Dialect) (fields : Fields) (parameters : List Json)
    (body : Option (RequestBody × List Dialect.RenderedMedia)) : Fields :=
  match body with
  | none => Dialect.insertList fields "parameters" parameters
  | some (body, content) =>
    match dialect.requestBody body content with
    | .parameters more => Dialect.insertList fields "parameters" (parameters ++ more)
    | .requestBody rendered =>
      (Dialect.insertList fields "parameters" parameters).insert "requestBody" rendered

def securityObject (requirement : SecurityRequirement) : Json :=
  object (requirement.mapValues strings)

def operation (dialect : Dialect) (api : Api) (operation : Operation) : Render Json := do
  let start : Fields := Table.insertSome [] "operationId" (operation.operationId.map string)
  let start := start.insertSome "summary" (operation.summary.map string)
  let start := start.insertSome "description" (operation.description.map string)
  let start := Dialect.insertList start "tags" (operation.tags.map string)
  let start := dialect.operationMedia operation start
  let parameters ← parameters dialect api operation.parameters
  let body ←
    match operation.requestBody with
    | some body => do pure (some (body, ← media dialect api body.content))
    | none => pure none
  let fields := parametersAndBody dialect start parameters body
  let produces := if operation.produces.isEmpty then ["application/json"] else operation.produces
  let responses ← responses dialect api produces operation.responses []
  let fields := fields.insert "responses" (object responses)
  let fields := if operation.deprecated then fields.insert "deprecated" (bool true) else fields
  let fields := Dialect.insertList fields "security" (operation.security.map securityObject)
  return object (fields.extend operation.extensions)

def operations (dialect : Dialect) (api : Api) :
    List (Method × Operation) → Fields → Render Fields
  | [], done => return done
  | (method, one) :: rest, done => do
    let rendered ← operation dialect api one
    operations dialect api rest (done.insert method.key rendered)

def paths (dialect : Dialect) (api : Api) : List PathItem → Fields → Render Fields
  | [], done => return done
  | item :: rest, done => do
    let rendered ← operations dialect api item.operations []
    paths dialect api rest (done.insert item.template (object rendered))

/-- Defines the names of the table that no path reaches. -/
def remainingDefinitions (dialect : Dialect) (api : Api) :
    List (String × Schema) → Render Unit
  | [] => return ()
  | (name, definition) :: rest => do
    let table := definitionsOf dialect api
    let _ ← reference dialect table name definition (content dialect table definition)
    remainingDefinitions dialect api rest

def tagObject (tag : Tag) : Json :=
  let start : Fields := [("name", string tag.name)]
  object (start.insertSome "description" (tag.description.map string))

/-- The rendered paths, with all definitions met on the way. -/
def walk (dialect : Dialect) (api : Api) : Render Fields := do
  let rendered ← paths dialect api api.paths []
  remainingDefinitions dialect api api.definitions
  return rendered

def document (dialect : Dialect) (api : Api) : Except ExportError Json := do
  let (paths, state) ← (walk dialect api).run {}
  let start := Dialect.insertList (dialect.head api) "tags" (api.tags.map tagObject)
  let start := start.insert "paths" (object paths)
  return object (dialect.finish start state.definitions api.securitySchemes)

end Export

end ApiDoc
