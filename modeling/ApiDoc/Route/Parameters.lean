import ApiDoc.Route.Descriptor
import ApiDoc.Route.ParamName
import ApiDoc.Route.Template
import ApiDoc.Type.Introspection

/-! # The parameters of a route

Declared parameters become parameters of the operation or properties of its request body. A
parameter is placed by the first rule that applies: a path variable of its name, its declared
location, the body for files, the query for all else. A nested name follows the location of its
root, and its segments lead to its place in the body. Hiding a root hides all that is nested in
it. Path variables that nobody declares are added in front as required strings.
-/

namespace ApiDoc.Route

/-- The names a route gives its parameters: its path variables, and the published names of
parameters that are renamed. -/
structure Names where
  pathVariables : List String
  aliases : Table String String

def Names.published (names : Names) (name : String) : String := (names.aliases.get? name).getD name

/-- The parameters of a route as far as they are built. -/
structure Draft where
  /-- Parameters outside the body under location and name: a later one takes the place of an
  earlier one. -/
  bucket : Table (Location × String) Parameter := []
  body : Schema := .object

namespace Draft

def put (draft : Draft) (parameter : Parameter) : Draft :=
  { draft with
    bucket := draft.bucket.insert (parameter.location, parameter.name) parameter }

end Draft

def locate (names : Names) (name : String) (spec : ParamSpec) (schema : Schema) : Location :=
  if names.pathVariables.contains name then .path
  else
    match spec.documentation.location.bind Location.ofHint? with
    | some location => location
    | none => if schema.isType .file then .body else .query

def paramSchema (lexicon : Lexicon) (spec : ParamSpec) : Build Schema := do
  let schema := (← lexicon.resolveDeclared spec.type).restrict spec.values
  return { schema with defaultValue := spec.defaultValue.or schema.defaultValue }

def parameterOf (names : Names) (name : String) (location : Location) (spec : ParamSpec)
    (schema : Schema) : Parameter where
  name := names.published name
  location := location
  required := location == .path || spec.isRequired
  schema := schema
  description := spec.description
  collectionFormat := spec.documentation.collectionFormat.bind CollectionFormat.ofHint?
  exampleValue := spec.documentation.exampleValue
  extensions := vendorExtensions spec.documentation.extra

def addFlat (lexicon : Lexicon) (names : Names) (draft : Draft) (name : String)
    (spec : ParamSpec) : Build Draft := do
  if spec.documentation.hidden then return draft
  let schema ← paramSchema lexicon spec
  let location := locate names name spec schema
  if location = .body then
    let property := schema.describe spec.description
    return { draft with body := draft.body.addProperty name property spec.isRequired }
  else return draft.put (parameterOf names name location spec schema)

def addAllFlat (lexicon : Lexicon) (names : Names) (params : Table String ParamSpec)
    (draft : Draft) : Build Draft :=
  params.foldlM (fun draft (name, spec) => addFlat lexicon names draft name spec) draft

def hasChildren (schema : Schema) : Bool :=
  !schema.properties.isEmpty ||
  match schema.items with
  | some items => !items.properties.isEmpty
  | none => false

/-- Puts a parameter at its place in `container`. One that already holds nested parameters keeps
them and takes over the description. -/
def placeLeaf (container : Schema) (segment : NameSegment) (leaf : Schema) (required : Bool) :
    Schema :=
  let leaf := leaf.arrayIf segment.isArray
  match Table.get? container.properties segment.name with
  | some existing =>
    if hasChildren existing then
      { container with
        properties :=
          Table.insert container.properties segment.name (existing.describe leaf.description)
        required :=
          if required then container.required.add segment.name else container.required }
    else container.addProperty segment.name leaf required
  | none => container.addProperty segment.name leaf required

/-- A property as the holder of nested parameters: an array if it is or has to be one, otherwise an
object. What else it said is dropped, its description kept. -/
def asHolder (isArray : Bool) (property : Schema) : Schema :=
  if property.isType .array then property
  else if isArray then (Schema.array .object).describe property.description
  else if property.isType .object then property
  else Schema.object.describe property.description

/-- The items of an array that hold nested parameters. -/
def itemsHolder (array : Schema) : Schema :=
  match array.items with
  | some items => if items.isType .object then items else .object
  | none => .object

/-- Puts a parameter at the place inside `container` that its segments lead to, making the holders
on the way. -/
def insertNested (container : Schema) :
    List NameSegment → (leaf : Schema) → (required : Bool) → Schema
  | [], _, _ => container
  | [segment], leaf, required => placeLeaf container segment leaf required
  | segment :: next :: rest, leaf, required =>
    let property := (Table.get? container.properties segment.name).getD .object
    let holder := asHolder segment.isArray property
    let holder :=
      if holder.isType .array then
        { holder with items := some (insertNested (itemsHolder holder) (next :: rest) leaf required) }
      else insertNested holder (next :: rest) leaf required
    { container with properties := Table.insert container.properties segment.name holder }

/-- What the parameters without a bracket group say about the roots. -/
structure Roots where
  /-- The roots that are hidden. -/
  hidden : List String := []
  /-- The visible roots with their locations and schemas. -/
  visible : Table String (Location × Schema) := []

/-- Notes a parameter if its name has one segment. -/
def noteRoot (lexicon : Lexicon) (names : Names) (roots : Roots) (name : String)
    (spec : ParamSpec) : Build Roots := do
  match splitNested name with
  | [root] =>
    if spec.documentation.hidden then return { roots with hidden := roots.hidden ++ [root.name] }
    let schema ← paramSchema lexicon spec
    let location := locate names root.name spec schema
    return { roots with visible := roots.visible.insert root.name (location, schema) }
  | _ => return roots

/-- Puts a parameter with a known location where it belongs. -/
def placeNested (names : Names) (draft : Draft) (name : String) (segments : List NameSegment)
    (spec : ParamSpec) (location : Location) (schema : Schema) : Draft :=
  if location = .body then
    let leaf := schema.describe spec.description
    { draft with body := insertNested draft.body segments leaf spec.isRequired }
  else draft.put (parameterOf names name location spec schema)

/-- Adds a parameter of a route with nested names. `pending` holds the visible roots that are not
added yet: of several parameters with one root and no bracket segment, the first one stands for
all. -/
def addNested (lexicon : Lexicon) (names : Names) (roots : Roots)
    (state : Draft × Table String (Location × Schema)) (name : String) (spec : ParamSpec) :
    Build (Draft × Table String (Location × Schema)) := do
  let (draft, pending) := state
  let segments := splitNested name
  let root := rootName name
  if spec.documentation.hidden || roots.hidden.contains root then return state
  if segments.length = 1 then
    match pending.get? root with
    | none => return state
    | some (location, schema) =>
      return (placeNested names draft name segments spec location schema, pending.erase root)
  else
    let schema ← paramSchema lexicon spec
    let location :=
      match roots.visible.get? root with
      | some (location, _) => location
      | none => locate names name spec schema
    return (placeNested names draft name segments spec location schema, pending)

/-- Adds the parameters of a route with nested names. The roots are resolved first, so that what
is nested in a root follows it even where it is declared before it. -/
def addAllNested (lexicon : Lexicon) (names : Names) (params : Table String ParamSpec)
    (draft : Draft) : Build Draft := do
  let roots ←
    params.foldlM (fun roots (name, spec) => noteRoot lexicon names roots name spec) ({} : Roots)
  let (draft, _) ←
    params.foldlM (fun state (name, spec) => addNested lexicon names roots state name spec)
      (draft, roots.visible)
  return draft

def addHeader (lexicon : Lexicon) (draft : Draft) (name : String) (header : HeaderSpec) :
    Build Draft := do
  let schema ← lexicon.resolveDeclared header.type
  return draft.put
    { name, location := .header, required := header.required, schema,
      description := header.description }

/-- The path variables without a parameter, as required strings. -/
def undeclared (names : Names) (draft : Draft) : List Parameter :=
  names.pathVariables.filterMap fun pathVariable =>
    let name := names.published pathVariable
    if draft.bucket.contains (.path, name) then none
    else some { name, location := .path, required := true, schema := .string }

/-- The parameters and the request body of a draft; a body without properties is none. -/
def Draft.finish (names : Names) (draft : Draft) : Option Schema × List Parameter :=
  (if draft.body.properties.isEmpty then none else some draft.body,
    undeclared names draft ++ draft.bucket.values)

def buildParams (lexicon : Lexicon) (aliases : Table String String) (route : RouteDescriptor) :
    Build (Option Schema × List Parameter) := do
  let names : Names := ⟨pathVariables route.path, aliases⟩
  let draft ←
    route.headers.foldlM (fun draft (name, header) => addHeader lexicon draft name header)
      ({} : Draft)
  let draft ←
    if route.params.keys.any isNested then addAllNested lexicon names route.params draft
    else addAllFlat lexicon names route.params draft
  return draft.finish names

end ApiDoc.Route
