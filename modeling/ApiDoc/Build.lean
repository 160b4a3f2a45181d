import ApiDoc.Api
import ApiDoc.Config
import ApiDoc.OperationId
import ApiDoc.Route.Parameters

/-! # Building the description of an interface

The visible routes are built in turn, in one build that remembers the entities it met. A route
whose path and method were declared before takes the place of the earlier one and releases its
operation id; the tags of all routes are kept.
-/

namespace ApiDoc

/-- What a response with a status code usually says. -/
def reasonPhrase (code : String) : String :=
  match code with
  | "200" => "OK"
  | "201" => "Created"
  | "202" => "Accepted"
  | "204" => "No Content"
  | "301" => "Moved Permanently"
  | "302" => "Found"
  | "304" => "Not Modified"
  | "400" => "Bad Request"
  | "401" => "Unauthorized"
  | "403" => "Forbidden"
  | "404" => "Not Found"
  | "405" => "Method Not Allowed"
  | "409" => "Conflict"
  | "410" => "Gone"
  | "415" => "Unsupported Media Type"
  | "422" => "Unprocessable Entity"
  | "429" => "Too Many Requests"
  | "500" => "Internal Server Error"
  | "502" => "Bad Gateway"
  | "503" => "Service Unavailable"
  | "default" => "Unexpected error"
  | _ => "Response"

/-- Whether a path segment names a version, such as `v1`. -/
def isVersionSegment : List Char → Bool
  | 'v' :: digits => !digits.isEmpty && digits.all Char.isDigit
  | _ => false

/-- The tag of a route without tags: the first segment of its path that is no variable and no
version. -/
def defaultTag? (template : String) : Option String :=
  let literals := (Text.pieces '/' template.toList).filter fun segment =>
    !segment.isEmpty && segment.head? != some '\x7b'
  (literals.find? fun segment => !isVersionSegment segment).map String.ofList

/-- The declared texts, or the fallback if there are none. -/
def orElse (declared fallback : List String) : List String :=
  if declared.isEmpty then fallback else declared

/-- The media type of bodies and responses that declare none. -/
def defaultMediaType : String := "application/json"

def multipartMediaType : String := "multipart/form-data"

/-- The media type of forms without files. -/
def formMediaType : String := "application/x-www-form-urlencoded"

def hasFile (body : Schema) : Bool := (Table.values body.properties).any (·.isType .file)

namespace RouteDescriptor

def template (route : RouteDescriptor) (config : Config) : String :=
  Route.applyAliases (Route.normalize route.path) config.paramAliases

/-- The schema of an answer: of the type, or of an array of it. -/
def payloadSchema (lexicon : Lexicon) (token : TypeToken) (isArray : Bool) : Build Schema := do
  return (← lexicon.resolve token).arrayIf isArray

/-- The schema of an answer that may have no content. -/
def payloadSchema? (lexicon : Lexicon) (token : Option TypeToken) (isArray : Bool) :
    Build (Option Schema) := do
  match token with
  | some token => return some (← payloadSchema lexicon token isArray)
  | none => return none

def successStatus (route : RouteDescriptor) : Nat :=
  route.defaultStatus.getD <|
    match route.method with
    | .post => 201
    | .delete => if route.entity.isNone then 204 else 200
    | _ => 200

def successResponse (lexicon : Lexicon) (route : RouteDescriptor) : Build Response := do
  let code := toString route.successStatus
  let schema ← payloadSchema? lexicon route.entity route.isArray
  return { code, schema, description := route.successMessage.getD (reasonPhrase code) }

def responseHeaders (lexicon : Lexicon) :
    Table String HeaderSpec → Build (Table String Header)
  | [] => pure []
  | (name, header) :: rest => do
    let schema ← lexicon.resolveDeclared header.type
    let headers ← responseHeaders lexicon rest
    return (name, ⟨header.description, schema⟩) :: headers

def declaredResponse (lexicon : Lexicon) (spec : ResponseSpec) : Build Response := do
  let code := Response.normalizeCode spec.code
  let headers ← responseHeaders lexicon spec.headers
  let schema ← payloadSchema? lexicon spec.model spec.isArray
  return { code, schema, headers, examples := spec.examples,
           description := spec.message.getD (reasonPhrase code),
           extensions := vendorExtensions spec.extra }

/-- The request media types of a route: the declared ones, otherwise what its body needs. -/
def consumesOf (config : Config) (route : RouteDescriptor) (body : Option Schema) :
    List String :=
  let declared := orElse route.consumes config.consumes
  match body with
  | none => declared
  | some body =>
    if !declared.isEmpty then declared
    else if hasFile body then [multipartMediaType]
    else if route.declaresForm then [formMediaType]
    else []

/-- The request body of a route whose parameters make the schema `body`. -/
def requestBodyOf (route : RouteDescriptor) (consumes : List String) (body : Schema) :
    RequestBody where
  description := route.bodyDescription
  required := !body.required.isEmpty
  content := (orElse consumes [defaultMediaType]).map fun mime => { mime, schema := body }

/-- Builds the operation of a route, with the id it declares. -/
def buildOperation (config : Config) (lexicon : Lexicon) (route : RouteDescriptor) :
    Build Operation := do
  let (body, parameters) ← Route.buildParams lexicon config.paramAliases route
  let consumes := route.consumesOf config body
  let operation : Operation :=
    { method := route.method
      operationId := route.operationId
      summary := route.summary
      description := route.description
      deprecated := route.deprecated
      tags := orElse route.tags (defaultTag? (route.template config)).toList
      security := route.security
      parameters
      requestBody := body.map (route.requestBodyOf consumes)
      consumes
      produces := orElse route.produces config.produces
      extensions := route.extensions }
  let operation := operation.insertResponse (← successResponse lexicon route)
  let responses ← route.responses.mapM (declaredResponse lexicon)
  return responses.foldl Operation.insertResponse operation

end RouteDescriptor

/-- An interface under construction. -/
structure ApiDraft where
  api : Api
  /-- The tags of all routes so far. -/
  tags : NameSet := []
  /-- The ids of the operations of the interface. -/
  ids : NameSet := []

namespace ApiDraft

/-- The ids without the one of the operation that a new one takes the place of. -/
def releasedIds (draft : ApiDraft) (template : String) (method : Method) : NameSet :=
  match (draft.api.path? template).bind (·.operations.get? method) with
  | some { operationId := some id, .. } => draft.ids.remove id
  | _ => draft.ids

/-- Puts an operation on a path under an id of its own. -/
def put (draft : ApiDraft) (template : String) (operation : Operation)
    (casing : List Char → List Char := Text.camelCase) : ApiDraft :=
  let ids := draft.releasedIds template operation.method
  let wanted := operation.operationId.getD (OperationId.derive operation.method template casing)
  let id := OperationId.unique ids wanted
  { api := draft.api.putOperation template { operation with operationId := some id }
    tags := draft.tags.addAll operation.tags
    ids := ids.add id }

/-- Adds a route, unless it is hidden. -/
def addRoute (config : Config) (lexicon : Lexicon) (draft : ApiDraft) (route : RouteDescriptor)
    (casing : List Char → List Char := Text.camelCase) : Build ApiDraft := do
  if route.hidden then return draft
  let operation ← route.buildOperation config lexicon
  return draft.put (route.template config) operation casing

end ApiDraft

def emptyApi (config : Config) : Api where
  title := config.info.title
  version := config.info.version
  description := config.info.description
  host := config.host
  basePath := config.basePath
  schemes := config.schemes
  securitySchemes := config.securitySchemes

def describedTag (name : String) : Tag := ⟨name, some ("Operations about " ++ name)⟩

/-- Builds the description of the interface that routes make. -/
def buildApi (config : Config) (lexicon : Lexicon) (routes : List RouteDescriptor)
    (casing : List Char → List Char := Text.camelCase) : Api :=
  let (draft, progress) := (routes.foldlM (fun draft route =>
    ApiDraft.addRoute config lexicon draft route casing) { api := emptyApi config }).run {}
  { draft.api with
    tags := draft.tags.map describedTag
    definitions := progress.definitions }

end ApiDoc
