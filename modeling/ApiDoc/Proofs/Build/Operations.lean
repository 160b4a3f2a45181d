import ApiDoc.Proofs.Build.Parameters

/-! # The operation of a route in lockstep

Two builds that construct the operation of one route resolve the same tokens, and by a law of
schemas the operations agree in everything but their schemas, and those are related
(`buildOperation_lockstep`).
-/

namespace ApiDoc

variable {site body : Schema → Schema → Prop}

def Header.Related (site : Schema → Schema → Prop) (first second : Header) : Prop :=
  second = { first with schema := second.schema } ∧ site first.schema second.schema

/-- Responses that agree in everything but their schemas, which are related. -/
structure Response.Related (site : Schema → Schema → Prop) (first second : Response) : Prop where
  frame : second = { first with schema := second.schema, headers := second.headers }
  schema : Option.Rel site first.schema second.schema
  headers : Table.Related (fun _ => Header.Related site) first.headers second.headers

def MediaType.Related (body : Schema → Schema → Prop) (first second : MediaType) : Prop :=
  second = { first with schema := second.schema } ∧ body first.schema second.schema

/-- Request bodies that agree in everything but their schemas, which are related. -/
structure RequestBody.Related (body : Schema → Schema → Prop) (first second : RequestBody) :
    Prop where
  frame : second = { first with content := second.content }
  content : List.Forall₂ (MediaType.Related body) first.content second.content

/-- Operations that agree in everything but their schemas, which are related. -/
structure Operation.Related (site body : Schema → Schema → Prop) (first second : Operation) :
    Prop where
  frame : second = { first with
    parameters := second.parameters
    requestBody := second.requestBody
    responses := second.responses }
  parameters : List.Forall₂ (Parameter.Related site) first.parameters second.parameters
  requestBody : Option.Rel (RequestBody.Related body) first.requestBody second.requestBody
  responses : Table.Related (fun _ => Response.Related site) first.responses second.responses

/-- Paths with one template and operations that agree in everything but their schemas, which are
related. -/
structure PathItem.Related (site : Schema → Schema → Prop) (first second : PathItem) : Prop where
  template : first.template = second.template
  operations : Table.Related (fun _ => Operation.Related site site) first.operations second.operations

section
variable (itself : ∀ schema, site schema schema)
include itself

theorem optionRel_refl (schema? : Option Schema) : Option.Rel site schema? schema? := by
  cases schema? with
  | none => exact .none
  | some schema => exact .some (itself schema)

theorem Response.Related.refl (response : Response) : response.Related site response :=
  ⟨rfl, optionRel_refl itself _, .refl (fun _ header => ⟨rfl, itself header.schema⟩) _⟩

theorem Operation.Related.refl (operation : Operation) : operation.Related site site operation where
  frame := rfl
  parameters := List.forall₂_same.mpr fun parameter _ => ⟨rfl, itself parameter.schema⟩
  requestBody := by
    cases operation.requestBody with
    | none => exact .none
    | some body => exact .some ⟨rfl, List.forall₂_same.mpr fun media _ => ⟨rfl, itself media.schema⟩⟩
  responses := .refl (fun _ => .refl itself) _

theorem PathItem.Related.refl (item : PathItem) : item.Related site item :=
  ⟨rfl, .refl (fun _ => .refl itself) _⟩

end

theorem Operation.placeResponse_related {response response' : Response}
    {responses responses' : Table String Response} (here : response.Related site response')
    (others : Table.Related (fun _ => Response.Related site) responses responses') :
    Table.Related (fun _ => Response.Related site) (placeResponse response responses)
      (placeResponse response' responses') := by
  have code : response'.code = response.code := by rw [here.frame]
  induction others with
  | nil => exact .cons ⟨code.symm, here⟩ .nil
  | @cons first second _ _ there rest ih =>
    rw [placeResponse, placeResponse, ← there.1, code]
    split
    · exact .cons ⟨rfl, there.2⟩ ih
    · exact .cons ⟨rfl, here⟩ (.cons ⟨rfl, there.2⟩ rest)

theorem Operation.Related.insertResponse {operation operation' : Operation}
    {response response' : Response} (here : operation.Related site body operation')
    (there : response.Related site response') :
    (operation.insertResponse response).Related site body (operation'.insertResponse response') := by
  have code : response'.code = response.code := by rw [there.frame]
  unfold Operation.insertResponse
  refine ⟨?_, here.parameters, here.requestBody, ?_⟩
  · rw [here.frame]
  · dsimp only
    rw [code, here.responses.contains]
    split
    · exact here.responses.insert there
    · exact Operation.placeResponse_related there here.responses

/-- Responses change nothing else of an operation. -/
theorem Operation.insertResponses_eq (operation : Operation) (responses : List Response) :
    ∃ written, responses.foldl Operation.insertResponse operation = { operation with responses := written } := by
  induction responses generalizing operation with
  | nil => exact ⟨operation.responses, rfl⟩
  | cons response rest ih =>
    obtain ⟨written, same⟩ := ih (operation.insertResponse response)
    exact ⟨written, same⟩

/-- What does not look at the responses of an operation is the same behind them. -/
theorem Operation.insertResponses_keeps {α : Type} (view : Operation → α)
    (blind : ∀ (operation : Operation) (written : Table String Response),
      view { operation with responses := written } = view operation)
    (operation : Operation) (responses : List Response) :
    view (responses.foldl Operation.insertResponse operation) = view operation := by
  obtain ⟨written, same⟩ := operation.insertResponses_eq responses
  rw [same, blind]

theorem Operation.Related.insertResponses {operation operation' : Operation}
    {responses responses' : List Response} (here : operation.Related site body operation')
    (there : List.Forall₂ (Response.Related site) responses responses') :
    (responses.foldl Operation.insertResponse operation).Related site body
      (responses'.foldl Operation.insertResponse operation') := by
  induction there generalizing operation operation' with
  | nil => exact here
  | cons first _ ih => exact ih (here.insertResponse first)

section
variable {site' body' : Schema → Schema → Prop}

theorem Response.Related.imp (weaker : ∀ first second, site first second → site' first second)
    {response response' : Response} (related : response.Related site response') :
    response.Related site' response' where
  frame := related.frame
  schema := optionRel_imp weaker related.schema
  headers := related.headers.imp fun _ _ _ here => ⟨here.1, weaker _ _ here.2⟩

theorem Operation.Related.imp (weaker : ∀ first second, site first second → site' first second)
    (weakerBody : ∀ first second, body first second → body' first second)
    {operation operation' : Operation} (related : operation.Related site body operation') :
    operation.Related site' body' operation' where
  frame := related.frame
  parameters := List.Forall₂.imp (fun _ _ here => ⟨here.1, weaker _ _ here.2⟩) related.parameters
  requestBody := by
    refine optionRel_imp (fun first second here => ⟨here.frame, ?_⟩) related.requestBody
    exact List.Forall₂.imp (fun _ _ there => ⟨there.1, weakerBody _ _ there.2⟩) here.content
  responses := related.responses.imp fun _ _ _ here => here.imp weaker

theorem PathItem.Related.imp (weaker : ∀ first second, site first second → site' first second)
    {item item' : PathItem} (related : item.Related site item') : item.Related site' item' where
  template := related.template
  operations := related.operations.imp fun _ _ _ here => here.imp weaker weaker

end

namespace RouteDescriptor

variable {route : RouteDescriptor} {config : Config}
  {answers : TypeToken → Schema → Schema → Prop}
  {leaf : Option TypeToken → Schema → Schema → Prop}
  {inside : Table String ParamSpec → Schema → Schema → Prop}

def responseTokens (spec : ResponseSpec) : List TypeToken :=
  Route.headerTokens spec.headers ++ spec.model.toList

/-- The tokens that a route uses, in the order in which they are resolved. -/
def tokens (route : RouteDescriptor) : List TypeToken :=
  (Route.headerTokens route.headers ++ Route.paramTokens route.params) ++
    (route.entity.toList ++ route.responses.flatMap responseTokens)

section
variable (catalog : Catalog) (law : SiteLaw route answers leaf inside body)
include law

theorem payloadSchema?_lockstep (token : Option TypeToken) (isArray : Bool) :
    Lockstep catalog answers (Option.Rel (Site leaf)) token.toList
      (payloadSchema? { catalog } token isArray) (payloadSchema? { catalog } token isArray) := by
  unfold payloadSchema?
  cases token with
  | none => exact .pure .none
  | some token =>
    have payload : Lockstep catalog answers (Site leaf) [token]
        (payloadSchema { catalog } token isArray) (payloadSchema { catalog } token isArray) :=
      (Lockstep.token fun _ _ => law.answered).map fun _ _ here => ⟨_, law.arrayIf isArray here⟩
    exact payload.map fun _ _ => .some

theorem responseHeaders_lockstep (headers : Table String HeaderSpec) :
    Lockstep catalog answers (Table.Related fun _ => Header.Related (Site leaf))
      (Route.headerTokens headers) (responseHeaders { catalog } headers)
      (responseHeaders { catalog } headers) := by
  induction headers with
  | nil => exact .pure .nil
  | cons entry rest ih =>
    refine (Route.resolveDeclared_lockstep law entry.2.type).bind fun schema schema' here => ?_
    exact ih.map fun _ _ there => .cons ⟨rfl, rfl, _, here⟩ there

theorem successResponse_lockstep (route : RouteDescriptor) :
    Lockstep catalog answers (Response.Related (Site leaf)) route.entity.toList
      (successResponse { catalog } route) (successResponse { catalog } route) :=
  (payloadSchema?_lockstep catalog law route.entity route.isArray).map fun _ _ here => ⟨rfl, here, .nil⟩

theorem declaredResponse_lockstep (spec : ResponseSpec) :
    Lockstep catalog answers (Response.Related (Site leaf)) (responseTokens spec)
      (declaredResponse { catalog } spec) (declaredResponse { catalog } spec) := by
  unfold declaredResponse
  generalize Response.normalizeCode spec.code = code
  refine (responseHeaders_lockstep catalog law spec.headers).bind fun headers headers' here => ?_
  refine (payloadSchema?_lockstep catalog law spec.model spec.isArray).map fun schema? schema?' there => ?_
  exact ⟨rfl, there, here⟩

theorem consumesOf_eq {schema? schema?' : Option Schema} (related : Option.Rel body schema? schema?') :
    route.consumesOf config schema? = route.consumesOf config schema?' := by
  cases related with
  | none => rfl
  | some here =>
    unfold consumesOf
    dsimp only
    rw [(law.agree here).2.1]

theorem requestBodyOf_related {schema schema' : Schema} (here : body schema schema')
    (consumes : List String) :
    (route.requestBodyOf consumes schema).Related body (route.requestBodyOf consumes schema') := by
  unfold requestBodyOf
  refine ⟨by rw [(law.agree here).2.2], ?_⟩
  refine List.forall₂_map_left_iff.mpr (List.forall₂_map_right_iff.mpr ?_)
  exact List.forall₂_same.mpr fun mime _ => ⟨rfl, here⟩

/-- Two builds construct operations of a route that agree in everything but their schemas. -/
theorem buildOperation_lockstep (config : Config) :
    Lockstep catalog answers (Operation.Related (Site leaf) body) route.tokens
      (route.buildOperation config { catalog }) (route.buildOperation config { catalog }) := by
  unfold buildOperation
  refine (Route.buildParams_lockstep law config.paramAliases).bind fun built built' params => ?_
  obtain ⟨schema?, parameters⟩ := built
  obtain ⟨schema?', parameters'⟩ := built'
  refine (successResponse_lockstep catalog law route).bind fun success success' first => ?_
  have declared := Lockstep.mapM route.responses fun spec =>
    declaredResponse_lockstep catalog law spec
  refine declared.map fun responses responses' others => ?_
  refine Operation.Related.insertResponses (.insertResponse ⟨?_, params.parameters, ?_, .nil⟩ first)
    others
  · rw [consumesOf_eq law params.body]
  · dsimp only
    rw [consumesOf_eq law params.body]
    cases params.body with
    | none => exact .none
    | some here => exact .some (requestBodyOf_related law here _)

end

end RouteDescriptor

end ApiDoc
