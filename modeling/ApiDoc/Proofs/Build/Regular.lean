import ApiDoc.Proofs.Build.Responses
import ApiDoc.Proofs.Export.Versions
import ApiDoc.Proofs.Type.Marked

/-! # The shape of built operations

Some things about an operation do not depend on what its types resolve to. No parameter travels in the
body; all contents of the request body are of one schema, an object with properties; extensions stand
under keys that start with `x-`. `Always` says of a computation of a build that its value has a
property whatever was introspected before, and `buildApi_regular` draws the conclusion for interfaces.
-/

namespace ApiDoc

/-- The value of the computation has the property, whatever was introspected before. -/
def Always {α : Type} (holds : α → Prop) (computation : Build α) : Prop :=
  ∀ progress, holds (computation.run progress).1

namespace Always

variable {α β ι : Type} {holds : α → Prop} {holds' : β → Prop} {computation : Build α}

theorem pure {value : α} (here : holds value) : Always holds (pure value) := fun _ => here

theorem any (computation : Build α) : Always (fun _ => True) computation := fun _ => trivial

theorem bind {behind : α → Build β} (first : Always holds computation)
    (second : ∀ value, holds value → Always holds' (behind value)) :
    Always holds' (computation >>= behind) :=
  fun progress => second _ (first progress) (computation.run progress).2

theorem imp {weaker : α → Prop} (first : Always holds computation)
    (implies : ∀ value, holds value → weaker value) : Always weaker computation :=
  fun progress => implies _ (first progress)

/-- A computation behind one of which nothing has to be known. -/
theorem after {behind : α → Build β} (second : ∀ value, Always holds' (behind value)) :
    Always holds' (computation >>= behind) :=
  (any computation).bind fun value _ => second value

/-- What follows a computation may be exchanged for what does the same with its outcomes. -/
theorem bind_congr {behind behind' : α → Build β} (first : Always holds computation)
    (same : ∀ value, holds value → behind value = behind' value) :
    computation >>= behind = computation >>= behind' :=
  funext fun progress => congrFun (same _ (first progress)) (computation.run progress).2

/-- A loop over items has behind each of them what its steps hand on from the items before. -/
theorem foldlM_split (holds : List ι → α → Prop) {step : α → ι → Build α} {whole : List ι}
    (kept : ∀ done item rest value, whole = done ++ item :: rest → holds done value →
      Always (holds (done ++ [item])) (step value item))
    {done items : List ι} (split : whole = done ++ items) {initial : α} (here : holds done initial) :
    Always (holds whole) (items.foldlM step initial) := by
  induction items generalizing done initial with
  | nil =>
    rw [List.append_nil] at split
    exact .pure (split ▸ here)
  | cons item rest ih =>
    exact (kept done item rest initial split here).bind fun _ => ih (by rw [split, List.append_cons])

/-- A loop keeps what each of its steps keeps. -/
theorem foldlM {step : α → ι → Build α} (kept : ∀ value item, holds value → Always holds (step value item))
    (items : List ι) {initial : α} (here : holds initial) : Always holds (items.foldlM step initial) :=
  foldlM_split (fun _ => holds) (fun _ item _ value _ => kept value item) (List.nil_append items).symm here

theorem mapM {step : ι → Build α} (each : ∀ item, Always holds (step item)) (items : List ι) :
    Always (fun values => ∀ value ∈ values, holds value) (items.mapM step) := by
  induction items with
  | nil => exact .pure fun value member => by cases member
  | cons item rest ih =>
    rw [List.mapM_cons]
    refine (each item).bind fun value here => ih.bind fun values others => .pure fun other member => ?_
    rcases List.mem_cons.mp member with rfl | member
    · exact here
    · exact others other member

/-- What holds of each item and its outcome holds of all of them. -/
theorem forall₂_mapM {matching : ι → α → Prop} {step : ι → Build α}
    (each : ∀ item, Always (matching item) (step item)) (items : List ι) :
    Always (List.Forall₂ matching items) (items.mapM step) := by
  induction items with
  | nil => exact .pure .nil
  | cons item rest ih =>
    rw [List.mapM_cons]
    exact (each item).bind fun _ here => ih.bind fun _ others => .pure (.cons here others)

end Always

theorem markedKeys_vendorExtensions (entries : Table String Json) :
    MarkedKeys (vendorExtensions entries) := by
  intro key member
  obtain ⟨entry, listed, rfl⟩ := List.mem_map.mp member
  exact startsWith_extension.mp (List.mem_filter.mp listed).2

/-- The schema is an object that says nothing but its properties and which are required. -/
def Schema.OnlyProperties (schema : Schema) : Prop :=
  ∃ properties required, schema = { Schema.object with properties := properties, required := required }

/-- The parameter does not travel in the body, and its extensions are marked. -/
def Parameter.Regular (parameter : Parameter) : Prop :=
  parameter.location ≠ .body ∧ MarkedKeys parameter.extensions

namespace Route

variable {lexicon : Lexicon} {names : Names} {draft : Draft}

/-- The parameters of a draft are regular, and its body says nothing but its properties. -/
structure Draft.Regular (draft : Draft) : Prop where
  bucket : ∀ entry ∈ draft.bucket, entry.2.Regular
  body : draft.body.OnlyProperties

/-- The parameters that are put outside the body: request headers, and declared parameters with another
location. -/
inductive Outside (names : Names) : Parameter → Prop
  | header (name : String) (required : Bool) (schema : Schema) (description : Option String) :
      Outside names { name, location := .header, required, schema, description }
  | declared (name : String) {location : Location} (spec : ParamSpec) (schema : Schema) :
      location ≠ .body → Outside names (parameterOf names name location spec schema)

/-- A property of drafts that the parameters of a route keep, wherever they are put. -/
structure DraftLaw (names : Names) (holds : Draft → Prop) : Prop where
  start : holds {}
  put : ∀ draft parameter, Outside names parameter → holds draft → holds (draft.put parameter)
  addProperty : ∀ (draft : Draft) (name : String) (property : Schema) (required : Bool), holds draft →
    holds { draft with body := draft.body.addProperty name property required }
  insertNested : ∀ (draft : Draft) (segments : List NameSegment) (leaf : Schema) (required : Bool),
    holds draft → holds { draft with body := insertNested draft.body segments leaf required }

namespace DraftLaw

variable {holds : Draft → Prop} (law : DraftLaw names holds)
include law

theorem addHeader (here : holds draft) (name : String) (header : HeaderSpec) :
    Always holds (addHeader lexicon draft name header) :=
  .after fun schema => .pure (law.put _ _ (.header name header.required schema header.description) here)

theorem addFlat (here : holds draft) (name : String) (spec : ParamSpec) :
    Always holds (addFlat lexicon names draft name spec) := by
  unfold Route.addFlat
  split
  · exact .pure here
  · refine .after fun schema => ?_
    dsimp only
    split
    · exact .pure (law.addProperty draft name _ _ here)
    · next apart => exact .pure (law.put draft _ (.declared name spec schema apart) here)

theorem placeNested (here : holds draft) (name : String) (segments : List NameSegment)
    (spec : ParamSpec) (location : Location) (schema : Schema) :
    holds (placeNested names draft name segments spec location schema) := by
  unfold Route.placeNested
  split
  · exact law.insertNested draft segments _ _ here
  · next apart => exact law.put draft _ (.declared name spec schema apart) here

theorem addNested (roots : Roots) {state : Draft × Table String (Location × Schema)}
    (here : holds state.1) (name : String) (spec : ParamSpec) :
    Always (fun state => holds state.1) (addNested lexicon names roots state name spec) := by
  obtain ⟨draft, pending⟩ := state
  unfold Route.addNested
  dsimp only
  split
  · exact .pure here
  · split
    · split
      · exact .pure here
      · exact .pure (law.placeNested here ..)
    · exact .after fun schema => .pure (law.placeNested here ..)

/-- What is built of a route is what a draft with the property ends in. -/
theorem buildParams (lexicon : Lexicon) (aliases : Table String String) (route : RouteDescriptor)
    (own : names = ⟨pathVariables route.path, aliases⟩) :
    Always (fun built => ∃ draft, holds draft ∧ built = draft.finish names)
      (buildParams lexicon aliases route) := by
  subst own
  have withHeaders : Always holds (route.headers.foldlM (fun draft entry =>
      Route.addHeader lexicon draft entry.1 entry.2) ({} : Draft)) :=
    Always.foldlM (fun _ entry here => law.addHeader here entry.1 entry.2) _ law.start
  unfold Route.buildParams
  refine withHeaders.bind fun draft here => ?_
  dsimp only
  split
  · have nested : Always holds
        (addAllNested lexicon ⟨pathVariables route.path, aliases⟩ route.params draft) := by
      refine .after fun roots => .bind ?_ fun state here => .pure here
      exact Always.foldlM (fun _ entry here => law.addNested roots here entry.1 entry.2) _ here
    exact nested.bind fun draft here => .pure ⟨draft, here, rfl⟩
  · have flat : Always holds
        (addAllFlat lexicon ⟨pathVariables route.path, aliases⟩ route.params draft) :=
      Always.foldlM (fun _ entry here => law.addFlat here entry.1 entry.2) _ here
    exact flat.bind fun draft here => .pure ⟨draft, here, rfl⟩

end DraftLaw

theorem Outside.regular {parameter : Parameter} (outside : Outside names parameter) : parameter.Regular := by
  cases outside with
  | header => exact ⟨Location.noConfusion, fun key member => by cases member⟩
  | declared name spec schema apart => exact ⟨apart, markedKeys_vendorExtensions _⟩

theorem regular_draftLaw (names : Names) : DraftLaw names Draft.Regular where
  start := ⟨fun entry member => (by cases member), [], [], rfl⟩
  put draft parameter outside regular := by
    refine ⟨fun entry member => ?_, regular.body⟩
    rcases Table.mem_of_mem_insert member with rfl | old
    · exact outside.regular
    · exact regular.bucket entry old
  addProperty draft name property required regular := by
    obtain ⟨properties, names, same⟩ := regular.body
    refine ⟨regular.bucket, ?_⟩
    rw [same]
    exact ⟨_, _, rfl⟩
  insertNested draft segments leaf required regular := by
    -- Wherever the segments lead, only the properties of the body itself change.
    obtain ⟨properties, names, same⟩ := regular.body
    obtain ⟨properties', names', placed⟩ := insertNested_frame draft.body segments leaf required
    refine ⟨regular.bucket, ?_⟩
    dsimp only
    rw [placed, same]
    exact ⟨_, _, rfl⟩

/-- What a draft ends in is a body with properties, if any, and regular parameters. -/
theorem Draft.Regular.finish (regular : draft.Regular) (names : Names) :
    (∀ body, (draft.finish names).1 = some body → body.properties ≠ [] ∧ body.OnlyProperties) ∧
      ∀ parameter ∈ (draft.finish names).2, parameter.Regular := by
  refine ⟨fun body made => ?_, fun parameter member => ?_⟩
  · unfold Draft.finish at made
    dsimp only at made
    split at made
    · cases made
    · next some =>
      cases made
      exact ⟨fun none => some (by rw [none]; rfl), regular.body⟩
  · rcases List.mem_append.mp member with unlisted | listed
    · obtain ⟨name, -, made⟩ := List.mem_filterMap.mp unlisted
      dsimp only at made
      split at made
      · cases made
      · cases made
        exact ⟨Location.noConfusion, fun key member => by cases member⟩
    · obtain ⟨entry, inBucket, rfl⟩ := List.mem_map.mp listed
      exact regular.bucket entry inBucket

theorem buildParams_regular (aliases : Table String String) (route : RouteDescriptor) :
    Always (fun built => (∀ body, built.1 = some body → body.properties ≠ [] ∧ body.OnlyProperties) ∧
      ∀ parameter ∈ built.2, parameter.Regular) (buildParams lexicon aliases route) := by
  intro progress
  obtain ⟨draft, regular, built⟩ := (regular_draftLaw _).buildParams lexicon aliases route rfl progress
  rw [built]
  exact regular.finish _

end Route

/-- The contents of a request body are of one schema, an object with properties. -/
def RequestBody.Uniform (body : RequestBody) : Prop :=
  body.content ≠ [] ∧ ∃ schema : Schema, schema.properties ≠ [] ∧ schema.OnlyProperties ∧
    ∀ media ∈ body.content, media.schema = schema

/-- What all built operations have in common. -/
structure Operation.Regular (operation : Operation) : Prop extends operation.Marked where
  outside : ∀ parameter ∈ operation.parameters, parameter.location ≠ .body
  uniform : ∀ body, operation.requestBody = some body → body.Uniform

theorem Operation.Regular.parameter {operation : Operation} (regular : operation.Regular) :
    ∀ parameter ∈ operation.parameters, parameter.Regular :=
  fun parameter member => ⟨regular.outside parameter member, regular.parameters parameter member⟩

theorem Operation.Regular.insertResponse {operation : Operation} (regular : operation.Regular)
    {response : Response} (marked : MarkedKeys response.extensions) :
    (operation.insertResponse response).Regular where
  own := regular.own
  parameters := regular.parameters
  responses entry member := by
    have either : entry = (response.code, response) ∨ entry ∈ operation.responses := by
      unfold Operation.insertResponse at member
      dsimp only at member
      split at member
      · exact Table.mem_of_mem_insert member
      · exact Response.mem_placeResponse.mp member
    rcases either with rfl | old
    · exact marked
    · exact regular.responses entry old
  outside := regular.outside
  uniform := regular.uniform

theorem Operation.Regular.insertResponses {operation : Operation} (regular : operation.Regular)
    {responses : List Response} (marked : ∀ response ∈ responses, MarkedKeys response.extensions) :
    (responses.foldl Operation.insertResponse operation).Regular := by
  induction responses generalizing operation with
  | nil => exact regular
  | cons response rest ih =>
    refine ih (regular.insertResponse (marked _ List.mem_cons_self)) fun other member => ?_
    exact marked other (List.mem_cons_of_mem _ member)

namespace RouteDescriptor

variable {lexicon : Lexicon} {route : RouteDescriptor}

theorem requestBodyOf_uniform (consumes : List String) {body : Schema} (some : body.properties ≠ [])
    (only : body.OnlyProperties) : (route.requestBodyOf consumes body).Uniform := by
  refine ⟨fun none => ?_, body, some, only, fun media member => ?_⟩
  · have empty := List.map_eq_nil_iff.mp none
    unfold orElse at empty
    split at empty
    · cases empty
    · next declared => exact declared (by rw [empty]; rfl)
  · obtain ⟨mime, -, rfl⟩ := List.mem_map.mp member
    rfl

theorem successResponse_marked :
    Always (fun response => MarkedKeys response.extensions) (successResponse lexicon route) :=
  .after fun _ => .pure fun key member => by cases member

theorem declaredResponse_marked (spec : ResponseSpec) :
    Always (fun response => MarkedKeys response.extensions) (declaredResponse lexicon spec) :=
  .after fun _ => .after fun _ => .pure (markedKeys_vendorExtensions spec.extra)

theorem buildOperation_regular (config : Config) (lexicon : Lexicon) (route : RouteDescriptor) :
    Always Operation.Regular (route.buildOperation config lexicon) := by
  refine (Route.buildParams_regular config.paramAliases route).bind fun built shape => ?_
  obtain ⟨body?, parameters⟩ := built
  obtain ⟨bodies, regular⟩ := shape
  refine successResponse_marked.bind fun success first => ?_
  refine (Always.mapM declaredResponse_marked route.responses).bind fun responses others => .pure ?_
  refine Operation.Regular.insertResponses (.insertResponse ⟨⟨?_, ?_, ?_⟩, ?_, ?_⟩ first) others
  · exact markedKeys_vendorExtensions route.extra
  · exact fun parameter member => (regular parameter member).2
  · exact fun entry member => by cases member
  · exact fun parameter member => (regular parameter member).1
  · intro body present
    obtain ⟨schema, made, rfl⟩ := Option.map_eq_some_iff.mp present
    obtain ⟨some, only⟩ := bodies schema made
    exact requestBodyOf_uniform _ some only

end RouteDescriptor

/-- All operations of a built interface are regular, whatever resolves its types. -/
theorem buildApi_regular (config : Config) (lexicon : Lexicon) (routes : List RouteDescriptor) :
    ∀ operation ∈ (buildApi config lexicon routes).operations, operation.Regular := by
  have kept (draft : ApiDraft) (route : RouteDescriptor)
      (regular : ∀ operation ∈ draft.api.operations, operation.Regular) :
      Always (fun draft => ∀ operation ∈ draft.api.operations, operation.Regular)
        (draft.addRoute config lexicon route) := by
    unfold ApiDraft.addRoute
    split
    · exact .pure regular
    · refine (route.buildOperation_regular config lexicon).bind fun built here => .pure ?_
      intro operation member
      rcases Api.mem_of_mem_putOperation member with rfl | old
      · exact ⟨⟨here.own, here.parameters, here.responses⟩, here.outside, here.uniform⟩
      · exact regular operation old
  exact Always.foldlM kept routes (fun operation member => by cases member) {}

/-- Everywhere in a built interface extensions stand under keys that start with `x-`. -/
theorem buildApi_marked (config : Config) (catalog : Catalog) (routes : List RouteDescriptor) :
    (buildApi config { catalog } routes).Marked := by
  obtain ⟨history, derived⟩ := session_history catalog (routeCalls routes)
  obtain ⟨answers, definitions⟩ := derived.marked fun entry member => by cases member
  refine ⟨buildApi_sites marked_objectLaw config answers, fun entry member => ?_⟩
  rw [buildApi_definitions] at member
  exact definitions entry member

end ApiDoc
