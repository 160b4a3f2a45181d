import ApiDoc.Proofs.Build.Paths
import ApiDoc.Proofs.Export.Forms

/-! # Form parameters

In 2.0 the body of a form is written as parameters, one for each of its properties in their order. The
fields of a rendered property are written over those of its parameter. None of them is a name or a place,
but an object that requires names among its own properties has a list of them under the key under which a
parameter says whether it is required (`demanded_names_hide_required`). So a parameter says that its
property is required exactly if the body requires it, unless the property itself demands names
(`buildApi_formFields`).
-/

namespace ApiDoc

open Schema Json

mutual

/-- The names that the rendered schema requires in 2.0, where the first alternative stands for all. A schema
with a canonical name is rendered as a reference, which requires nothing. -/
def Schema.demands : Schema → NameSet
  | schema@{ oneOf := variantsOf, .. } =>
    if schema.canonicalName.isSome then []
    else if schema.required.isEmpty then Schema.firstDemands variantsOf
    else schema.required

def Schema.firstDemands : List Schema → NameSet
  | [] => []
  | variant :: _ => variant.demands

end

theorem Schema.demands_unfold (schema : Schema) : schema.demands =
    if schema.canonicalName.isSome then []
    else if schema.required.isEmpty then firstDemands schema.oneOf else schema.required := by
  cases schema
  rw [demands]

namespace Export

variable {schema site : Schema} {names : NameSet} {fields : Fields}

/-- The fields say under the key of required names which names are demanded, and no key stands twice. -/
structure Demands (names : NameSet) (fields : Fields) : Prop where
  distinct : (Table.keys fields).Nodup
  required : fields.get? "required" = if names = [] then none else some (strings names)

theorem demands_typeFields (schema : Schema) : Demands [] (typeFields .v20 schema) := by
  unfold typeFields
  split
  · exact ⟨by decide, rfl⟩
  · next type _ _ =>
    have start : (Table.keys [("type", string type.name)]).Nodup := List.nodup_singleton _
    refine ⟨Table.nodup_keys_insertSome start _ _, ?_⟩
    simp [Table.get?_insertSome, Table.get?]
  · exact ⟨List.nodup_nil, rfl⟩

/-- Extensions and nullability do not change what is demanded. -/
theorem Demands.decorate (demands : Demands names fields) (marked : site.Marked) :
    Demands names (decorate .v20 site fields) := by
  have own : Demands names (if site.nullable then Dialect.v20.nullable fields else fields) := by
    split
    · refine ⟨Table.nodup_keys_insert demands.distinct _ _, ?_⟩
      exact (Table.get?_insert _ _ _ _).trans ((if_neg (by decide)).trans demands.required)
    · exact demands
  have absent : "required" ∉ Table.keys site.extensions := by
    intro member
    obtain ⟨rest, same⟩ := marked.root _ member
    exact ne_extension (by decide) same
  refine ⟨Table.nodup_keys_extend own.distinct _, ?_⟩
  exact (Table.get?_extend_of_not_mem absent).trans own.required

/-- No key of a content stands twice. -/
theorem nodup_plainAssemble (distinct : (Table.keys fields).Nodup) (schema : Schema) (properties : Fields)
    (items : Json) : (Table.keys (plainAssemble schema fields properties items)).Nodup := by
  have chosen (condition : Prop) [Decidable condition] {first second : Fields}
      (left : (Table.keys first).Nodup) (right : (Table.keys second).Nodup) :
      (Table.keys (if condition then first else second)).Nodup := by
    split
    · exact left
    · exact right
  have described := Table.nodup_keys_insertSome distinct "description" (schema.description.map string)
  have withProperties := chosen (schema.properties.isEmpty = true) described
    (Table.nodup_keys_insert described "properties" (object properties))
  have withRequired := chosen (schema.required.isEmpty = true) withProperties
    (Table.nodup_keys_insert withProperties "required" (strings schema.required))
  have withItems := chosen (schema.isType .array = true)
    (Table.nodup_keys_insert withRequired "items" items) withRequired
  have withValues := chosen (schema.enumValues.isEmpty = true) withItems
    (Table.nodup_keys_insert withItems "enum" (array schema.enumValues))
  exact Table.nodup_keys_insertSome (Table.nodup_keys_insertSome withValues _ _) _ _

/-- A content demands what its schema requires, and otherwise what it starts with demands. -/
theorem Demands.plainAssemble (demands : Demands names fields) (schema : Schema) (properties : Fields)
    (items : Json) : Demands (if schema.required.isEmpty then names else schema.required)
      (plainAssemble schema fields properties items) := by
  refine ⟨nodup_plainAssemble demands.distinct schema properties items, ?_⟩
  have said := demands.required
  unfold Export.plainAssemble
  cases requires : schema.required with
  | nil =>
    cases schema.properties.isEmpty <;> cases schema.isType .array <;>
      simp [Table.get?_insertSome, get?_insertList, Table.get?_insert, said]
  | cons name rest =>
    cases schema.properties.isEmpty <;> cases schema.isType .array <;>
      simp [Table.get?_insertSome, get?_insertList, Table.get?_insert]

/-- What a schema demands stands in the text it is rendered to. -/
theorem siteText_demands (site : Schema) (marked : site.Marked) :
    ∃ fields, siteText .v20 site = object fields ∧ Demands site.demands fields := by
  induction site using Schema.ofParts with
  | node site ih =>
    unfold siteText plainUse
    rw [Schema.demands_unfold]
    cases named : site.canonicalName with
    | some name =>
      have reference : Demands [] [("$ref", string (refText .v20 name))] := ⟨List.nodup_singleton _, rfl⟩
      exact ⟨_, rfl, reference.decorate marked⟩
    | none =>
      have start :
          Demands (firstDemands site.oneOf) (plainStart .v20 site (site.oneOf.map (siteText .v20))) := by
        unfold plainStart
        cases alternatives : site.oneOf with
        | nil => exact demands_typeFields site
        | cons first rest =>
          have listed : first ∈ site.oneOf := by rw [alternatives]; exact List.mem_cons_self
          obtain ⟨fields, same, demands⟩ :=
            ih first (.variant listed) (Schema.All.part marked (.variant listed))
          rw [List.map_cons, List.headD_cons, same]
          exact demands
      refine ⟨_, rfl, Demands.decorate ?_ marked⟩
      rw [plainContent_unfold, plainVariants_eq]
      exact start.plainAssemble site _ _

def requiredFlag (required : NameSet) (entry : String × Schema) : Json := bool (required.contains entry.1)

/-- What a form parameter says of being required: the names that its property demands, and if there are none
whether the body requires the property. -/
def requirement (required : NameSet) (entry : String × Schema) : Json :=
  if entry.2.demands = [] then requiredFlag required entry else strings entry.2.demands

/-- A form parameter of a name, with what it says of being required. -/
structure FormField (name : String) (flag : Json) (parameter : Json) : Prop where
  name : parameter.field? "name" = some (string name)
  place : parameter.field? "in" = some (string "formData")
  required : parameter.field? "required" = some flag

/-- The names that a body requires are read back from its text. -/
theorem requiredNames_siteText {body : Schema} (only : body.OnlyProperties) (marked : body.Marked) :
    Dialect.requiredNames (siteText .v20 body) = body.required := by
  have own : body.demands = body.required := by
    obtain ⟨properties, required, rfl⟩ := only
    rw [Schema.demands_unfold]
    cases required <;> rfl
  obtain ⟨fields, text, demands⟩ := siteText_demands body marked
  have said : (siteText .v20 body).field? "required" =
      if body.required = [] then none else some (strings body.required) := by
    rw [text, ← own]
    exact demands.required
  unfold Dialect.requiredNames
  rw [said]
  by_cases none : body.required = []
  · rw [if_pos none, none]
    rfl
  · have read : (body.required.map string).filterMap string? = body.required :=
      List.filterMap_map.trans List.filterMap_some
    rw [if_neg none]
    exact read

/-- A form has a parameter for each property of the body, in their order. -/
theorem formParameters_fields {body : Schema} (only : body.OnlyProperties) (filled : body.properties ≠ [])
    (distinct : (Table.keys body.properties).Nodup) (marked : body.Marked) :
    List.Forall₂ (fun entry => FormField entry.1 (requirement body.required entry)) body.properties
      (Dialect.formParameters (siteText .v20 body)) := by
  have parameters : Dialect.formParameters (siteText .v20 body) =
      body.properties.map fun entry => object (Dialect.flattenInto
        [("name", string entry.1), ("in", string "formData"),
          ("required", bool (body.required.contains entry.1))] (siteText .v20 entry.2)) := by
    unfold Dialect.formParameters
    rw [field?_properties only filled, Table.ofEntries_mapValues, Table.ofEntries_of_nodup distinct,
      requiredNames_siteText only marked]
    exact List.map_map
  rw [parameters]
  refine List.forall₂_map_right_iff.mpr (List.forall₂_same.mpr fun entry member => ?_)
  have inside : entry.2.Marked := marked.properties entry member
  obtain ⟨fields, text, demands⟩ := siteText_demands entry.2 inside
  obtain ⟨_, same, placeless⟩ := siteText_placeless entry.2 inside
  obtain rfl := Json.object.inj (text.symm.trans same)
  rw [text]
  constructor
  case name => exact Table.get?_extend_of_not_mem fun present => placeless _ present (by decide)
  case place => exact Table.get?_extend_of_not_mem fun present => placeless _ present (by decide)
  case required =>
    refine (Table.get?_extend demands.distinct _ _).trans ?_
    rw [demands.required]
    unfold requirement
    split <;> rfl

def operationIn? (text : Json) (template : String) (method : Method) : Option Json :=
  ((text.field? "paths").bind (·.field? template)).bind (·.field? method.key)

/-- Where an operation has a form parameter, its request body is of one schema, and everything that is
written of the body is a form parameter for each property, which says of being required what it is to say. -/
def WritesForm (flag : NameSet → String × Schema → Json) (request? : Option RequestBody) (written : Json) :
    Prop :=
  (∃ parameter ∈ parametersOf written, parameter.field? "in" = some (string "formData")) →
    ∃ request body, request? = some request ∧ request.content ≠ [] ∧
      (∀ media ∈ request.content, media.schema = body) ∧
        List.Forall₂ (fun entry => FormField entry.1 (flag body.required entry)) body.properties
          (bodyParameters written)

theorem writesForm_operationText {operation : Operation} (regular : operation.Regular)
    (inside : ∀ site ∈ operation.bodySites, site.Marked)
    (distinct : ∀ request, operation.requestBody = some request → ∀ media ∈ request.content,
      (Table.keys media.schema.properties).Nodup) :
    WritesForm requirement operation.requestBody (operationText .v20 operation) := by
  rintro ⟨parameter, member, place⟩
  obtain ⟨-, written⟩ := parameters_operationText regular .v20 (inBody_of_listed regular inside)
  have among : parameter ∈ bodyParameters (operationText .v20 operation) :=
    List.mem_filter.mpr ⟨member, by unfold inBody; rw [place]; rfl⟩
  rw [written] at among ⊢
  unfold placement? at among ⊢
  cases present : operation.requestBody with
  | none =>
    rw [present] at among
    cases among
  | some request =>
    obtain ⟨content, body, filled, only, same⟩ := regular.uniform request present
    refine ⟨request, body, rfl, content, same, ?_⟩
    obtain ⟨media, rest, split⟩ := List.exists_cons_of_ne_nil content
    have first : media ∈ request.content := by rw [split]; exact List.mem_cons_self
    obtain rfl := same media first
    rw [present, Option.map_some, Option.elim_some, split, requestBody_cons] at among
    rw [Option.map_some, Option.elim_some, split, requestBody_cons]
    -- A body that is no form is one parameter in another place.
    by_cases form : (Dialect.isFormMime media.mime ||
        Dialect.hasFileProperty (siteText .v20 media.schema)) = true
    · rw [if_pos form]
      have marked := marked_of_mem_content inside present first
      exact formParameters_fields only filled (distinct request present media first) marked
    · rw [if_neg form] at among
      obtain rfl := List.mem_singleton.mp among
      simp [wholeBody, field?, Table.get?_insertSome, Table.get?_insert, Table.get?] at place

end Export

variable {config : Config} {catalog : Catalog} {routes : List RouteDescriptor}

/-- The operation of a place in a document of a built interface. -/
theorem operationIn?_eq {text : Json}
    (exported : Export.document .v20 (buildApi config { catalog } routes) = .ok text) {item : PathItem}
    (listed : item ∈ (buildApi config { catalog } routes).paths) {method : Method} {operation : Operation}
    (held : (method, operation) ∈ item.operations) :
    Export.operationIn? text item.template method = some (Export.operationText .v20 operation) := by
  have placed := draftOf_placed config { catalog } routes
  have distinct := Export.nodup_keys_methods (placed.collects listed).methods (Export.operationText .v20)
  have templates := placed.nodup_keys_items (Export.itemText .v20)
  have path : ((text.field? "paths").bind (·.field? item.template)) = some (Export.itemText .v20 item) := by
    rw [Export.field?_paths_items exported]
    exact Table.get?_of_mem templates (List.mem_map_of_mem listed)
  unfold Export.operationIn?
  rw [path]
  exact Table.get?_of_mem distinct (List.mem_map_of_mem held)

/-- No property of a request body is written twice. -/
theorem nodup_keys_requestBody {item : PathItem}
    (listed : item ∈ (buildApi config { catalog } routes).paths) {method : Method} {operation : Operation}
    (held : (method, operation) ∈ item.operations) {request : RequestBody}
    (present : operation.requestBody = some request) :
    ∀ media ∈ request.content, (Table.keys media.schema.properties).Nodup := by
  intro media stands
  have placed := draftOf_placed config { catalog } routes
  obtain ⟨before, route, -, ⟨id, rfl⟩, -⟩ := (placed.collects listed).last method operation held
  have built := (route.buildOperation_body config { catalog } (progressOf config { catalog } before)).2
  obtain ⟨body, made, rfl⟩ := Option.map_eq_some_iff.mp (built.symm.trans present)
  obtain ⟨mime, -, rfl⟩ := List.mem_map.mp stands
  exact Route.nodup_keys_body _ _ route made

theorem writesForm_of_listed {item : PathItem} (listed : item ∈ (buildApi config { catalog } routes).paths)
    {method : Method} {operation : Operation} (held : (method, operation) ∈ item.operations) :
    Export.WritesForm Export.requirement operation.requestBody (Export.operationText .v20 operation) := by
  have known : operation ∈ (buildApi config { catalog } routes).operations :=
    Api.mem_operations.mpr ⟨item, listed, method, held⟩
  have marked := (buildApi_marked config catalog routes).1
  refine Export.writesForm_operationText (buildApi_regular config { catalog } routes _ known) ?_ ?_
  · intro site used
    exact marked site (Api.mem_sites.mpr ⟨_, known, Operation.mem_sites.mpr (.inr used)⟩)
  · intro request present
    exact nodup_keys_requestBody listed held present

/-- Where the 2.0 document of a built interface has a form parameter, the body of the operation is written as
form parameters alone, one for each of its properties in their order. Each has the name of its property and
says whether the body requires it, unless the property itself demands names: then it has their list in that
place. -/
theorem buildApi_formFields (config : Config) (catalog : Catalog) (routes : List RouteDescriptor)
    {text : Json} (exported : Export.document .v20 (buildApi config { catalog } routes) = .ok text) :
    ∀ item ∈ (buildApi config { catalog } routes).paths, ∀ entry ∈ item.operations,
      ∃ written, Export.operationIn? text item.template entry.1 = some written ∧
        Export.WritesForm Export.requirement entry.2.requestBody written := by
  intro item listed entry held
  refine ⟨Export.operationText .v20 entry.2, ?_, ?_⟩
  · exact operationIn?_eq exported listed held
  · exact writesForm_of_listed listed held

/-- A route that takes a photo with a user whose name is required. -/
def photoRoute : RouteDescriptor where
  path := "/users"
  method := .post
  params :=
    [("photo", { type := some (.named "File") }),
      ("user[name]", { required := some true, documentation := { location := some "body" } })]

theorem photoRoute_separate : (buildApi {} {} [photoRoute]).Separate := by
  intro first listed
  obtain ⟨_, -, -, _, -, _, -, reaches⟩ := (mem_keys_definitions_iff {} [] [photoRoute] first).mp listed
  exact absurd reaches.mem_keys List.not_mem_nil

theorem buildApi_formFields_photo :
    ∃ text, Export.document .v20 (buildApi {} {} [photoRoute]) = .ok text ∧
      ∀ item ∈ (buildApi {} {} [photoRoute]).paths, ∀ entry ∈ item.operations,
        ∃ written, Export.operationIn? text item.template entry.1 = some written ∧
          Export.WritesForm Export.requirement entry.2.requestBody written := by
  have known := buildApi_known {} [] [photoRoute]
  obtain ⟨text, exported⟩ := (Export.document_of_known known .v20).mpr photoRoute_separate
  exact ⟨text, exported, buildApi_formFields {} [] [photoRoute] exported⟩

theorem photoRoute_body : ∃ body photo user,
    ((Route.buildParams {} [] photoRoute).run {}).1.1 = some body ∧
      body.properties = [("photo", photo), ("user", user)] ∧ photo.type = some .file ∧
        user.demands = ["name"] := by
  obtain ⟨body, photo, user, made, properties, typed, unnamed, required⟩ : ∃ body photo user,
      ((Route.buildParams {} [] photoRoute).run {}).1.1 = some body ∧
        body.properties = [("photo", photo), ("user", user)] ∧ photo.type = some .file ∧
          user.canonicalName = none ∧ user.required = ["name"] := ⟨_, _, _, rfl, rfl, rfl, rfl, rfl⟩
  refine ⟨body, photo, user, made, properties, typed, ?_⟩
  rw [Schema.demands_unfold, unnamed, required]
  rfl

/-- The interface of the route has an operation with form parameters, and one of their properties demands
names. -/
theorem photoRoute_form : ∃ item ∈ (buildApi {} {} [photoRoute]).paths, ∃ entry ∈ item.operations,
    ∃ photo user : Schema, user.demands = ["name"] ∧
      (∀ request, entry.2.requestBody = some request → ∀ media ∈ request.content,
        media.schema.properties = [("photo", photo), ("user", user)]) ∧
      ∃ parameter ∈ Export.parametersOf (Export.operationText .v20 entry.2),
        parameter.field? "in" = some (string "formData") := by
  have visible : photoRoute ∈ visibleRoutes [photoRoute] := List.mem_singleton.mpr rfl
  obtain ⟨item, listed, template⟩ := (draftOf_placed {} {} [photoRoute]).exists_item visible
  have collects : item.Collects {} [] [photoRoute] := (draftOf_placed {} {} [photoRoute]).collects listed
  have here : photoRoute.place {} = (item.template, .post) := template ▸ rfl
  obtain ⟨⟨_, operation⟩, held, rfl⟩ := List.mem_map.mp ((collects.method_iff .post).mpr ⟨_, visible, here⟩)
  obtain ⟨before, route, last, ⟨id, rfl⟩, -⟩ := collects.last _ operation held
  obtain ⟨after, split, -⟩ := last.split
  obtain ⟨rfl, rfl⟩ : before = [] ∧ route = photoRoute := by
    rcases before with _ | ⟨first, rest⟩
    · exact ⟨rfl, (List.cons.inj split).1.symm⟩
    · simp at split
  obtain ⟨body, photo, user, made, properties, typed, demanded⟩ := photoRoute_body
  refine ⟨item, listed, _, held, photo, user, demanded, fun request present media stands => ?_, ?_⟩
  · have built := (photoRoute.buildOperation_body {} {} {}).2
    rw [made] at built
    obtain rfl := Option.some.inj (built.symm.trans present)
    obtain ⟨mime, -, rfl⟩ := List.mem_map.mp stands
    exact properties
  · have file : hasFile body = true :=
      hasFile_iff.mpr ⟨("photo", photo), by rw [properties]; exact List.mem_cons_self, typed⟩
    have keys : Table.keys body.properties = ["photo", "user"] := by rw [properties]; rfl
    have undeclared : photoRoute.consumes = [] := rfl
    have unset : ({} : Config).consumes = [] := rfl
    have started : ((Route.buildParams {} [] photoRoute).run (session [] []).2).1.1 = some body := made
    have form := takesForm_of_hasFile undeclared unset started file (some id)
    rw [keys] at form
    obtain ⟨parameter, rest, written, -⟩ := List.map_eq_cons_iff.mp form.names
    have among := written ▸ List.mem_cons_self
    exact ⟨parameter, (List.mem_filter.mp among).1, form.places parameter among⟩

/-- A form parameter does not always say whether the body requires its property. -/
theorem demanded_names_hide_required : ¬∀ (config : Config) (catalog : Catalog)
    (routes : List RouteDescriptor) (text : Json),
      Export.document .v20 (buildApi config { catalog } routes) = .ok text →
        ∀ item ∈ (buildApi config { catalog } routes).paths, ∀ entry ∈ item.operations,
          ∀ written, Export.operationIn? text item.template entry.1 = some written →
            Export.WritesForm Export.requiredFlag entry.2.requestBody written := by
  intro flags
  have known := buildApi_known {} [] [photoRoute]
  obtain ⟨text, exported⟩ := (Export.document_of_known known .v20).mpr photoRoute_separate
  obtain ⟨item, listed, entry, held, photo, user, demanded, properties, form⟩ := photoRoute_form
  have found := operationIn?_eq exported listed held
  obtain ⟨request, body, present, content, same, claimed⟩ :=
    flags {} [] [photoRoute] text exported item listed entry held _ found form
  obtain ⟨request', body', present', -, same', written⟩ := writesForm_of_listed listed held form
  obtain rfl := Option.some.inj (present.symm.trans present')
  obtain ⟨media, stands⟩ := List.exists_mem_of_ne_nil _ content
  obtain rfl := (same media stands).symm.trans (same' media stands)
  -- The second parameter is the one of the user.
  have pairs : body.properties = [("photo", photo), ("user", user)] :=
    same media stands ▸ properties request present media stands
  rw [pairs] at claimed written
  obtain ⟨_, _, -, claimed, split⟩ := List.forall₂_cons_left_iff.mp claimed
  obtain ⟨second, _, said, -, rfl⟩ := List.forall₂_cons_left_iff.mp claimed
  rw [split] at written
  cases written with
  | cons _ written =>
    cases written with
    | cons read _ =>
      have flag := said.required.symm.trans read.required
      unfold Export.requirement at flag
      rw [if_neg (by rw [demanded]; exact List.cons_ne_nil _ _)] at flag
      exact Json.noConfusion (Option.some.inj flag)

end ApiDoc
