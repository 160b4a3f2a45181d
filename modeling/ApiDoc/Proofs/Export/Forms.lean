import ApiDoc.Proofs.Export.Counterparts

/-! # Bodies with files

A route that declares no media types gets those that its body needs: the one of forms with files if a
property of the body is a file, and in 2.0 its body is then written as form parameters
(`buildOperation_forms`). A file at any other place in the body is not seen, neither in the items of an
array nor in an object nor among alternatives, so a route that takes several files is no form
(`array_of_files_is_no_form`).
-/

namespace ApiDoc

open Schema Json

variable {config : Config} {lexicon : Lexicon} {catalog : Catalog} {route : RouteDescriptor}

/-- A file stands in the schema, at any depth. -/
def Schema.HoldsFile (schema : Schema) : Prop := ∃ node : Schema, Occurs node schema ∧ node.type = some .file

theorem hasFile_iff {body : Schema} :
    hasFile body = true ↔ ∃ entry ∈ body.properties, entry.2.type = some .file := by
  unfold hasFile Table.values
  rw [List.any_map, List.any_eq_true]
  exact exists_congr fun entry => and_congr_right fun _ => Route.isType_iff

/-- A body with a file among its properties holds a file. -/
theorem holdsFile_of_hasFile {body : Schema} (file : hasFile body = true) : body.HoldsFile := by
  obtain ⟨entry, listed, typed⟩ := hasFile_iff.mp file
  exact ⟨entry.2, .property listed .self, typed⟩

/-- What a body needs where nothing is declared. -/
theorem consumesOf_of_undeclared (undeclared : route.consumes = []) (unset : config.consumes = [])
    (body? : Option Schema) : route.consumesOf config body? = body?.elim [] fun body =>
      if hasFile body then [multipartMediaType] else if route.declaresForm then [formMediaType] else [] := by
  have none : orElse route.consumes config.consumes = [] := by rw [undeclared, unset]; rfl
  unfold RouteDescriptor.consumesOf
  rw [none]
  cases body? <;> rfl

theorem multipart_mem_iff (undeclared : route.consumes = []) (unset : config.consumes = [])
    {body? : Option Schema} : multipartMediaType ∈ route.consumesOf config body? ↔
      ∃ body, body? = some body ∧ hasFile body = true := by
  have apart : multipartMediaType ∉ [formMediaType] := by decide
  rw [consumesOf_of_undeclared undeclared unset]
  cases body? with
  | none => simp
  | some body =>
    cases file : hasFile body <;> cases route.declaresForm <;> simp [file, apart]

theorem consumesOf_eq_multipart_iff (undeclared : route.consumes = []) (unset : config.consumes = [])
    {body? : Option Schema} : route.consumesOf config body? = [multipartMediaType] ↔
      ∃ body, body? = some body ∧ hasFile body = true := by
  constructor
  · intro whole
    exact (multipart_mem_iff undeclared unset).mp (by rw [whole]; exact List.mem_cons_self)
  · rintro ⟨body, rfl, file⟩
    rw [consumesOf_of_undeclared undeclared unset]
    exact if_pos file

/-- The operation of a route has the media types and the request body that its parameters make. -/
theorem RouteDescriptor.buildOperation_body (config : Config) (lexicon : Lexicon) (route : RouteDescriptor)
    (progress : Progress) :
    let body? := ((Route.buildParams lexicon config.paramAliases route).run progress).1.1
    let operation := ((route.buildOperation config lexicon).run progress).1
    operation.consumes = route.consumesOf config body? ∧
      operation.requestBody = body?.map (route.requestBodyOf (route.consumesOf config body?)) := by
  unfold buildOperation
  exact ⟨Operation.insertResponses_keeps (·.consumes) (fun _ _ => rfl) _ _,
    Operation.insertResponses_keeps (·.requestBody) (fun _ _ => rfl) _ _⟩

/-- A build that has made calls goes on with marked answers. -/
theorem onTheWay_behind (catalog : Catalog) (calls : List Call) (tokens : List TypeToken) :
    ∃ final, OnTheWay catalog (fun _ => Schema.Marked) final tokens (session catalog calls).2 := by
  obtain ⟨history, earlier⟩ := session_history catalog calls
  have coherent := coherent_of_run earlier.run Progress.coherent_empty
  obtain ⟨-, definitions⟩ := earlier.marked fun entry member => by cases member
  obtain ⟨later, answers, next, ran, derived⟩ := session_derived (tokens.map .resolve) coherent
  exact ⟨next, coherent, answers, ran, derived.forall₂_tokens coherent (derived.marked definitions).1⟩

theorem Route.buildParams_marked (aliases : Table String String) (route : RouteDescriptor) (catalog : Catalog)
    (calls : List Call) {body : Schema}
    (made : ((buildParams { catalog } aliases route).run (session catalog calls).2).1.1 = some body) :
    body.Marked := by
  obtain ⟨final, here⟩ :=
    onTheWay_behind catalog calls (headerTokens route.headers ++ paramTokens route.params ++ [])
  have resolves := resolves_onTheWay catalog (fun _ => Schema.Marked) final
  obtain ⟨built, next, other, next', ran, -, related, -⟩ :=
    (buildParams_lockstep (marked_objectLaw.siteLaw route) aliases).run resolves ⟨rfl, here⟩
  rw [ran] at made
  obtain ⟨_, -, -, -, marked⟩ := exists_of_eq_some related.body made
  exact marked

/-- No property of a body is written twice. -/
theorem Route.nodup_draftLaw (names : Names) :
    DraftLaw names fun draft => (Table.keys draft.body.properties).Nodup where
  start := List.nodup_nil
  put _ _ _ distinct := distinct
  addProperty _ _ _ _ distinct := Table.nodup_keys_insert distinct _ _
  insertNested draft segments leaf required distinct := by
    rcases segments with _ | ⟨segment, _ | ⟨next, rest⟩⟩
    · exact distinct
    · dsimp only
      rw [insertNested]
      unfold placeLeaf
      dsimp only
      split
      · split <;> exact Table.nodup_keys_insert distinct _ _
      · exact Table.nodup_keys_insert distinct _ _
    · exact Table.nodup_keys_insert distinct _ _

theorem Route.nodup_keys_body (lexicon : Lexicon) (aliases : Table String String) (route : RouteDescriptor)
    {progress : Progress} {body : Schema}
    (made : ((buildParams lexicon aliases route).run progress).1.1 = some body) :
    (Table.keys body.properties).Nodup := by
  obtain ⟨draft, distinct, built⟩ := (nodup_draftLaw _).buildParams lexicon aliases route rfl progress
  rw [built] at made
  unfold Draft.finish at made
  dsimp only at made
  split at made
  · cases made
  · exact Option.some.inj made ▸ distinct

namespace Export

/-- The body of the operation is written as form parameters, one for each of the names. -/
structure TakesForm (names : List String) (operation : Json) : Prop where
  places : ∀ parameter ∈ bodyParameters operation, parameter.field? "in" = some (string "formData")
  names : (bodyParameters operation).map (·.field? "name") = names.map fun name => some (string name)

/-- A body of a form media type is written as form parameters. -/
theorem takesForm_operationText {operation : Operation} (regular : operation.Regular) {request : RequestBody}
    (present : operation.requestBody = some request) {media : MediaType} {rest : List MediaType}
    (contents : request.content = media :: rest) (form : Dialect.isFormMime media.mime = true)
    (only : media.schema.OnlyProperties) (nonempty : media.schema.properties ≠ [])
    (marked : media.schema.Marked) :
    TakesForm (Table.keys (Table.ofEntries media.schema.properties)) (operationText .v20 operation) := by
  have placed : placement? .v20 operation =
      some (.parameters (Dialect.formParameters (siteText .v20 media.schema))) := by
    unfold placement?
    rw [present, Option.map_some, contents, requestBody_cons, if_pos (by rw [form, Bool.true_or])]
  obtain ⟨places, names⟩ := formParameters_outlines only nonempty marked
  have listed : (placement? .v20 operation).elim [] (·.listed) =
      Dialect.formParameters (siteText .v20 media.schema) := by
    rw [placed]
    rfl
  have inside : ∀ parameter ∈ (placement? .v20 operation).elim [] (·.listed), inBody parameter = true := by
    intro parameter member
    rw [listed] at member
    unfold inBody
    rw [places parameter member]
    rfl
  obtain ⟨-, all⟩ := parameters_operationText regular .v20 inside
  rw [listed] at all
  exact ⟨all ▸ places, all ▸ names⟩

end Export

/-- In 2.0 the body of a route with a file among its properties is written as form parameters. -/
theorem takesForm_of_hasFile (undeclared : route.consumes = []) (unset : config.consumes = [])
    {calls : List Call} {body : Schema}
    (made : ((Route.buildParams { catalog } config.paramAliases route).run (session catalog calls).2).1.1 =
      some body)
    (file : hasFile body = true) (operationId : Option String) :
    let operation := ((route.buildOperation config { catalog }).run (session catalog calls).2).1
    Export.TakesForm (Table.keys body.properties)
      (Export.operationText .v20 { operation with operationId }) := by
  intro operation
  -- The id of an operation has no part in its regularity.
  have built : operation.Regular := route.buildOperation_regular config { catalog } _
  have regular : Operation.Regular { operation with operationId } :=
    ⟨⟨built.own, built.parameters, built.responses⟩, built.outside, built.uniform⟩
  have media : route.consumesOf config (some body) = [multipartMediaType] :=
    (consumesOf_eq_multipart_iff undeclared unset).mpr ⟨body, rfl, file⟩
  have present : operation.requestBody = some (route.requestBodyOf [multipartMediaType] body) := by
    have request := (route.buildOperation_body config { catalog } (session catalog calls).2).2
    rw [made, Option.map_some, media] at request
    exact request
  obtain ⟨nonempty, only⟩ := (Route.buildParams_regular config.paramAliases route _).1 body made
  have marked : body.Marked := Route.buildParams_marked config.paramAliases route catalog calls made
  have distinct : (Table.keys body.properties).Nodup := Route.nodup_keys_body _ _ route made
  have form := Export.takesForm_operationText regular present rfl rfl only nonempty marked
  rwa [Table.ofEntries_of_nodup distinct] at form

/-- Where neither a route nor the configuration declares media types, the operation takes the one of forms
with files exactly if a property of its body is a file, and whatever interface it stands in, its body is
written in 2.0 as form parameters then. It does not take that media type if there is no file in its body
at any depth. -/
theorem buildOperation_forms (config : Config) (catalog : Catalog) (calls : List Call)
    (route : RouteDescriptor) (undeclared : route.consumes = []) (unset : config.consumes = []) :
    let progress := (session catalog calls).2
    let body? := ((Route.buildParams { catalog } config.paramAliases route).run progress).1.1
    let operation := ((route.buildOperation config { catalog }).run progress).1
    (operation.consumes = [multipartMediaType] ↔
        ∃ body, body? = some body ∧ ∃ entry ∈ body.properties, entry.2.type = some .file) ∧
      (∀ body, body? = some body → (∃ entry ∈ body.properties, entry.2.type = some .file) →
        ∀ api operationId state text next,
          (Export.operation .v20 api { operation with operationId }).run state = .ok (text, next) →
            Export.TakesForm (Table.keys body.properties) text) ∧
        ((∀ body, body? = some body → ¬body.HoldsFile) → multipartMediaType ∉ operation.consumes) := by
  intro progress body? operation
  obtain ⟨consumes, request⟩ := route.buildOperation_body config { catalog } progress
  refine ⟨?_, fun body made file api operationId state text next ran => ?_, fun none takes => ?_⟩
  · rw [consumes, consumesOf_eq_multipart_iff undeclared unset]
    exact exists_congr fun body => and_congr_right fun _ => hasFile_iff
  · rw [(Export.operation_visits _).answer_eq ran]
    exact takesForm_of_hasFile undeclared unset made (hasFile_iff.mpr file) operationId
  · rw [consumes] at takes
    obtain ⟨body, made, file⟩ := (multipart_mem_iff undeclared unset).mp takes
    exact none body made (holdsFile_of_hasFile file)

def imageRoute : RouteDescriptor where
  path := "/images"
  method := .post
  params :=
    [("image", { type := some (.named "File") }),
      ("caption", { documentation := { location := some "form" } })]

theorem buildOperation_forms_image : imageRoute.consumes = [] ∧ ({} : Config).consumes = [] ∧
    let operation := ((imageRoute.buildOperation {} {}).run {}).1
    operation.consumes = [multipartMediaType] ∧
      ∃ text next, (Export.operation .v20 (buildApi {} {} [imageRoute]) operation).run {} = .ok (text, next) ∧
        Export.TakesForm ["image", "caption"] text := by
  obtain ⟨body, image, caption, made, properties, typed⟩ : ∃ body image caption,
      ((Route.buildParams {} [] imageRoute).run {}).1.1 = some body ∧
        body.properties = [("image", image), ("caption", caption)] ∧ image.type = some .file :=
    ⟨_, _, _, rfl, rfl, rfl⟩
  have keys : Table.keys body.properties = ["image", "caption"] := by rw [properties]; rfl
  have file : ∃ entry ∈ body.properties, entry.2.type = some .file :=
    ⟨("image", image), by rw [properties]; exact List.mem_cons_self, typed⟩
  obtain ⟨takes, form, -⟩ := buildOperation_forms {} [] [] imageRoute rfl rfl
  refine ⟨rfl, rfl, takes.mpr ⟨body, made, file⟩, ?_⟩
  obtain ⟨text, next, ran⟩ : ∃ text next, (Export.operation .v20 (buildApi {} {} [imageRoute])
      ((imageRoute.buildOperation {} {}).run {}).1).run {} = .ok (text, next) := ⟨_, _, rfl⟩
  exact ⟨text, next, ran, keys ▸ form body made file _ _ _ _ _ ran⟩

def filesRoute : RouteDescriptor where
  path := "/uploads"
  method := .post
  params := [("files", { type := some (.arrayOf (.named "File")), documentation := { location := some "body" } })]

/-- A body with files that stand in an array is no form. -/
theorem array_of_files_is_no_form : ¬∀ (config : Config) (catalog : Catalog) (route : RouteDescriptor),
    route.consumes = [] → config.consumes = [] → ∀ (progress : Progress) (body : Schema),
      ((Route.buildParams { catalog } config.paramAliases route).run progress).1.1 = some body →
        body.HoldsFile → ((route.buildOperation config { catalog }).run progress).1.consumes =
          [multipartMediaType] := by
  intro forms
  obtain ⟨body, files, item, made, listed, items, typed⟩ : ∃ body files item,
      ((Route.buildParams {} [] filesRoute).run {}).1.1 = some body ∧ body.properties = [("files", files)] ∧
        files.items = some item ∧ item.type = some .file := ⟨_, _, _, rfl, rfl, rfl, rfl⟩
  have entry : ("files", files) ∈ body.properties := by rw [listed]; exact List.mem_cons_self
  have holds : body.HoldsFile := ⟨item, .property entry (.items items .self), typed⟩
  have takes := forms {} [] filesRoute rfl rfl {} body made holds
  have declares : ((filesRoute.buildOperation {} {}).run {}).1.consumes = [] := rfl
  rw [declares] at takes
  cases takes

end ApiDoc
