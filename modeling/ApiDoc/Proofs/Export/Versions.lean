import ApiDoc.Proofs.Build.Interface
import ApiDoc.Proofs.Export.Nullable
import ApiDoc.Proofs.Export.Outcome

/-! # Documents in 3.0 and in 3.1

An interface has a document in 3.0 if it has one in 3.1, and the same error otherwise: both walks visit
the same positions. The documents have the same keys in the same order everywhere, and differ in the
version and in the forms of null of the schemas that operations and definitions use
(`document_versions`).
-/

namespace ApiDoc

/-- The extensions stand under keys that start with `x-`. -/
def MarkedKeys (extensions : Table String Json) : Prop :=
  ∀ key ∈ Table.keys extensions, ∃ rest, key = "x-" ++ rest

/-- The extensions of an operation, apart from those of its schemas, stand under keys that start with
`x-`. -/
structure Operation.Marked (operation : Operation) : Prop where
  own : MarkedKeys operation.extensions
  parameters : ∀ parameter ∈ operation.parameters, MarkedKeys parameter.extensions
  responses : ∀ entry ∈ operation.responses, MarkedKeys entry.2.extensions

namespace Export

open Json

/-- What uses a schema under the key `schema`. -/
def UsesSchema (site : Schema) : Json → Json → Prop := Agree [("schema", Sited site)]

def BodyVersions (body : RequestBody) : Json → Json → Prop :=
  Agree [("content", Columns (body.content.map fun media => (media.mime, media)) fun media =>
    UsesSchema media.schema)]

def ResponseVersions (response : Response) : Json → Json → Prop :=
  Agree [("headers", Columns response.headers fun header => UsesSchema header.schema),
    ("content", RelatedFields fun _ => response.schema.elim Eq UsesSchema)]

def OperationVersions (operation : Operation) : Json → Json → Prop :=
  Agree [("parameters", Rows (operation.parameters.filter fun parameter => parameter.location ≠ .body)
      fun parameter => UsesSchema parameter.schema),
    ("requestBody", fun left right => ∃ body, operation.requestBody = some body ∧
      BodyVersions body left right),
    ("responses", Columns operation.responses ResponseVersions)]

def PathVersions (item : PathItem) : Json → Json → Prop :=
  Columns (item.operations.map fun entry => (entry.1.key, entry.2)) OperationVersions

/-- A document in 3.0 and in 3.1, with definitions of names. -/
def DocumentVersions (api : Api) (definitions : List (String × Schema)) : Json → Json → Prop :=
  Agree [("openapi", fun left right => left = string "3.0.3" ∧ right = string "3.1.0"),
    ("paths", Columns (api.paths.map fun item => (item.template, item)) PathVersions),
    ("components", Agree [("schemas",
      Columns (definitions.map fun entry => (sanitize entry.1, entry.2)) fun body =>
        Sited (unnamed body))])]

variable {parts : Table String (Json → Json → Prop)} {fields fields' : Fields}

/-- Extensions agree where nothing else stands under keys that start with `x-`. -/
theorem extend_agree (related : Table.Related (Under parts) fields fields') {extensions : Table String Json}
    (marked : MarkedKeys extensions) (unmarked : ∀ key ∈ Table.keys parts, key.toList.head? ≠ some 'x') :
    Agree parts (object (fields.extend extensions)) (object (fields'.extend extensions)) := by
  refine ⟨_, _, rfl, rfl, related.extend (List.forall₂_same.mpr fun entry member => ⟨rfl, ?_⟩)⟩
  refine .same (Table.get?_eq_none_iff.mpr fun present => ?_) entry.2
  obtain ⟨rest, same⟩ := marked entry.1 (List.mem_map_of_mem member)
  exact ne_extension (unmarked entry.1 present) same

theorem parameterText_versions {parameter : Parameter} (shown : parameter.location ≠ .body)
    (inside : parameter.schema.Marked) (marked : MarkedKeys parameter.extensions) :
    UsesSchema parameter.schema (parameterText .v30 parameter) (parameterText .v31 parameter) := by
  have sited := siteText_sited parameter.schema inside
  unfold UsesSchema parameterText Dialect.parameter?
  dsimp only
  rw [if_neg shown, if_neg shown]
  refine extend_agree ?_ marked (by decide : ∀ key ∈ ["schema"], key.toList.head? ≠ some 'x')
  have named : Table.Related (Under [("schema", Sited parameter.schema)])
      [("name", string parameter.name), ("in", string parameter.location.name)]
      [("name", string parameter.name), ("in", string parameter.location.name)] :=
    .cons ⟨rfl, .same rfl _⟩ (.cons ⟨rfl, .same rfl _⟩ .nil)
  have described := named.insertSameSome "description" rfl (parameter.description.map string)
  have required := described.insertSame "required" rfl (bool parameter.required)
  have withSchema := required.insertPart "schema" rfl sited
  cases parameter.collectionFormat with
  | none => exact withSchema.insertSameSome "example" rfl parameter.exampleValue
  | some format =>
    have styled := withSchema.insertSame "style" rfl (string (Dialect.styleOf format).1)
    have exploded := styled.insertSame "explode" rfl (bool (Dialect.styleOf format).2)
    exact exploded.insertSameSome "example" rfl parameter.exampleValue

/-- In 3.0 and in 3.1 the parameters are shown that do not travel in the body. -/
theorem parameterTexts_versions {all : List Parameter} (inside : ∀ parameter ∈ all, parameter.schema.Marked)
    (marked : ∀ parameter ∈ all, MarkedKeys parameter.extensions) :
    Rows (all.filter fun parameter => parameter.location ≠ .body) (fun parameter => UsesSchema parameter.schema)
      (array (parameterTexts .v30 all)) (array (parameterTexts .v31 all)) := by
  have shown (dialect : Dialect) (modern : dialect ≠ .v20) (parameter : Parameter) :
      (dialect.parameter? parameter (siteText dialect parameter.schema)).isSome =
        decide (parameter.location ≠ .body) := by
    unfold Dialect.parameter?
    by_cases inBody : parameter.location = .body <;> cases dialect <;> simp_all
  simp only [parameterTexts_eq_map, shown .v30 (by decide), shown .v31 (by decide)]
  refine rows_map fun parameter member => ?_
  obtain ⟨listed, apart⟩ := List.mem_filter.mp member
  exact parameterText_versions (of_decide_eq_true apart) (inside _ listed) (marked _ listed)

theorem mediaObject_versions {site : Schema} (inside : site.Marked) (exampleValue : Option Json) :
    UsesSchema site (Dialect.mediaObject (siteText .v30 site) exampleValue)
      (Dialect.mediaObject (siteText .v31 site) exampleValue) := by
  have start : Table.Related (Under [("schema", Sited site)]) [("schema", siteText .v30 site)]
      [("schema", siteText .v31 site)] := .cons ⟨rfl, .here rfl (siteText_sited site inside)⟩ .nil
  exact ⟨_, _, rfl, rfl, start.insertSameSome "example" rfl exampleValue⟩

theorem headerObject_versions {header : Header} (inside : header.schema.Marked) :
    UsesSchema header.schema
      (Dialect.headerObject .v30 ⟨header.description, siteText .v30 header.schema⟩)
      (Dialect.headerObject .v31 ⟨header.description, siteText .v31 header.schema⟩) := by
  have start : Table.Related (Under [("schema", Sited header.schema)]) [] [] := .nil
  have described := start.insertSameSome "description" rfl (header.description.map string)
  exact ⟨_, _, rfl, rfl, described.insertPart "schema" rfl (siteText_sited header.schema inside)⟩

/-- What the contents of a body render to under their types. -/
def contentText (dialect : Dialect) (body : RequestBody) : Json :=
  object (Table.ofEntries (Table.mapValues
    (fun media => Dialect.mediaObject (siteText dialect media.schema) media.exampleValue)
    (body.content.map fun media => (media.mime, media))))

theorem contentText_eq (dialect : Dialect) (body : RequestBody) :
    object (Table.ofEntries ((mediaTexts dialect body.content).map fun media =>
      (media.mime, Dialect.mediaObject media.schema media.exampleValue))) = contentText dialect body := by
  unfold contentText mediaTexts Table.mapValues
  rw [List.map_map, List.map_map]
  rfl

theorem requestBody_versions {body : RequestBody} (inside : ∀ media ∈ body.content, media.schema.Marked) :
    ∃ left right,
      Dialect.requestBody .v30 body (mediaTexts .v30 body.content) = .requestBody left ∧
        Dialect.requestBody .v31 body (mediaTexts .v31 body.content) = .requestBody right ∧
          BodyVersions body left right := by
  let parts : Table String (Json → Json → Prop) :=
    [("content", Columns (body.content.map fun media => (media.mime, media)) fun media =>
      UsesSchema media.schema)]
  have content : Columns (body.content.map fun media => (media.mime, media))
      (fun media => UsesSchema media.schema) (contentText .v30 body) (contentText .v31 body) := by
    refine columns_map fun mime media member => ?_
    obtain ⟨_, listed, same⟩ := List.mem_map.mp member
    cases same
    exact mediaObject_versions (inside media listed) media.exampleValue
  have start : Table.Related (Under parts) [] [] := .nil
  have described := start.insertSameSome "description" rfl (body.description.map string)
  have withContent := described.insertPart "content" rfl content
  rw [← contentText_eq, ← contentText_eq] at withContent
  refine ⟨_, _, rfl, rfl, _, _, rfl, rfl, ?_⟩
  exact .ite _ (fun _ => withContent.insertSame "required" rfl (bool true)) fun _ => withContent

theorem responseText_versions {response : Response} (inside : ∀ site ∈ response.sites, site.Marked)
    (marked : MarkedKeys response.extensions) (produces : List String) :
    ResponseVersions response (responseText .v30 produces response)
      (responseText .v31 produces response) := by
  let parts : Table String (Json → Json → Prop) :=
    [("headers", Columns response.headers fun header => UsesSchema header.schema),
      ("content", RelatedFields fun _ => response.schema.elim Eq UsesSchema)]
  let text (dialect : Dialect) (header : Header) : Json :=
    dialect.headerObject ⟨header.description, siteText dialect header.schema⟩
  have shown (dialect : Dialect) : ((headerTexts dialect response.headers).map fun entry =>
      (entry.1, dialect.headerObject entry.2)) = Table.mapValues (text dialect) response.headers := by
    unfold headerTexts Table.mapValues
    rw [List.map_map]
    rfl
  have headers : Columns response.headers (fun header => UsesSchema header.schema)
      (object (Table.ofEntries (Table.mapValues (text .v30) response.headers)))
      (object (Table.ofEntries (Table.mapValues (text .v31) response.headers))) := by
    refine columns_map fun name header member => headerObject_versions (inside _ ?_)
    exact List.mem_append_right _ (List.mem_map_of_mem (List.mem_map_of_mem member))
  have body : RelatedFields (fun _ => response.schema.elim Eq UsesSchema)
      (object (Table.ofEntries (produces.map fun mime => (mime, Dialect.mediaObject
        ((response.schema.map (siteText .v30)).getD (object [])) response.examples))))
      (object (Table.ofEntries (produces.map fun mime => (mime, Dialect.mediaObject
        ((response.schema.map (siteText .v31)).getD (object [])) response.examples)))) := by
    refine relatedFields_constant ?_ produces
    cases used : response.schema with
    | none => rfl
    | some site =>
      have listed : site ∈ response.sites := List.mem_append_left _ (by simp [used])
      exact mediaObject_versions (inside site listed) response.examples
  have start : Table.Related (Under parts) [("description", string response.description)]
      [("description", string response.description)] := .cons ⟨rfl, .same rfl _⟩ .nil
  have withHeaders := start.insertPartObject "headers" rfl headers.isEmpty_eq headers
  rw [← shown, ← shown] at withHeaders
  unfold ResponseVersions responseText Dialect.response
  refine extend_agree ?_ marked (by decide : ∀ key ∈ ["headers", "content"], key.toList.head? ≠ some 'x')
  have either : (response.schema.map (siteText .v30)).isSome = (response.schema.map (siteText .v31)).isSome := by
    simp
  dsimp only
  rw [either]
  exact .ite _ (fun _ => withHeaders.insertPart "content" rfl body) fun _ => withHeaders

/-- The parameters and the body of an operation are written in one way. -/
theorem parametersAndBody_versions {operation : Operation} {parts : Table String (Json → Json → Prop)}
    (inside : ∀ site ∈ operation.sites, site.Marked) (marked : operation.Marked)
    {start start' : Fields} (related : Table.Related (Under parts) start start')
    (atParameters : Table.get? parts "parameters" = some (Rows
      (operation.parameters.filter fun parameter => parameter.location ≠ .body) fun parameter =>
        UsesSchema parameter.schema))
    (atBody : Table.get? parts "requestBody" = some fun left right =>
      ∃ body, operation.requestBody = some body ∧ BodyVersions body left right) :
    Table.Related (Under parts)
      (parametersAndBody .v30 start (parameterTexts .v30 operation.parameters)
        (operation.requestBody.map fun body => (body, mediaTexts .v30 body.content)))
      (parametersAndBody .v31 start' (parameterTexts .v31 operation.parameters)
        (operation.requestBody.map fun body => (body, mediaTexts .v31 body.content))) := by
  have rows := parameterTexts_versions
    (fun parameter member => inside _ (List.mem_append_left _ (List.mem_map_of_mem member)))
    marked.parameters
  have sameEmptiness : (parameterTexts .v30 operation.parameters).isEmpty =
      (parameterTexts .v31 operation.parameters).isEmpty := by
    obtain ⟨pairs, left, right, -⟩ := rows
    rw [array.inj left, array.inj right, List.isEmpty_map, List.isEmpty_map]
  have withParameters := related.insertPartList "parameters" atParameters sameEmptiness rows
  cases present : operation.requestBody with
  | none => exact withParameters
  | some body =>
    have ofBody : ∀ media ∈ body.content, media.schema.Marked := by
      intro media member
      refine inside _ (List.mem_append_right _ (List.mem_append_left _ ?_))
      rw [present]
      exact List.mem_map_of_mem member
    obtain ⟨left, right, inOld, inNew, versions⟩ := requestBody_versions ofBody
    unfold parametersAndBody
    simp only [Option.map_some, inOld, inNew]
    exact withParameters.insertPart "requestBody" atBody ⟨body, present, versions⟩

theorem operationText_versions {operation : Operation} (inside : ∀ site ∈ operation.sites, site.Marked)
    (marked : operation.Marked) :
    OperationVersions operation (operationText .v30 operation) (operationText .v31 operation) := by
  let produces := if operation.produces.isEmpty then ["application/json"] else operation.produces
  let parts : Table String (Json → Json → Prop) :=
    [("parameters", Rows (operation.parameters.filter fun parameter => parameter.location ≠ .body)
        fun parameter => UsesSchema parameter.schema),
      ("requestBody", fun left right => ∃ body, operation.requestBody = some body ∧
        BodyVersions body left right),
      ("responses", Columns operation.responses ResponseVersions)]
  have responses : Columns operation.responses ResponseVersions
      (object (responseTexts .v30 produces operation.responses []))
      (object (responseTexts .v31 produces operation.responses [])) := by
    refine columns_map fun code response member => ?_
    refine responseText_versions (fun site used => inside site ?_) (marked.responses _ member) produces
    refine List.mem_append_right _ (List.mem_append_right _ ?_)
    exact List.mem_flatMap.mpr ⟨response, List.mem_map_of_mem member, used⟩
  have start : Table.Related (Under parts) [] [] := .nil
  have named := start.insertSameSome "operationId" rfl (operation.operationId.map string)
  have summed := named.insertSameSome "summary" rfl (operation.summary.map string)
  have described := summed.insertSameSome "description" rfl (operation.description.map string)
  have tagged := described.insertSameList "tags" rfl (operation.tags.map string)
  have bodied := parametersAndBody_versions inside marked tagged rfl rfl
  have answered := bodied.insertPart "responses" rfl responses
  have deprecated := Table.Related.ite (operation.deprecated = true)
    (fun _ => answered.insertSame "deprecated" rfl (bool true)) fun _ => answered
  have secured := deprecated.insertSameList "security" rfl (operation.security.map securityObject)
  exact extend_agree secured marked.own
    (by decide : ∀ key ∈ ["parameters", "requestBody", "responses"], key.toList.head? ≠ some 'x')

variable {api : Api}

theorem operationTexts_eq_ofEntries (dialect : Dialect) (operations : Table Method Operation) :
    operationTexts dialect operations [] = Table.ofEntries (Table.mapValues (operationText dialect)
      (operations.map fun entry => (entry.1.key, entry.2))) := by
  rw [Table.mapValues_map]
  rfl

theorem pathTexts_eq_ofEntries (dialect : Dialect) (paths : List PathItem) :
    pathTexts dialect paths [] = Table.ofEntries (Table.mapValues
      (fun item => object (operationTexts dialect item.operations []))
      (paths.map fun item => (item.template, item))) := by
  rw [Table.mapValues_map]
  rfl

theorem pathTexts_versions (inside : ∀ site ∈ api.sites, site.Marked)
    (marked : ∀ operation ∈ api.operations, operation.Marked) :
    Columns (api.paths.map fun item => (item.template, item)) PathVersions
      (object (pathTexts .v30 api.paths [])) (object (pathTexts .v31 api.paths [])) := by
  rw [pathTexts_eq_ofEntries, pathTexts_eq_ofEntries]
  refine columns_map fun template item member => ?_
  obtain ⟨_, listed, same⟩ := List.mem_map.mp member
  cases same
  rw [operationTexts_eq_ofEntries, operationTexts_eq_ofEntries]
  refine columns_map fun key operation member => ?_
  obtain ⟨⟨method, held⟩, stands, same⟩ := List.mem_map.mp member
  obtain ⟨rfl, rfl⟩ := Prod.mk.inj same
  have listedToo : held ∈ api.operations := Api.mem_operations.mpr ⟨item, listed, method, stands⟩
  exact operationText_versions (fun site used => inside site (Api.mem_sites.mpr ⟨held, listedToo, used⟩))
    (marked held listedToo)

/-- Definitions with different sanitized names are written in one way. -/
theorem defined_versions {visits : List Visit} (inside : ∀ entry ∈ begun visits, entry.2.Marked)
    (distinct : ((begun visits).map fun entry => sanitize entry.1).Nodup) :
    Columns ((begun visits).map fun entry => (sanitize entry.1, entry.2)) (fun body => Sited (unnamed body))
      (object (defined .v30 visits)) (object (defined .v31 visits)) := by
  have written (dialect : Dialect) : defined dialect visits = Table.ofEntries (Table.mapValues
      (fun body => object (plainBody dialect body))
      ((begun visits).map fun entry => (sanitize entry.1, entry.2))) := by
    rw [Table.ofEntries_of_nodup]
    · rw [Table.mapValues_map]
      rfl
    · rw [Table.keys_mapValues, Table.keys_map]
      exact distinct
  rw [written, written]
  refine columns_map fun key body member => ?_
  obtain ⟨entry, listed, same⟩ := List.mem_map.mp member
  cases same
  exact plainBody_sited _ (inside entry listed)

theorem documentText_versions {definitions : List (String × Schema)} {left right : Fields}
    (inside : ∀ site ∈ api.sites, site.Marked)
    (marked : ∀ operation ∈ api.operations, operation.Marked)
    (related : Columns (definitions.map fun entry => (sanitize entry.1, entry.2))
      (fun body => Sited (unnamed body)) (object left) (object right)) :
    DocumentVersions api definitions (documentText .v30 api left) (documentText .v31 api right) := by
  let inComponents : Table String (Json → Json → Prop) := [("schemas",
    Columns (definitions.map fun entry => (sanitize entry.1, entry.2)) fun body => Sited (unnamed body))]
  let parts : Table String (Json → Json → Prop) :=
    [("openapi", fun left right => left = string "3.0.3" ∧ right = string "3.1.0"),
      ("paths", Columns (api.paths.map fun item => (item.template, item)) PathVersions),
      ("components", Agree inComponents)]
  have start : Table.Related (Under parts)
      [("openapi", string "3.0.3"), ("info", Dialect.infoBlock api)]
      [("openapi", string "3.1.0"), ("info", Dialect.infoBlock api)] :=
    .cons ⟨rfl, .here rfl ⟨rfl, rfl⟩⟩ (.cons ⟨rfl, .same rfl _⟩ .nil)
  have head := start.insertSameList "servers" rfl
    ((Dialect.serverUrls api).map fun url => object [("url", string url)])
  have tagged := head.insertSameList "tags" rfl (api.tags.map tagObject)
  have withPaths := tagged.insertPart "paths" rfl (pathTexts_versions inside marked)
  have noComponents : Table.Related (Under inComponents) [] [] := .nil
  have schemas := noComponents.insertPartObject "schemas" rfl related.isEmpty_eq related
  have components := schemas.insertSameObject "securitySchemes" rfl api.securitySchemes
  exact ⟨_, _, rfl, rfl, withPaths.insertPartObject "components" rfl components.isEmpty_eq
    ⟨_, _, rfl, rfl, components⟩⟩

/-- The walk goes one way in 3.0 and in 3.1. -/
theorem walkStep_v31 {agenda next : Agenda} {one : Visit} (move : WalkStep .v30 api agenda one next) :
    WalkStep .v31 api agenda one next := by
  have sameParts (schema : Schema) : parts .v31 schema = parts .v30 schema := rfl
  cases move with
  | inline => exact sameParts _ ▸ .inline
  | known met => exact .known met
  | fresh free found => exact sameParts _ ▸ .fresh free found

/-- If all extensions of an interface stand under keys that start with `x-`, it has the same error in 3.0
and in 3.1, or documents in both which differ in the version and in the forms of null. -/
theorem document_versions (inside : api.Marked) (marked : ∀ operation ∈ api.operations, operation.Marked) :
    (∃ error, document .v30 api = .error error ∧ document .v31 api = .error error) ∨
      ∃ visits last left right, Run (WalkStep .v30 api) (.start api) visits last ∧ last.pending = [] ∧
        document .v30 api = .ok left ∧ document .v31 api = .ok right ∧
          DocumentVersions api (begun visits) left right := by
  obtain ⟨visits, last, run, stuck, exported⟩ := document_trail .v30 api
  have run' : Run (WalkStep .v31 api) (.start api) visits last := run.imp fun _ _ _ => walkStep_v31
  have exported' := document_of_run run' (Agenda.stuck_iff.mpr (Agenda.stuck_iff.mp stuck))
  unfold outcome at exported exported'
  rcases Agenda.stuck_iff.mp stuck with empty | ⟨error, failed⟩
  · rw [Agenda.failure?_of_empty empty] at exported exported'
    refine .inr ⟨visits, last, _, _, run, empty, exported, exported', ?_⟩
    have bared : ∀ node : Schema, (∀ key ∈ Table.keys node.extensions, ∃ rest, key = "x-" ++ rest) →
        ∀ key ∈ Table.keys (bare node).extensions, ∃ rest, key = "x-" ++ rest := by
      simp [bare, Table.keys]
    have bodies : ∀ entry ∈ begun visits, entry.2.Marked := all_of_begun inside bared run
    exact documentText_versions inside.1 marked (defined_versions bodies (nodup_begun run))
  · rw [failed] at exported exported'
    exact .inl ⟨error, exported, exported'⟩

/-- Sizes that may be missing: a parameter with a type, an answer by reference, and a definition with
alternatives. -/
def sizesApi : Api where
  title := "Sizes"
  version := "1"
  paths := [{
    template := "/sizes"
    operations := [(.get, {
      method := .get
      parameters := [{
        name := "least"
        location := .query
        required := false
        schema := { Schema.string with nullable := true, extensions := [("x-note", bool true)] } }]
      responses := [("200", {
        code := "200"
        description := "OK"
        schema := some { Schema.reference "Size" with nullable := true } })] })] }]
  definitions := [("Size", { Schema.ofVariants [.string, .object] with
    canonicalName := some "Size"
    nullable := true })]

private theorem sizesApi_marked : sizesApi.Marked := by
  have unmarked (schema : Schema) (none : schema.extensions = []) :
      ∀ key ∈ Table.keys schema.extensions, ∃ rest, key = "x-" ++ rest := by simp [none, Table.keys]
  refine ⟨fun site used => ?_, fun entry listed => ?_⟩
  · rcases List.mem_cons.mp used with rfl | used
    · refine Schema.all_of_leaf (fun key member => ?_) rfl rfl rfl
      obtain rfl := List.mem_singleton.mp member
      exact ⟨"note", rfl⟩
    · obtain rfl := List.mem_singleton.mp used
      exact Schema.all_of_leaf (unmarked _ rfl) rfl rfl rfl
  · obtain rfl := List.mem_singleton.mp listed
    refine Schema.all_iff.mpr ⟨unmarked _ rfl, ?_, ?_, fun variant member => ?_⟩
    · simp [Schema.ofVariants]
    · simp [Schema.ofVariants]
    rcases List.mem_cons.mp member with rfl | member
    · exact Schema.all_of_leaf (unmarked _ rfl) rfl rfl rfl
    · obtain rfl := List.mem_singleton.mp member
      exact Schema.all_of_leaf (unmarked _ rfl) rfl rfl rfl

theorem document_versions_sizes : sizesApi.Marked ∧ (∀ operation ∈ sizesApi.operations, operation.Marked) ∧
    ∃ visits left right, document .v30 sizesApi = .ok left ∧ document .v31 sizesApi = .ok right ∧
      DocumentVersions sizesApi (begun visits) left right := by
  have marked : ∀ operation ∈ sizesApi.operations, operation.Marked := by
    intro operation member
    obtain rfl := List.mem_singleton.mp member
    refine ⟨nofun, fun parameter listed => ?_, fun entry listed => ?_⟩
    · obtain rfl := List.mem_singleton.mp listed
      exact nofun
    · obtain rfl := List.mem_singleton.mp listed
      exact nofun
  refine ⟨sizesApi_marked, marked, ?_⟩
  rcases document_versions sizesApi_marked marked with ⟨_, failed, -⟩ | ⟨visits, _, left, right, -, -, ok, ok', here⟩
  · have exported : ∃ text, document .v30 sizesApi = .ok text := ⟨_, rfl⟩
    obtain ⟨text, exported⟩ := exported
    rw [exported] at failed
    cases failed
  · exact ⟨visits, left, right, ok, ok', here⟩

end Export

end ApiDoc
