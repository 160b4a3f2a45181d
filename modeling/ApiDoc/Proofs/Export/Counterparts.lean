import ApiDoc.Proofs.Build.Reachable
import ApiDoc.Proofs.Build.Regular
import ApiDoc.Proofs.Export.Success

/-! # Documents in 2.0 and in 3.0

A request body stands among the parameters of an operation in 2.0, as form parameters or as one body
parameter, and in a place of its own in 3.0. The readers below take an operation of a document apart
in a way that does for both, and `OperationCounterparts` says what two operations agree on. The
documents of a built interface have the same operations in the same order, all of them counterparts
(`buildApi_counterparts`).
-/

namespace ApiDoc

/-- The parameters that a placed body puts behind those of its operation. -/
def Dialect.BodyPlacement.listed : Dialect.BodyPlacement → List Json
  | .parameters more => more
  | .requestBody _ => []

/-- What a placed body is in a place of its own. -/
def Dialect.BodyPlacement.own? : Dialect.BodyPlacement → Option Json
  | .parameters _ => none
  | .requestBody body => some body

namespace Export

open Json

def keysUnder (value : Json) (key : String) : Option (List String) :=
  ((value.field? key).bind fields?).map Table.keys

def parametersOf (operation : Json) : List Json :=
  ((operation.field? "parameters").bind items?).getD []

def inBody (parameter : Json) : Bool :=
  parameter.field? "in" matches some (string "body") | some (string "formData")

/-- What a parameter of a document says apart from its schema. -/
def outline (parameter : Json) : List (Option Json) :=
  ["name", "in", "required", "description"].map parameter.field?

def outerOutlines (operation : Json) : List (List (Option Json)) :=
  ((parametersOf operation).filter fun parameter => !inBody parameter).map outline

def bodyParameters (operation : Json) : List Json := (parametersOf operation).filter inBody

/-- The parameters declare a body with properties of some names: a form parameter for each of them, or
one parameter for all. -/
inductive Declares (names : List String) : List Json → Prop
  | form {parameters : List Json} :
      (∀ parameter ∈ parameters, parameter.field? "in" = some (string "formData")) →
      parameters.map (·.field? "name") = names.map (fun name => some (string name)) →
      Declares names parameters
  | whole {parameter schema : Json} : parameter.field? "in" = some (string "body") →
      parameter.field? "schema" = some schema → keysUnder schema "properties" = some names →
      Declares names [parameter]

/-- The body has contents, and their schemas have properties of some names. -/
def Contains (names : List String) (body : Json) : Prop :=
  ∃ content, body.field? "content" = some (object content) ∧ content ≠ [] ∧
    ∀ entry ∈ content, ∃ schema, entry.2.field? "schema" = some schema ∧
      keysUnder schema "properties" = some names

/-- Neither operation has a body, or both have one, with properties of the same names. -/
def BodyCounterparts (left right : Json) : Prop :=
  (bodyParameters left = [] ∧ right.field? "requestBody" = none) ∨
    ∃ names body, names ≠ [] ∧ Declares names (bodyParameters left) ∧
      right.field? "requestBody" = some body ∧ Contains names body

/-- What an operation says in 2.0 and in 3.0. -/
structure OperationCounterparts (left right : Json) : Prop where
  head : ∀ key ∈ ["operationId", "summary", "tags", "deprecated"], left.field? key = right.field? key
  codes : ∃ codes, keysUnder left "responses" = some codes ∧ keysUnder right "responses" = some codes
  parameters : outerOutlines left = outerOutlines right
  /-- In 3.0 nothing of the body stands among the parameters. -/
  outside : bodyParameters right = []
  body : BodyCounterparts left right

/-- The operations of a path in 2.0 and in 3.0: one for each of its methods. -/
def PathCounterparts (item : PathItem) : Json → Json → Prop :=
  Columns (item.operations.map fun entry => (entry.1.key, entry.2)) fun _ => OperationCounterparts

/-- Documents with the paths of an interface, its methods on them in the same order, and operations that
are counterparts. -/
def Counterparts (api : Api) (left right : Json) : Prop :=
  ∃ paths paths', left.field? "paths" = some paths ∧ right.field? "paths" = some paths' ∧
    Columns (api.paths.map fun item => (item.template, item)) PathCounterparts paths paths'

/-- Extensions hide no other field. -/
theorem field?_extend {extensions : Table String Json} (marked : MarkedKeys extensions) {key : String}
    (unmarked : key.toList.head? ≠ some 'x') (fields : Fields) :
    (object (fields.extend extensions)).field? key = fields.get? key := by
  refine Table.get?_extend_of_not_mem fun member => ?_
  obtain ⟨rest, same⟩ := marked key member
  exact ne_extension unmarked same

variable {dialect : Dialect} {operation : Operation} {parameter : Parameter}

/-- What a parameter outside the body says apart from its schema is the same in all versions. -/
theorem outline_parameterText (regular : parameter.Regular) (dialect : Dialect) :
    outline (parameterText dialect parameter) =
      [some (string parameter.name), some (string parameter.location.name),
        some (bool parameter.required), parameter.description.map string] := by
  obtain ⟨outside, marked⟩ := regular
  have said : ∀ key ∈ ["name", "in", "required", "description"],
      (parameterText dialect parameter).field? key =
        (((dialect.parameter? parameter (siteText dialect parameter.schema)).getD []).get? key) := by
    have unmarked : ∀ key ∈ ["name", "in", "required", "description"], key.toList.head? ≠ some 'x' := by
      decide
    exact fun key listed => field?_extend marked (unmarked key listed) _
  unfold outline
  rw [List.map_congr_left said]
  cases dialect with
  | v20 => simp [Dialect.parameter?, Table.get?_insertSome, Table.get?_insert, Table.get?]
  | v30 | v31 =>
    unfold Dialect.parameter?
    cases parameter.collectionFormat <;>
      simp [outside, Table.get?_insertSome, Table.get?_insert, Table.get?]

theorem inBody_parameterText (regular : parameter.Regular) (dialect : Dialect) :
    inBody (parameterText dialect parameter) = false := by
  have place : (parameterText dialect parameter).field? "in" = some (string parameter.location.name) :=
    congrArg (fun said => said.getD 1 none) (outline_parameterText regular dialect)
  unfold inBody
  rw [place]
  cases located : parameter.location with
  | path | query | header => rfl
  | body => exact absurd located regular.1

/-- Every version has a place for the parameters outside the body. -/
theorem parameterTexts_of_regular {all : List Parameter} (regular : ∀ parameter ∈ all, parameter.Regular)
    (dialect : Dialect) : parameterTexts dialect all = all.map (parameterText dialect) := by
  rw [parameterTexts_eq_map, List.filter_eq_self.mpr]
  intro parameter member
  have outside := (regular parameter member).1
  cases dialect with
  | v20 => rfl
  | v30 | v31 => simp [Dialect.parameter?, outside]

/-- Where the rendered body of an operation goes. -/
def placement? (dialect : Dialect) (operation : Operation) : Option Dialect.BodyPlacement :=
  operation.requestBody.map fun body => dialect.requestBody body (mediaTexts dialect body.content)

theorem parametersAndBody_placed (dialect : Dialect) (operation : Operation) (fields : Fields)
    (parameters : List Json) :
    parametersAndBody dialect fields parameters
        (operation.requestBody.map fun body => (body, mediaTexts dialect body.content)) =
      (Dialect.insertList fields "parameters"
        (parameters ++ (placement? dialect operation).elim [] (·.listed))).insertSome "requestBody"
          ((placement? dialect operation).bind (·.own?)) := by
  unfold parametersAndBody placement?
  cases operation.requestBody with
  | none => simp [Table.insertSome]
  | some body =>
    dsimp only [Option.map_some]
    cases dialect.requestBody body (mediaTexts dialect body.content) with
    | parameters more => rfl
    | requestBody rendered => simp [Dialect.BodyPlacement.listed, Dialect.BodyPlacement.own?, Table.insertSome]

theorem get?_operationMedia {key : String} (absent : key ∉ ["consumes", "produces"]) (dialect : Dialect)
    (operation : Operation) (fields : Fields) :
    (dialect.operationMedia operation fields).get? key = fields.get? key := by
  simp only [List.mem_cons, List.not_mem_nil, or_false, not_or] at absent
  cases dialect with
  | v20 =>
    rw [Dialect.operationMedia, get?_insertList_of_ne (Ne.symm absent.2),
      get?_insertList_of_ne (Ne.symm absent.1)]
  | v30 | v31 => rfl

/-- What is read in the text of an operation. -/
structure ReadsAs (dialect : Dialect) (operation : Operation) (text : Json) : Prop where
  operationId : text.field? "operationId" = operation.operationId.map string
  summary : text.field? "summary" = operation.summary.map string
  tags : text.field? "tags" =
    if operation.tags = [] then none else some (array (operation.tags.map string))
  deprecated : text.field? "deprecated" = if operation.deprecated then some (bool true) else none
  codes : keysUnder text "responses" = some (Table.keys (Table.ofEntries operation.responses))
  parameters : parametersOf text = parameterTexts dialect operation.parameters ++
    (placement? dialect operation).elim [] (·.listed)
  requestBody : text.field? "requestBody" = (placement? dialect operation).bind (·.own?)

theorem operationText_reads (marked : MarkedKeys operation.extensions) (dialect : Dialect) :
    ReadsAs dialect operation (operationText dialect operation) := by
  have said (key : String) (unmarked : key.toList.head? ≠ some 'x') (fields : Fields) :
      (object (fields.extend operation.extensions)).field? key = fields.get? key :=
    field?_extend marked unmarked fields
  have codes (produces : List String) : Table.keys (responseTexts dialect produces operation.responses []) =
      Table.keys (Table.ofEntries operation.responses) :=
    Table.keys_ofEntries_mapValues _ operation.responses
  unfold operationText
  dsimp only
  rw [parametersAndBody_placed]
  constructor
  case parameters =>
    unfold parametersOf
    rw [said "parameters" (by decide)]
    generalize parameterTexts dialect operation.parameters ++ _ = all
    cases operation.deprecated <;> cases all <;>
      simp [Table.get?_insertSome, get?_insertList, Table.get?_insert, get?_operationMedia, Table.get?, items?]
  all_goals
    cases operation.deprecated <;>
      simp (disch := decide) [said, codes, keysUnder, fields?, Table.get?_insertSome, get?_insertList,
        Table.get?_insert, get?_operationMedia, Table.get?]

variable {schema site : Schema}

/-- Neither a name nor a place stands among the fields, as in those of a parameter. -/
def Placeless (fields : Fields) : Prop := ∀ key ∈ Table.keys fields, key ∉ ["name", "in"]

theorem Placeless.insert {fields : Fields} (placeless : Placeless fields) {key : String}
    (here : key ∉ ["name", "in"]) (value : Json) : Placeless (fields.insert key value) :=
  Table.forall_keys_insert placeless here value

theorem placeless_typeFields (schema : Schema) : Placeless (typeFields .v20 schema) := by
  unfold typeFields
  split
  · simp [Placeless, Dialect.fileSchema, Table.keys]
  · have start (value : Json) : Placeless [("type", value)] := by simp [Placeless, Table.keys]
    cases schema.format with
    | none => exact start _
    | some format => exact (start _).insert (by decide) _
  · simp [Placeless, Table.keys]

/-- Extensions and nullability bring in neither a name nor a place. -/
theorem Placeless.decorate {fields : Fields} (placeless : Placeless fields) (marked : site.Marked) :
    Placeless (decorate .v20 site fields) := by
  intro key member
  have unmarked : ∀ key ∈ ["name", "in"], key.toList.head? ≠ some 'x' := by decide
  rcases Table.mem_keys_extend.mp member with here | extension
  · split at here
    · exact placeless.insert (by decide) _ key here
    · exact placeless key here
  · obtain ⟨rest, same⟩ := marked.root key extension
    exact fun listed => ne_extension (unmarked key listed) same

/-- The fields that a schema renders to in 2.0 can stand beside the name and the place of a parameter:
even those that it takes from its first alternative. -/
theorem siteText_placeless (site : Schema) (marked : site.Marked) :
    ∃ fields, siteText .v20 site = object fields ∧ Placeless fields := by
  induction site using Schema.ofParts with
  | node site ih =>
    unfold siteText plainUse
    cases site.canonicalName with
    | some name => exact ⟨_, rfl, Placeless.decorate (by simp [Placeless, Table.keys]) marked⟩
    | none =>
      refine ⟨_, rfl, Placeless.decorate ?_ marked⟩
      have start : Placeless (plainStart .v20 site (site.oneOf.map (siteText .v20))) := by
        unfold plainStart
        cases alternatives : site.oneOf with
        | nil => exact placeless_typeFields site
        | cons first rest =>
          -- The fields of the first alternative, extensions included, become those of the schema.
          have listed : first ∈ site.oneOf := by rw [alternatives]; exact List.mem_cons_self
          obtain ⟨fields, same, placeless⟩ :=
            ih first (.variant listed) (Schema.All.part marked (.variant listed))
          rw [List.map_cons, List.headD_cons, same]
          exact placeless
      have related : Table.Related (fun key _ _ => key ∉ ["name", "in"]) (plainContent .v20 site)
          (plainContent .v20 site) := by
        rw [plainContent_unfold, plainVariants_eq]
        refine plainAssemble_related (fun key listed value => ?_) ?_ (by decide) fun _ => by decide
        · exact (by decide : ∀ key ∈ ["description", "required", "enum", "default", "example"],
            key ∉ ["name", "in"]) key listed
        · exact List.forall₂_same.mpr fun entry member => ⟨rfl, start _ (List.mem_map_of_mem member)⟩
      intro key member
      obtain ⟨entry, listed, rfl⟩ := List.mem_map.mp member
      exact (List.forall₂_same.mp related entry listed).2

/-- A content shows the properties of its schema. -/
theorem get?_plainContent (some : schema.properties ≠ []) (dialect : Dialect) :
    (plainContent dialect schema).get? "properties" =
      Option.some (object (Table.ofEntries (Table.mapValues (siteText dialect) schema.properties))) := by
  rw [plainContent_unfold, plainProperties_eq]
  unfold plainAssemble
  dsimp only
  rw [if_neg (mt List.isEmpty_iff.mp some)]
  cases schema.required.isEmpty <;> cases schema.isType .array <;>
    simp [Table.get?_insertSome, get?_insertList, Table.get?_insert, Table.ofEntries]

theorem field?_properties (only : schema.OnlyProperties) (some : schema.properties ≠ [])
    (dialect : Dialect) : (siteText dialect schema).field? "properties" =
      Option.some (object (Table.ofEntries (Table.mapValues (siteText dialect) schema.properties))) := by
  have plain : siteText dialect schema = object (plainContent dialect schema) := by
    obtain ⟨properties, required, rfl⟩ := only
    rfl
  rw [plain]
  exact get?_plainContent some dialect

theorem keysUnder_properties (only : schema.OnlyProperties) (some : schema.properties ≠ [])
    (dialect : Dialect) : keysUnder (siteText dialect schema) "properties" =
      Option.some (Table.keys (Table.ofEntries schema.properties)) := by
  unfold keysUnder
  rw [field?_properties only some]
  exact congrArg Option.some (Table.keys_ofEntries_mapValues _ schema.properties)

variable {body : RequestBody}

theorem Declares.inBody {names : List String} {parameters : List Json} (declares : Declares names parameters) :
    ∀ parameter ∈ parameters, inBody parameter = true := by
  intro parameter member
  unfold Export.inBody
  cases declares with
  | form places =>
    rw [places parameter member]
    rfl
  | whole place =>
    rw [List.mem_singleton.mp member, place]
    rfl

/-- There is a form parameter for each property of a body. -/
theorem formParameters_outlines (only : schema.OnlyProperties) (some : schema.properties ≠ [])
    (marked : schema.Marked) :
    (∀ parameter ∈ Dialect.formParameters (siteText .v20 schema),
      parameter.field? "in" = Option.some (string "formData")) ∧
        (Dialect.formParameters (siteText .v20 schema)).map (·.field? "name") =
          (Table.keys (Table.ofEntries schema.properties)).map fun name => Option.some (string name) := by
  have parameters : Dialect.formParameters (siteText .v20 schema) =
      (Table.ofEntries schema.properties).map fun entry => object (Dialect.flattenInto
        [("name", string entry.1), ("in", string "formData"),
          ("required", bool ((Dialect.requiredNames (siteText .v20 schema)).contains entry.1))]
        (siteText .v20 entry.2)) := by
    unfold Dialect.formParameters
    rw [field?_properties only some, Table.ofEntries_mapValues]
    exact List.map_map
  have kept : ∀ entry ∈ Table.ofEntries schema.properties, ∀ (start : Fields), ∀ key ∈ ["name", "in"],
      (object (Dialect.flattenInto start (siteText .v20 entry.2))).field? key = start.get? key := by
    intro entry member start key listed
    obtain ⟨fields, same, placeless⟩ :=
      siteText_placeless entry.2 (marked.properties entry (Table.mem_of_mem_ofEntries member))
    rw [same]
    exact Table.get?_extend_of_not_mem fun present => placeless key present listed
  rw [parameters]
  refine ⟨fun parameter member => ?_, ?_⟩
  · obtain ⟨entry, listed, rfl⟩ := List.mem_map.mp member
    exact kept entry listed _ "in" (by decide)
  · unfold Table.keys
    rw [List.map_map, List.map_map]
    exact List.map_congr_left fun entry listed => kept entry listed _ "name" (by decide)

/-- The form parameters of a body declare its properties. -/
theorem declares_formParameters (only : schema.OnlyProperties) (some : schema.properties ≠ [])
    (marked : schema.Marked) : Declares (Table.keys (Table.ofEntries schema.properties))
      (Dialect.formParameters (siteText .v20 schema)) := by
  obtain ⟨places, names⟩ := formParameters_outlines only some marked
  exact .form places names

def wholeBody (body : RequestBody) (text : Json) : Json :=
  let named : Fields := [("name", string "body"), ("in", string "body")]
  let described := Table.insertSome named "description" (body.description.map string)
  object ((described.insert "required" (bool body.required)).insert "schema" text)

/-- In 2.0 the first content of a body decides whether it is written as a form. -/
theorem requestBody_cons (body : RequestBody) (media : MediaType) (rest : List MediaType) :
    Dialect.requestBody .v20 body (mediaTexts .v20 (media :: rest)) = .parameters
      (if Dialect.isFormMime media.mime || Dialect.hasFileProperty (siteText .v20 media.schema) then
        Dialect.formParameters (siteText .v20 media.schema)
      else [wholeBody body (siteText .v20 media.schema)]) := by
  unfold mediaTexts Dialect.requestBody
  rw [List.map_cons]
  dsimp only
  split <;> rfl

/-- In 2.0 a body is written into the parameters, and declares its properties there. -/
theorem requestBody_v20 (content : body.content ≠ []) (only : schema.OnlyProperties)
    (some : schema.properties ≠ []) (same : ∀ media ∈ body.content, media.schema = schema)
    (marked : schema.Marked) : ∃ parameters,
      Dialect.requestBody .v20 body (mediaTexts .v20 body.content) = .parameters parameters ∧
        Declares (Table.keys (Table.ofEntries schema.properties)) parameters := by
  obtain ⟨media, rest, split⟩ := List.exists_cons_of_ne_nil content
  have first : media.schema = schema := same media (by rw [split]; exact List.mem_cons_self)
  rw [split, requestBody_cons, first]
  refine ⟨_, rfl, ?_⟩
  -- A form, or a file among the rendered properties, makes form parameters.
  split
  · exact declares_formParameters only some marked
  · refine .whole ?_ ?_ (keysUnder_properties only some .v20)
    · simp [wholeBody, field?, Table.get?_insertSome, Table.get?_insert, Table.get?]
    · simp [wholeBody, field?, Table.get?_insert]

/-- In 3.0 a body has a place of its own, and all its contents have its properties. -/
theorem requestBody_v30 (content : body.content ≠ []) (only : schema.OnlyProperties)
    (some : schema.properties ≠ []) (same : ∀ media ∈ body.content, media.schema = schema) :
    ∃ rendered, Dialect.requestBody .v30 body (mediaTexts .v30 body.content) = .requestBody rendered ∧
      Contains (Table.keys (Table.ofEntries schema.properties)) rendered := by
  have written : ((mediaTexts .v30 body.content).map fun media =>
      (media.mime, Dialect.mediaObject media.schema media.exampleValue)) ≠ [] := by
    simpa [mediaTexts] using content
  refine ⟨_, rfl, _, ?_, Table.ofEntries_ne_nil written, fun entry member => ?_⟩
  · cases body.required <;> simp [field?, Table.get?_insert]
  · obtain ⟨rendered, listed, rfl⟩ := List.mem_map.mp (Table.mem_of_mem_ofEntries member)
    obtain ⟨media, stands, rfl⟩ := List.mem_map.mp listed
    refine ⟨siteText .v30 schema, ?_, keysUnder_properties only some .v30⟩
    simp [Dialect.mediaObject, field?, Table.get?_insertSome, Table.get?, same media stands]

theorem marked_of_mem_content (inside : ∀ site ∈ operation.bodySites, site.Marked)
    (present : operation.requestBody = some body) {media : MediaType} (member : media ∈ body.content) :
    media.schema.Marked := by
  unfold Operation.bodySites at inside
  rw [present] at inside
  exact inside _ (List.mem_map_of_mem member)

/-- An operation has no body, or one that is written into the parameters in 2.0 and to a place of its
own in 3.0, with properties of the same names. -/
theorem placement_counterparts (regular : operation.Regular)
    (inside : ∀ site ∈ operation.bodySites, site.Marked) :
    (placement? .v20 operation = none ∧ placement? .v30 operation = none) ∨
      ∃ names parameters body, names ≠ [] ∧ Declares names parameters ∧ Contains names body ∧
        placement? .v20 operation = some (.parameters parameters) ∧
          placement? .v30 operation = some (.requestBody body) := by
  unfold placement?
  cases present : operation.requestBody with
  | none => exact .inl ⟨rfl, rfl⟩
  | some body =>
    obtain ⟨content, schema, some, only, same⟩ := regular.uniform body present
    obtain ⟨media, member⟩ := List.exists_mem_of_ne_nil _ content
    have marked : schema.Marked := same media member ▸ marked_of_mem_content inside present member
    obtain ⟨parameters, inOld, declares⟩ := requestBody_v20 content only some same marked
    obtain ⟨rendered, inNew, contains⟩ := requestBody_v30 content only some same
    refine .inr ⟨_, parameters, rendered, ?_, declares, contains, ?_, ?_⟩
    · exact mt List.map_eq_nil_iff.mp (Table.ofEntries_ne_nil some)
    · rw [Option.map_some, inOld]
    · rw [Option.map_some, inNew]

/-- What the body of an operation puts among the parameters is told apart by its place alone. -/
theorem inBody_of_listed (regular : operation.Regular) (inside : ∀ site ∈ operation.bodySites, site.Marked) :
    ∀ parameter ∈ (placement? .v20 operation).elim [] (·.listed), inBody parameter = true := by
  rcases placement_counterparts regular inside with ⟨none, -⟩ | ⟨names, parameters, _, -, declares, -, old, -⟩
  · simp [none]
  · rw [old]
    exact declares.inBody

/-- The parameters of a rendered operation are those outside the body and what its body puts there. -/
theorem parameters_operationText (regular : operation.Regular) (dialect : Dialect)
    (inside : ∀ parameter ∈ (placement? dialect operation).elim [] (·.listed), inBody parameter = true) :
    outerOutlines (operationText dialect operation) =
        operation.parameters.map (fun parameter => outline (parameterText dialect parameter)) ∧
      bodyParameters (operationText dialect operation) = (placement? dialect operation).elim [] (·.listed) := by
  have outside : ∀ text ∈ operation.parameters.map (parameterText dialect), inBody text = false := by
    intro text member
    obtain ⟨parameter, listed, rfl⟩ := List.mem_map.mp member
    exact inBody_parameterText (regular.parameter parameter listed) dialect
  have all := (operationText_reads regular.own dialect).parameters
  rw [parameterTexts_of_regular regular.parameter] at all
  unfold outerOutlines bodyParameters
  rw [all, List.filter_append, List.filter_append]
  constructor
  · rw [List.filter_eq_self.mpr fun text member => by rw [outside text member]; rfl,
      List.filter_eq_nil_iff.mpr fun parameter member => by rw [inside parameter member]; decide,
      List.append_nil, List.map_map]
    rfl
  · rw [List.filter_eq_nil_iff.mpr fun text member => by rw [outside text member]; decide,
      List.filter_eq_self.mpr inside, List.nil_append]

theorem operationText_counterparts (regular : operation.Regular)
    (inside : ∀ site ∈ operation.bodySites, site.Marked) :
    OperationCounterparts (operationText .v20 operation) (operationText .v30 operation) := by
  have left := operationText_reads regular.own .v20
  have right := operationText_reads regular.own .v30
  have outlines : operation.parameters.map (fun parameter => outline (parameterText .v20 parameter)) =
      operation.parameters.map (fun parameter => outline (parameterText .v30 parameter)) := by
    refine List.map_congr_left fun parameter member => ?_
    have here := regular.parameter parameter member
    rw [outline_parameterText here, outline_parameterText here]
  have placed := placement_counterparts regular inside
  have inNew : (placement? .v30 operation).elim [] (·.listed) = [] := by
    rcases placed with ⟨-, none⟩ | ⟨_, _, _, -, -, -, -, new⟩
    · rw [none]
      rfl
    · rw [new]
      rfl
  obtain ⟨outer, inner⟩ := parameters_operationText regular .v20 (inBody_of_listed regular inside)
  obtain ⟨outer', inner'⟩ := parameters_operationText regular .v30 (by simp [inNew])
  constructor
  case head =>
    intro key member
    simp only [List.mem_cons, List.not_mem_nil, or_false] at member
    rcases member with rfl | rfl | rfl | rfl
    · exact left.operationId.trans right.operationId.symm
    · exact left.summary.trans right.summary.symm
    · exact left.tags.trans right.tags.symm
    · exact left.deprecated.trans right.deprecated.symm
  case codes => exact ⟨_, left.codes, right.codes⟩
  case parameters => rw [outer, outer', outlines]
  case outside => exact inner'.trans inNew
  case body =>
    unfold BodyCounterparts
    rw [inner, right.requestBody]
    rcases placed with ⟨none, none'⟩ | ⟨names, parameters, rendered, some, declares, contains, old, new⟩
    · rw [none, none']
      exact .inl ⟨rfl, rfl⟩
    · rw [old, new]
      exact .inr ⟨names, rendered, some, declares, rfl, contains⟩

variable {api : Api}

theorem pathTexts_counterparts (regular : ∀ operation ∈ api.operations, operation.Regular)
    (inside : ∀ site ∈ api.sites, site.Marked) :
    Columns (api.paths.map fun item => (item.template, item)) PathCounterparts
      (object (pathTexts .v20 api.paths [])) (object (pathTexts .v30 api.paths [])) := by
  rw [pathTexts_eq_ofEntries, pathTexts_eq_ofEntries]
  refine columns_map fun template item member => ?_
  obtain ⟨_, stands, same⟩ := List.mem_map.mp member
  cases same
  rw [operationTexts_eq_ofEntries, operationTexts_eq_ofEntries]
  refine columns_map fun key operation member => ?_
  obtain ⟨⟨method, held⟩, holds, same⟩ := List.mem_map.mp member
  obtain ⟨rfl, rfl⟩ := Prod.mk.inj same
  have known : held ∈ api.operations := Api.mem_operations.mpr ⟨item, stands, method, holds⟩
  refine operationText_counterparts (regular held known) fun site used => inside site ?_
  exact Api.mem_sites.mpr ⟨held, known, Operation.mem_sites.mpr (.inr used)⟩

/-- The paths of a document stand under their key, whatever its head and its definitions are. -/
theorem field?_paths (dialect : Dialect) (api : Api) (definitions : Fields) :
    (documentText dialect api definitions).field? "paths" =
      some (object (pathTexts dialect api.paths [])) := by
  unfold documentText
  cases dialect <;> simp [Dialect.finish, field?, get?_insertObject, Table.get?_insert]

theorem documentText_counterparts (regular : ∀ operation ∈ api.operations, operation.Regular)
    (inside : ∀ site ∈ api.sites, site.Marked) (definitions definitions' : Fields) :
    Counterparts api (documentText .v20 api definitions) (documentText .v30 api definitions') :=
  ⟨_, _, field?_paths .v20 api definitions, field?_paths .v30 api definitions',
    pathTexts_counterparts regular inside⟩

/-- If a built interface has a document in any version, it has one in 2.0 and one in 3.0, and these say
the same of its operations. -/
theorem buildApi_counterparts (config : Config) (catalog : Catalog) (routes : List RouteDescriptor)
    {dialect : Dialect} {text : Json}
    (exported : document dialect (buildApi config { catalog } routes) = .ok text) :
    ∃ left right, document .v20 (buildApi config { catalog } routes) = .ok left ∧
      document .v30 (buildApi config { catalog } routes) = .ok right ∧
        Counterparts (buildApi config { catalog } routes) left right := by
  have separate := separate_of_ok exported
  have known := buildApi_known config catalog routes
  obtain ⟨left, inOld⟩ := (document_of_known known .v20).mpr separate
  obtain ⟨right, inNew⟩ := (document_of_known known .v30).mpr separate
  obtain ⟨_, _, -, -, rfl⟩ := document_text inOld
  obtain ⟨_, _, -, -, rfl⟩ := document_text inNew
  have regular := buildApi_regular config { catalog } routes
  have inside := (buildApi_marked config catalog routes).1
  exact ⟨_, _, inOld, inNew, documentText_counterparts regular inside _ _⟩

def owners : Catalog := [("Owner", { name := "Owner", fields := [.typed "name" "String"] })]

/-- A route that takes a file with its owner in a form, and one that takes the owner alone. -/
def ownerRoutes : List RouteDescriptor :=
  [{ path := "/files/{id}"
     method := .post
     params := [("content", .typed "File"), ("owner", (ParamSpec.typed "Owner").located "form"),
       ("replace", .typed "Boolean")] },
   { path := "/files/{id}"
     method := .put
     params := [("owner", (ParamSpec.typed "Owner").located "body")]
     entity := some (.parse "Owner") }]

private theorem owners_separate : (buildApi {} { catalog := owners } ownerRoutes).Separate := by
  have only : ∀ name ∈ Table.keys (buildApi {} { catalog := owners } ownerRoutes).definitions,
      name = "Owner" := by
    intro name member
    obtain ⟨_, -, -, _, -, _, -, reaches⟩ := (mem_keys_definitions_iff {} owners ownerRoutes name).mp member
    exact List.mem_singleton.mp reaches.mem_keys
  exact fun first listed second listedToo _ => (only first listed).trans (only second listedToo).symm

theorem buildApi_counterparts_owners :
    ∃ text, document .v31 (buildApi {} { catalog := owners } ownerRoutes) = .ok text ∧
      ∃ left right, document .v20 (buildApi {} { catalog := owners } ownerRoutes) = .ok left ∧
        document .v30 (buildApi {} { catalog := owners } ownerRoutes) = .ok right ∧
          Counterparts (buildApi {} { catalog := owners } ownerRoutes) left right := by
  have known := buildApi_known {} owners ownerRoutes
  obtain ⟨text, exported⟩ := (document_of_known known .v31).mpr owners_separate
  exact ⟨text, exported, buildApi_counterparts {} owners ownerRoutes exported⟩

end Export

end ApiDoc
