import ApiDoc.Proofs.Build.Flat
import ApiDoc.Proofs.Type.Primitives

/-! # What is documented of a parameter

A parameter of a route without nested names takes its description along wherever it travels. Outside
the body it takes its example and its vendor extensions along too. As a property of the body it does
not: of a primitive type, the property has neither, so what is documented is kept there only if none
is documented (`buildParams_documentation`, `body_drops_documentation`).
-/

namespace ApiDoc

open Schema

def ParamSpec.primitiveSchema (spec : ParamSpec) : Schema :=
  let schema := ((spec.type.map TypeToken.primitiveSchema).getD .string).restrict spec.values
  { schema with defaultValue := spec.defaultValue.or schema.defaultValue }

/-- The type of a parameter is primitive, or it has none. -/
def ParamSpec.IsPrimitive (lexicon : Lexicon) (spec : ParamSpec) : Prop :=
  ∀ token, spec.type = some token →
    ApiDoc.IsPrimitive (lexicon.chain.answering? lexicon.catalog) token

variable {lexicon : Lexicon} {spec : ParamSpec} {schema : Schema}

theorem Schema.Silent.restrict (silent : schema.Silent) (values : List Json) :
    (schema.restrict values).Silent := by
  unfold Schema.restrict
  split
  · exact silent
  · split <;> exact ⟨silent.description, silent.exampleValue, silent.extensions⟩

theorem ParamSpec.primitiveSchema_silent (spec : ParamSpec) : spec.primitiveSchema.Silent := by
  have silent : ((spec.type.map TypeToken.primitiveSchema).getD .string).Silent := by
    cases spec.type with
    | none => exact ⟨rfl, rfl, rfl⟩
    | some token => exact ApiDoc.primitiveSchema_silent token
  have restricted := silent.restrict spec.values
  exact ⟨restricted.description, restricted.exampleValue, restricted.extensions⟩

namespace Route

open Publication

variable {names : Names} {published : List Publication} {headers : List Parameter}

/-- A primitive type resolves to its schema whatever was introspected before. -/
theorem paramSchema_primitive (primitive : spec.IsPrimitive lexicon) :
    paramSchema lexicon spec = pure spec.primitiveSchema := by
  unfold paramSchema ParamSpec.primitiveSchema Lexicon.resolveDeclared
  cases declared : spec.type with
  | none => simp
  | some token =>
    have resolved := resolveWith?_primitive (lexicon.descent lexicon.levels) (primitive token declared)
    simp [Lexicon.resolve, Lexicon.resolve?, Lexicon.resolveWithin?, resolved]

def primitiveLocation (names : Names) (entry : String × ParamSpec) : Location :=
  locate names entry.1 entry.2 entry.2.primitiveSchema

def primitivePublication (names : Names) (entry : String × ParamSpec) : Publication :=
  ⟨entry, primitiveLocation names entry, entry.2.primitiveSchema⟩

/-- Parameters with primitive types are published with the schemas of these. -/
theorem resolveVisible_primitive (names : Names) (route : RouteDescriptor)
    (primitive : ∀ entry ∈ route.visibleParams, entry.2.IsPrimitive lexicon) :
    resolveVisible lexicon names route.params =
      pure (route.visibleParams.map (primitivePublication names)) := by
  have each : ∀ entries : Table String ParamSpec, (∀ entry ∈ entries, entry.2.IsPrimitive lexicon) →
      entries.mapM (publicationIn lexicon names) = pure (entries.map (primitivePublication names)) := by
    intro entries primitive
    induction entries with
    | nil => rfl
    | cons entry rest ih =>
      obtain ⟨first, others⟩ := List.forall_mem_cons.mp primitive
      rw [List.mapM_cons, ih others, publicationIn, paramSchema_primitive first]
      rfl
  exact each route.visibleParams primitive

/-- No two parameters have one location outside the body and one published name. -/
def Apart (names : Names) (entries : Table String ParamSpec) : Prop :=
  ∀ entry ∈ entries, ∀ other ∈ entries, primitiveLocation names entry ≠ .body →
    primitiveLocation names entry = primitiveLocation names other →
      names.published entry.1 = names.published other.1 → entry.1 = other.1

instance (names : Names) (entries : Table String ParamSpec) : Decidable (Apart names entries) :=
  inferInstanceAs (Decidable (∀ entry ∈ entries, ∀ other ∈ entries, _ → _ → _ → _))

/-- A parameter that is put last is kept, if no other one is put into its slot as late. -/
theorem KeepsLast.mem_of_alone {early late kept : List Parameter} {parameter : Parameter}
    (keeps : KeepsLast (early ++ late) kept) (member : parameter ∈ late)
    (alone : ∀ other ∈ late, other.slot = parameter.slot → other = parameter) : parameter ∈ kept := by
  obtain ⟨other, inKept, same, before, after, split, last⟩ :=
    keeps.exists_last (List.mem_append_right early member)
  have behind : parameter ∉ after := fun later => last (same ▸ List.mem_map_of_mem later)
  have isLate : other ∈ late := by
    rcases List.append_eq_append_iff.mp split with ⟨middle, -, rfl⟩ | ⟨middle, -, split⟩
    · exact List.mem_append_right middle List.mem_cons_self
    · rcases List.cons_eq_append_iff.mp split with ⟨-, rfl⟩ | ⟨rest, -, rfl⟩
      · exact List.mem_cons_self
      · exact absurd (List.mem_append_right rest member) behind
  exact alone other isLate same ▸ inKept

/-- What of a primitive parameter is documented where it travels. -/
structure DocumentedWhere (names : Names) (entry : String × ParamSpec)
    (built : Option Schema × List Parameter) : Prop where
  /-- Outside the body, everything. -/
  outside : primitiveLocation names entry ≠ .body → ∃ parameter ∈ built.2,
    parameter.slot = (primitiveLocation names entry, names.published entry.1) ∧
      parameter.description = entry.2.description ∧
      parameter.exampleValue = entry.2.documentation.exampleValue ∧
      parameter.extensions = vendorExtensions entry.2.documentation.extra
  /-- In the body, the description; an example and vendor extensions only if there are none. -/
  inBody : primitiveLocation names entry = .body → ∃ body property, built.1 = some body ∧
    Table.get? body.properties entry.1 = some property ∧
      property.description = entry.2.description ∧
      (property.exampleValue = entry.2.documentation.exampleValue ↔
        entry.2.documentation.exampleValue = none) ∧
      (property.extensions = vendorExtensions entry.2.documentation.extra ↔
        vendorExtensions entry.2.documentation.extra = [])

/-- Of a route without nested names, whose parameters have primitive types and slots of their own, every
parameter that is not hidden is documented where it travels. -/
theorem buildParams_documentation (lexicon : Lexicon) (aliases : Table String String)
    {route : RouteDescriptor} (distinct : (Table.keys route.params).Nodup)
    (unnested : route.params.keys.any isNested = false)
    (primitive : ∀ entry ∈ route.visibleParams, entry.2.IsPrimitive lexicon)
    (apart : Apart ⟨pathVariables route.path, aliases⟩ route.visibleParams) (progress : Progress) :
    ∀ entry ∈ route.visibleParams, DocumentedWhere ⟨pathVariables route.path, aliases⟩ entry
      ((buildParams lexicon aliases route).run progress).1 := by
  let names : Names := ⟨pathVariables route.path, aliases⟩
  intro entry member
  let published := route.visibleParams.map (primitivePublication names)
  have listed : primitivePublication names entry ∈ published := List.mem_map_of_mem member
  obtain ⟨-, documents⟩ := buildParams_documents lexicon aliases distinct unnested progress
  rw [resolveVisible_primitive names route primitive] at documents
  change Documents names route _ published _ at documents
  constructor
  case outside =>
    intro elsewhere
    obtain ⟨kept, keeps, parameters⟩ := documents.parameters
    have put : (primitivePublication names entry).parameter names ∈ outside names published :=
      List.mem_map_of_mem (List.mem_filter.mpr ⟨listed, decide_eq_true elsewhere⟩)
    refine ⟨(primitivePublication names entry).parameter names, ?_, rfl, rfl, rfl, rfl⟩
    rw [parameters]
    refine List.mem_append_right _ (keeps.mem_of_alone put fun other late same => ?_)
    obtain ⟨publication, among, rfl⟩ := List.mem_map.mp late
    obtain ⟨source, visible, rfl⟩ := List.mem_map.mp (List.mem_filter.mp among).1
    have sameSlot := Prod.mk.inj same
    have sameName := apart entry member source visible elsewhere sameSlot.1.symm sameSlot.2.symm
    rw [List.inj_on_of_nodup_map distinct (List.mem_filter.mp member).1 (List.mem_filter.mp visible).1
      sameName]
  case inBody =>
    intro here
    have silent := entry.2.primitiveSchema_silent
    have ownNames : ((Publication.inBody published).map (·.entry.1)).Nodup := by
      have visible : (published.map (·.entry.1)).Nodup := by
        rw [List.map_map]
        exact distinct.sublist (List.filter_sublist.map _)
      exact visible.sublist (List.filter_sublist.map _)
    cases made : ((buildParams lexicon aliases route).run progress).1.1 with
    | none => exact absurd here (documents.noBody.mp made _ listed)
    | some body =>
      refine ⟨body, entry.2.primitiveSchema.describe entry.2.description, rfl, ?_, ?_, ?_, ?_⟩
      · rw [documents.body body made]
        have among : primitivePublication names entry ∈ Publication.inBody published :=
          List.mem_filter.mpr ⟨listed, decide_eq_true here⟩
        refine Table.get?_of_mem ?_ (List.mem_map_of_mem among)
        rwa [Table.keys, flatBody, List.map_map]
      · rw [describe, silent.description, Option.or_none]
      · exact silent.exampleValue ▸ eq_comm
      · exact silent.extensions ▸ eq_comm

/-- A parameter with a description, an example and a vendor extension. -/
def documentedParam (location : String) : ParamSpec where
  type := some (.named "String")
  documentation :=
    { location := some location, description := some "A name", exampleValue := some (.string "Ada"),
      extra := [("x-order", .bool true)] }

/-- A route with one documented parameter in the query and one in the body. -/
def personRoute : RouteDescriptor where
  path := "/persons"
  method := .post
  params := [("filter", documentedParam "query"), ("name", documentedParam "body")]

theorem personRoute_primitive : ∀ entry ∈ personRoute.visibleParams, entry.2.IsPrimitive {} := by
  intro entry member token declared
  exact isPrimitive_builtIn token

theorem buildParams_documentation_person :
    (Table.keys personRoute.params).Nodup ∧ personRoute.params.keys.any isNested = false ∧
      Apart ⟨pathVariables personRoute.path, [("name", "filter")]⟩ personRoute.visibleParams ∧
      ∀ entry ∈ personRoute.visibleParams,
        DocumentedWhere ⟨pathVariables personRoute.path, [("name", "filter")]⟩ entry
          ((buildParams {} [("name", "filter")] personRoute).run {}).1 := by
  have distinct : (Table.keys personRoute.params).Nodup := by decide
  have unnested : personRoute.params.keys.any isNested = false := by decide
  have apart : Apart ⟨pathVariables personRoute.path, [("name", "filter")]⟩ personRoute.visibleParams := by
    decide
  exact ⟨distinct, unnested, apart, buildParams_documentation {} [("name", "filter")] distinct unnested
    personRoute_primitive apart {}⟩

/-- The example and the vendor extension of the parameter in the body are lost. -/
theorem body_drops_documentation : ¬∀ (lexicon : Lexicon) (aliases : Table String String)
    (route : RouteDescriptor), (Table.keys route.params).Nodup →
      route.params.keys.any isNested = false →
      (∀ entry ∈ route.visibleParams, entry.2.IsPrimitive lexicon) →
      Apart ⟨pathVariables route.path, aliases⟩ route.visibleParams → ∀ progress : Progress,
        ∀ entry ∈ route.visibleParams,
          primitiveLocation ⟨pathVariables route.path, aliases⟩ entry = .body →
            ∃ body property, ((buildParams lexicon aliases route).run progress).1.1 = some body ∧
              Table.get? body.properties entry.1 = some property ∧
                property.description = entry.2.description ∧
                property.exampleValue = entry.2.documentation.exampleValue ∧
                property.extensions = vendorExtensions entry.2.documentation.extra := by
  intro documents
  have listed : ("name", documentedParam "body") ∈ personRoute.visibleParams :=
    RouteDescriptor.mem_visibleParams.mpr ⟨List.mem_cons_of_mem _ List.mem_cons_self, rfl⟩
  obtain ⟨body, property, made, found, -, kept, -⟩ := documents {} [] personRoute (by decide) (by decide)
    personRoute_primitive (by decide) {} _ listed (by decide)
  obtain ⟨same, other, made', found', lost⟩ : ∃ body property,
      ((buildParams {} [] personRoute).run {}).1.1 = some body ∧
        Table.get? body.properties "name" = some property ∧ property.exampleValue = none :=
    ⟨_, _, rfl, rfl, rfl⟩
  obtain rfl : body = same := Option.some.inj (made.symm.trans made')
  obtain rfl : property = other := Option.some.inj (found.symm.trans found')
  cases lost.symm.trans kept

end Route

end ApiDoc
