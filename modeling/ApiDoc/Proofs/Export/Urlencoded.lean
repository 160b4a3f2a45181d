import ApiDoc.Proofs.Build.Travels
import ApiDoc.Proofs.Export.Forms

/-! # Bodies with form fields

A route that declares no media types takes a body without files as a form, if a visible parameter is
declared as a form field (`buildOperation_urlencoded`). Such a field is documented in the body, unless its
root is hidden, the path has a variable of its name, or it travels with a root outside the body. The media
type does not depend on that: it is the one of forms even where the only form field is not in the body
(`covered_field_makes_form`).
-/

namespace ApiDoc

open Schema Route

variable {config : Config} {lexicon : Lexicon} {route : RouteDescriptor} {names : Names}
  {params : Table String ParamSpec} {entry : String × ParamSpec}

/-- A visible parameter of a route that is declared as a form field. -/
structure FormField (route : RouteDescriptor) (entry : String × ParamSpec) : Prop where
  declared : entry ∈ route.params
  shown : entry.2.documentation.hidden = false
  form : entry.2.isForm = true

theorem declaresForm_iff : route.declaresForm = true ↔ ∃ entry, FormField route entry := by
  unfold RouteDescriptor.declaresForm Table.values
  simp only [List.any_map, List.any_eq_true, Function.comp_apply, Bool.and_eq_true, Bool.not_eq_true']
  exact ⟨fun ⟨entry, declared, shown, form⟩ => ⟨entry, declared, shown, form⟩,
    fun ⟨entry, field⟩ => ⟨entry, field.declared, field.shown, field.form⟩⟩

/-- What names a form travels in the body. -/
theorem Location.ofHint?_of_isForm {hint : String} (form : Location.isForm hint = true) :
    Location.ofHint? hint = some .body := by
  simp only [Location.isForm, Bool.or_eq_true, beq_iff_eq] at form
  unfold Location.ofHint?
  rcases form with named | named
  · rw [named]
    rfl
  · rw [named]
    rfl

/-- Nothing but the path keeps a form field out of the body, where it says itself where it travels. -/
theorem locate_of_isForm (form : entry.2.isForm = true) (schema : Schema) :
    locate names entry.1 entry.2 schema = if entry.1 ∈ names.pathVariables then .path else .body := by
  have inBody : ∃ hint, entry.2.documentation.location = some hint ∧ Location.ofHint? hint = some .body := by
    unfold ParamSpec.isForm at form
    split at form
    · next hint declared => exact ⟨hint, declared, Location.ofHint?_of_isForm form⟩
    · cases form
  obtain ⟨hint, declared, located⟩ := inBody
  unfold locate
  simp [declared, located]

/-- The ways for a form field to travel outside the body: the path has a variable of its name, and no root
says otherwise, or its root travels there. -/
inductive Moved (lexicon : Lexicon) (names : Names) (params : Table String ParamSpec)
    (entry : String × ParamSpec) : Location → Prop
  | inPath : entry.1 ∈ names.pathVariables →
      (params.keys.any isNested = true → rootParam? params (rootName entry.1) = none) →
      Moved lexicon names params entry .path
  | withRoot {root : ParamSpec} {schema : Schema} : params.keys.any isNested = true →
      rootParam? params (rootName entry.1) = some root → Yields lexicon root schema →
      locate names (rootName entry.1) root schema ≠ .body →
      Moved lexicon names params entry (locate names (rootName entry.1) root schema)

/-- A form field that travels outside the body is moved there. -/
theorem Route.Travels.moved {location : Location} (travels : Travels lexicon names params entry location)
    (form : entry.2.isForm = true) (outside : location ≠ .body) :
    Moved lexicon names params entry location := by
  cases travels with
  | withRoot nested stands yields => exact .withRoot nested stands yields outside
  | alone rootless yields =>
    rw [locate_of_isForm form] at outside ⊢
    split at outside
    · next inPath =>
      rw [if_pos inPath]
      exact .inPath inPath rootless
    · exact absurd rfl outside

theorem consumesOf_eq_form_iff (undeclared : route.consumes = []) (unset : config.consumes = [])
    {body? : Option Schema} : route.consumesOf config body? = [formMediaType] ↔
      (∃ body, body? = some body ∧ hasFile body = false) ∧ ∃ entry, FormField route entry := by
  have apart : multipartMediaType ≠ formMediaType := by decide
  rw [← declaresForm_iff, consumesOf_of_undeclared undeclared unset]
  cases body? with
  | none => simp
  | some body => cases file : hasFile body <;> cases route.declaresForm <;> simp [file, apart]

/-- Where neither a route nor the configuration declares media types, the operation takes the one of forms
exactly if it has a body, no property of which is a file, and a visible parameter is declared as a form
field. Unless the root of such a parameter is hidden, the operation documents it, and in its body unless
the parameter is moved. -/
theorem buildOperation_urlencoded (config : Config) (lexicon : Lexicon) (route : RouteDescriptor)
    (undeclared : route.consumes = []) (unset : config.consumes = []) (progress : Progress) :
    let names : Names := ⟨pathVariables route.path, config.paramAliases⟩
    let built := ((buildParams lexicon config.paramAliases route).run progress).1
    let operation := ((route.buildOperation config lexicon).run progress).1
    operation.parameters = built.2 ∧
      operation.requestBody = built.1.map (route.requestBodyOf operation.consumes) ∧
      (operation.consumes = [formMediaType] ↔
        (∃ body, built.1 = some body ∧ ∀ property ∈ body.properties, property.2.type ≠ some .file) ∧
          ∃ entry, FormField route entry) ∧
      ∀ entry, FormField route entry →
        route.params.keys.any isNested = true ∧ rootName entry.1 ∈ hiddenRoots route.params ∨
          ∃ location, DocumentedAt lexicon names route.params entry built location ∧
            (location ≠ .body → Moved lexicon names route.params entry location) := by
  intro names built operation
  obtain ⟨consumes, request⟩ := route.buildOperation_body config lexicon progress
  have fileless (body : Schema) :
      hasFile body = false ↔ ∀ property ∈ body.properties, property.2.type ≠ some .file := by
    rw [← Bool.not_eq_true, hasFile_iff]
    push Not
    rfl
  refine ⟨Operation.insertResponses_keeps (·.parameters) (fun _ _ => rfl) _ _, consumes ▸ request, ?_, fun entry field => ?_⟩
  · rw [consumes, consumesOf_eq_form_iff undeclared unset]
    simp only [fileless]
    rfl
  · by_cases covered : route.params.keys.any isNested = true ∧ rootName entry.1 ∈ hiddenRoots route.params
    · exact .inl covered
    obtain ⟨location, travels, documented⟩ := buildParams_accounts lexicon config.paramAliases route progress
      entry field.declared field.shown fun nested hidden => covered ⟨nested, hidden⟩
    exact .inr ⟨location, documented, travels.moved field.form⟩

def formParam : ParamSpec := { documentation := { location := some "formData" } }

/-- A route with a form field in its body, one in its path and one whose root is hidden. -/
def memberRoute : RouteDescriptor where
  path := "/members/:id"
  method := .post
  params :=
    [("member[name]", formParam), ("id", formParam), ("trace[level]", formParam), ("trace", hiddenParam)]

theorem buildOperation_urlencoded_member : memberRoute.consumes = [] ∧ ({} : Config).consumes = [] ∧
    ((memberRoute.buildOperation {} {}).run {}).1.consumes = [formMediaType] ∧
      DocumentedAt {} ⟨["id"], []⟩ memberRoute.params ("member[name]", formParam)
        ((buildParams {} [] memberRoute).run {}).1 .body := by
  have field : FormField memberRoute ("member[name]", formParam) :=
    ⟨List.mem_cons_self, rfl, by decide⟩
  obtain ⟨-, -, takes, fields⟩ := buildOperation_urlencoded {} {} memberRoute rfl rfl {}
  obtain ⟨body, member, made, listed, typed⟩ : ∃ body member,
      ((buildParams {} [] memberRoute).run {}).1.1 = some body ∧ body.properties = [("member", member)] ∧
        member.type = some .object := ⟨_, _, rfl, rfl, rfl⟩
  have fileless : ∀ property ∈ body.properties, property.2.type ≠ some .file := by simp [listed, typed]
  refine ⟨rfl, rfl, takes.mpr ⟨⟨body, made, fileless⟩, _, field⟩, ?_⟩
  have uncovered : "member" ∉ hiddenRoots memberRoute.params := by decide
  have free : "member[name]" ∉ pathVariables memberRoute.path := by decide
  have rootless : rootParam? memberRoute.params "member" = none := by decide
  rcases fields _ field with ⟨-, covered⟩ | ⟨location, documented, moved⟩
  · exact absurd covered uncovered
  by_cases inBody : location = .body
  · exact inBody ▸ documented
  · cases moved inBody with
    | inPath inPath _ => exact absurd inPath free
    | withRoot _ stands _ _ => cases rootless.symm.trans stands

/-- A route whose only form field has a hidden root. -/
def coveredRoute : RouteDescriptor where
  path := "/users"
  method := .post
  params := [("note", bodyParam), ("user", hiddenParam), ("user[name]", formParam)]

/-- A form field whose root is hidden makes a form of a body that has nothing of it. -/
theorem covered_field_makes_form : ¬∀ (config : Config) (lexicon : Lexicon) (route : RouteDescriptor),
    route.consumes = [] → config.consumes = [] → ∀ progress : Progress,
      ((route.buildOperation config lexicon).run progress).1.consumes = [formMediaType] →
        ∃ entry, FormField route entry ∧
          DocumentedAt lexicon ⟨pathVariables route.path, config.paramAliases⟩ route.params entry
            ((buildParams lexicon config.paramAliases route).run progress).1 .body := by
  intro documents
  obtain ⟨entry, field, documented⟩ := documents {} {} coveredRoute rfl rfl {} rfl
  have keys : (((buildParams {} [] coveredRoute).run {}).1.1.map fun body => Table.keys body.properties) =
      some ["note"] := rfl
  have nested : coveredRoute.params.keys.any isNested = true := by decide
  have onlyField : entry.1 = "user[name]" := by
    obtain ⟨declared, shown, form⟩ := field
    simp only [coveredRoute, List.mem_cons, List.not_mem_nil, or_false] at declared
    rcases declared with rfl | rfl | rfl
    · revert form
      decide
    · cases shown
    · rfl
  cases documented with
  | property flat => cases nested.symm.trans flat
  | outside outside => exact outside rfl
  | nested _ made listed =>
    rw [made, Option.map_some, Option.some.injEq] at keys
    rw [keys, onlyField] at listed
    revert listed
    decide

end ApiDoc
