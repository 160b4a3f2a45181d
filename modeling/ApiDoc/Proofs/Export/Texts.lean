import ApiDoc.Proofs.Export.Content

/-! # What operations render to

The texts of operations and paths, put together from those of the schemas they use. They depend on no
definition and on nothing that was rendered before; what the walk does beside them is to visit the
sites of an interface. A document is the text of the paths with the definitions behind it.
-/

namespace ApiDoc.Export

open Json

variable (dialect : Dialect)

def siteText (site : Schema) : Json := plainUse dialect site (plainContent dialect site)

variable {dialect} in
theorem plainVariants_eq (variants : List Schema) :
    plainVariants dialect variants = variants.map (siteText dialect) := by
  induction variants with
  | nil => rfl
  | cons variant rest ih => rw [plainVariants, ih]; rfl

variable {dialect} in
theorem plainProperties_eq (properties : Table String Schema) (done : Fields) :
    plainProperties dialect properties done =
      Table.extend done (Table.mapValues (siteText dialect) properties) := by
  induction properties generalizing done with
  | nil => rfl
  | cons entry rest ih => rw [plainProperties, ih]; rfl

variable {dialect} in
theorem plainItems_eq (items? : Option Schema) :
    plainItems dialect items? = (items?.map (siteText dialect)).getD (object (typeFields dialect .string)) := by
  cases items? <;> rfl

def parameterTexts (all : List Parameter) : List Json :=
  all.filterMap fun parameter =>
    (dialect.parameter? parameter (siteText dialect parameter.schema)).map fun fields =>
      object (fields.extend parameter.extensions)

def parameterText (parameter : Parameter) : Json :=
  object (((dialect.parameter? parameter (siteText dialect parameter.schema)).getD []).extend
    parameter.extensions)

variable {dialect} in
theorem parameterTexts_eq_map (all : List Parameter) : parameterTexts dialect all =
    (all.filter fun parameter =>
      (dialect.parameter? parameter (siteText dialect parameter.schema)).isSome).map
        (parameterText dialect) := by
  induction all with
  | nil => rfl
  | cons parameter rest ih =>
    unfold parameterTexts at ih ⊢
    rw [List.filterMap_cons, List.filter_cons, ih]
    cases found : dialect.parameter? parameter (siteText dialect parameter.schema) with
    | none => simp
    | some fields => simp [parameterText, found]

def mediaTexts (all : List MediaType) : List Dialect.RenderedMedia :=
  all.map fun one => ⟨one.mime, siteText dialect one.schema, one.exampleValue⟩

def headerTexts (all : Table String Header) : List (String × Dialect.RenderedHeader) :=
  all.map fun entry => (entry.1, ⟨entry.2.description, siteText dialect entry.2.schema⟩)

def responseText (produces : List String) (one : Response) : Json :=
  let body := one.schema.map (siteText dialect)
  object ((dialect.response one body (headerTexts dialect one.headers) produces).extend one.extensions)

def responseTexts (produces : List String) (all : Table String Response) (done : Fields) : Fields :=
  Table.extend done (Table.mapValues (responseText dialect produces) all)

def operationText (one : Operation) : Json :=
  let start : Fields := Table.insertSome [] "operationId" (one.operationId.map string)
  let start := start.insertSome "summary" (one.summary.map string)
  let start := start.insertSome "description" (one.description.map string)
  let start := Dialect.insertList start "tags" (one.tags.map string)
  let start := dialect.operationMedia one start
  let body := one.requestBody.map fun body => (body, mediaTexts dialect body.content)
  let fields := parametersAndBody dialect start (parameterTexts dialect one.parameters) body
  let produces := if one.produces.isEmpty then ["application/json"] else one.produces
  let fields := fields.insert "responses" (object (responseTexts dialect produces one.responses []))
  let fields := if one.deprecated then fields.insert "deprecated" (bool true) else fields
  let fields := Dialect.insertList fields "security" (one.security.map securityObject)
  object (fields.extend one.extensions)

def operationTexts (all : Table Method Operation) (done : Fields) : Fields :=
  Table.extend done (all.map fun entry => (entry.1.key, operationText dialect entry.2))

def pathTexts (all : List PathItem) (done : Fields) : Fields :=
  Table.extend done (all.map fun item =>
    (item.template, object (operationTexts dialect item.operations [])))

def documentText (api : Api) (definitions : Fields) : Json :=
  let start := Dialect.insertList (dialect.head api) "tags" (api.tags.map tagObject)
  let start := start.insert "paths" (object (pathTexts dialect api.paths []))
  object (dialect.finish start definitions api.securitySchemes)

end ApiDoc.Export
