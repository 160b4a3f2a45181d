import ApiDoc.Proofs.Build.Operations
import ApiDoc.Proofs.Export.Texts
import ApiDoc.Proofs.Schema.Parts

/-! # Schemas with the same texts

What is rendered from schemas depends on nothing but their texts. So a schema renders to the same
content if its parts are exchanged for others with the same texts (`plainContent_eq`), and operations
and paths render to the same texts if their schemas are (`operationText_eq`, `pathTexts_eq`).
-/

namespace ApiDoc.Export

open Json

variable {dialect : Dialect}

/-- Schemas with the same text where they are used. -/
def SameText (dialect : Dialect) (first second : Schema) : Prop :=
  siteText dialect first = siteText dialect second

theorem SameText.eq {first second : Schema} (same : SameText dialect first second) :
    siteText dialect first = siteText dialect second := same

theorem plainContent_eq {first second : Schema}
    (related : first.RelatedParts (SameText dialect) second) :
    plainContent dialect first = plainContent dialect second := by
  obtain ⟨properties, items?, oneOf, rfl⟩ : ∃ properties items? oneOf,
      second = { first with properties, items := items?, oneOf } := ⟨_, _, _, related.frame⟩
  have inProperties : Table.mapValues (siteText dialect) first.properties =
      Table.mapValues (siteText dialect) properties :=
    related.properties.mapValues_eq fun _ _ => SameText.eq
  have inItems : first.items.map (siteText dialect) = items?.map (siteText dialect) :=
    map_eq_of_optionRel (fun _ _ => SameText.eq) related.items
  have inVariants : first.oneOf.map (siteText dialect) = oneOf.map (siteText dialect) :=
    map_eq_of_forall₂ (fun _ _ => SameText.eq) related.variants
  have propertiesLeft : first.properties.isEmpty = properties.isEmpty := related.properties.isEmpty_eq
  have variantsLeft : first.oneOf.isEmpty = oneOf.isEmpty := by
    simpa only [List.isEmpty_map] using congrArg List.isEmpty inVariants
  rw [plainContent_unfold, plainContent_unfold { first with properties, items := items?, oneOf }]
  unfold plainAssemble plainStart
  simp only [plainProperties_eq, plainItems_eq, plainVariants_eq, inProperties, inItems, inVariants,
    propertiesLeft, variantsLeft]
  rfl

theorem parameterTexts_eq {left right : List Parameter}
    (related : List.Forall₂ (Parameter.Related (SameText dialect)) left right) :
    parameterTexts dialect left = parameterTexts dialect right := by
  unfold parameterTexts
  induction related with
  | nil => rfl
  | @cons one other _ _ here _ ih =>
    obtain ⟨frame, sameText⟩ := here
    have same : ∀ text, dialect.parameter? other text = dialect.parameter? one text := by
      intro text
      rw [frame]
      cases dialect <;> rfl
    have extensions : other.extensions = one.extensions := by rw [frame]
    rw [List.filterMap_cons, List.filterMap_cons, ih, sameText.eq, same, extensions]

theorem mediaTexts_eq {left right : List MediaType}
    (related : List.Forall₂ (MediaType.Related (SameText dialect)) left right) :
    mediaTexts dialect left = mediaTexts dialect right := by
  unfold mediaTexts
  induction related with
  | nil => rfl
  | cons here _ ih =>
    obtain ⟨frame, same⟩ := here
    rw [List.map_cons, List.map_cons, ih, same.eq, frame]

theorem headerTexts_eq {left right : Table String Header}
    (related : Table.Related (fun _ => Header.Related (SameText dialect)) left right) :
    headerTexts dialect left = headerTexts dialect right := by
  unfold headerTexts
  induction related with
  | nil => rfl
  | cons here _ ih =>
    obtain ⟨key, frame, same⟩ := here
    rw [List.map_cons, List.map_cons, ih, key, same.eq, frame]

theorem responseText_eq {one other : Response} (related : one.Related (SameText dialect) other)
    (produces : List String) : responseText dialect produces one = responseText dialect produces other := by
  obtain ⟨schema?, headers, rfl⟩ : ∃ schema? headers, other = { one with schema := schema?, headers } :=
    ⟨_, _, related.frame⟩
  have body : one.schema.map (siteText dialect) = schema?.map (siteText dialect) :=
    map_eq_of_optionRel (fun _ _ => SameText.eq) related.schema
  have inHeaders : headerTexts dialect one.headers = headerTexts dialect headers :=
    headerTexts_eq related.headers
  have same (body : Option Json) (shown : List (String × Dialect.RenderedHeader)) :
      dialect.response { one with schema := schema?, headers } body shown produces =
        dialect.response one body shown produces := by
    cases dialect <;> rfl
  unfold responseText
  dsimp only
  rw [body, inHeaders, same]

theorem responseTexts_eq {left right : Table String Response}
    (related : Table.Related (fun _ => Response.Related (SameText dialect)) left right)
    (produces : List String) (done : Fields) :
    responseTexts dialect produces left done = responseTexts dialect produces right done := by
  have same : Table.mapValues (responseText dialect produces) left =
      Table.mapValues (responseText dialect produces) right := by
    unfold Table.mapValues
    induction related with
    | nil => rfl
    | cons here _ ih => rw [List.map_cons, List.map_cons, ih, here.1, responseText_eq here.2]
  unfold responseTexts
  rw [same]

theorem parametersAndBody_eq {body? body?' : Option RequestBody}
    (related : Option.Rel (RequestBody.Related (SameText dialect)) body? body?') (fields : Fields) (texts : List Json) :
    parametersAndBody dialect fields texts (body?.map fun body => (body, mediaTexts dialect body.content)) =
      parametersAndBody dialect fields texts
        (body?'.map fun body => (body, mediaTexts dialect body.content)) := by
  cases related with
  | none => rfl
  | @some body body' here =>
    have content : mediaTexts dialect body.content = mediaTexts dialect body'.content :=
      mediaTexts_eq here.content
    have same : dialect.requestBody body' = dialect.requestBody body := by
      rw [here.frame]
      cases dialect <;> rfl
    unfold parametersAndBody
    rw [Option.map_some, Option.map_some, content]
    dsimp only
    rw [same]

/-- Operations that differ in nothing but schemas with the same texts render to one text. -/
theorem operationText_eq {one other : Operation} (related : one.Related (SameText dialect) (SameText dialect) other) :
    operationText dialect one = operationText dialect other := by
  obtain ⟨parameters, body?, responses, rfl⟩ : ∃ parameters body? responses,
      other = { one with parameters, requestBody := body?, responses } := ⟨_, _, _, related.frame⟩
  have inParameters : parameterTexts dialect one.parameters = parameterTexts dialect parameters :=
    parameterTexts_eq related.parameters
  have inBody (fields : Fields) (texts : List Json) :
      parametersAndBody dialect fields texts
          (one.requestBody.map fun body => (body, mediaTexts dialect body.content)) =
        parametersAndBody dialect fields texts
          (body?.map fun body => (body, mediaTexts dialect body.content)) :=
    parametersAndBody_eq related.requestBody fields texts
  have inResponses (produces : List String) :
      responseTexts dialect produces one.responses [] = responseTexts dialect produces responses [] :=
    responseTexts_eq related.responses produces []
  have media : ∀ fields,
      dialect.operationMedia { one with parameters, requestBody := body?, responses } fields =
        dialect.operationMedia one fields := by
    intro fields
    cases dialect <;> rfl
  unfold operationText
  dsimp only
  rw [inParameters, inBody, inResponses, media]

theorem operationTexts_eq {left right : Table Method Operation}
    (related : Table.Related (fun _ => Operation.Related (SameText dialect) (SameText dialect)) left right)
    (done : Fields) : operationTexts dialect left done = operationTexts dialect right done := by
  unfold operationTexts
  congr 1
  induction related with
  | nil => rfl
  | cons here _ ih => rw [List.map_cons, List.map_cons, ih, here.1, operationText_eq here.2]

/-- Paths that differ in nothing but schemas with the same texts render to one text. -/
theorem pathTexts_eq {left right : List PathItem}
    (related : List.Forall₂ (PathItem.Related (SameText dialect)) left right) (done : Fields) :
    pathTexts dialect left done = pathTexts dialect right done := by
  unfold pathTexts
  congr 1
  induction related with
  | nil => rfl
  | cons here _ ih =>
    rw [List.map_cons, List.map_cons, ih, here.template, operationTexts_eq here.operations]

end ApiDoc.Export
