import ApiDoc.Proofs.Export.Exchange
import ApiDoc.Proofs.Schema.Outline

/-! # What alike schemas render to

Where a schema is used, it renders to what its outline renders to (`siteText_outline`). So alike
schemas have one text at a place of use, and definitions with alike parts have one body: an export takes
them for each other (`alike_exchange`).
-/

namespace ApiDoc.Export

open Json Schema

variable {dialect : Dialect} {schema first second : Schema}

/-- The content of a schema stays if its parts are taken for their outlines. -/
theorem plainContent_skeleton
    (inVariants : plainVariants dialect (schema.oneOf.map outline) = plainVariants dialect schema.oneOf)
    (inProperties : plainProperties dialect (Table.mapValues outline schema.properties) [] =
      plainProperties dialect schema.properties [])
    (inItems : plainItems dialect (schema.items.map outline) = plainItems dialect schema.items) :
    plainContent dialect schema.skeleton = plainContent dialect schema := by
  have variantsLeft : (schema.oneOf.map outline).isEmpty = schema.oneOf.isEmpty := List.isEmpty_map
  have propertiesLeft : (Table.mapValues outline schema.properties).isEmpty = schema.properties.isEmpty :=
    List.isEmpty_map
  rw [plainContent_unfold, plainContent_unfold schema]
  unfold skeleton plainAssemble plainStart
  dsimp only
  rw [inVariants, inProperties, inItems, variantsLeft, propertiesLeft]
  rfl

theorem siteText_outline_of_content
    (content : plainContent dialect schema.skeleton = plainContent dialect schema) :
    siteText dialect schema.outline = siteText dialect schema := by
  unfold siteText plainUse
  rw [outline_unfold]
  cases named : schema.canonicalName with
  | some name =>
    rw [Option.isSome_some, if_pos rfl]
    unfold glimpse
    dsimp only
    rw [named]
    rfl
  | none =>
    have unnamed : schema.skeleton.canonicalName = none := named
    rw [Option.isSome_none, if_neg Bool.false_ne_true, content, unnamed]
    rfl

mutual

theorem siteText_outline : ∀ schema : Schema, siteText dialect schema.outline = siteText dialect schema
  | { properties := propertiesOf, items := itemsOf, oneOf := variantsOf, .. } => by
    exact siteText_outline_of_content (plainContent_skeleton (plainVariants_outline variantsOf)
      (plainProperties_outline propertiesOf []) (plainItems_outline itemsOf))

theorem plainVariants_outline : ∀ variants : List Schema,
    plainVariants dialect (variants.map outline) = plainVariants dialect variants
  | [] => rfl
  | variant :: rest => by
    have here : plainUse dialect variant.outline (plainContent dialect variant.outline) =
      plainUse dialect variant (plainContent dialect variant) := siteText_outline variant
    rw [List.map_cons, plainVariants, plainVariants, here, plainVariants_outline rest]

theorem plainProperties_outline : ∀ (properties : List (String × Schema)) (done : Fields),
    plainProperties dialect (Table.mapValues outline properties) done =
      plainProperties dialect properties done
  | [], done => rfl
  | (name, property) :: rest, done => by
    have here : plainUse dialect property.outline (plainContent dialect property.outline) =
      plainUse dialect property (plainContent dialect property) := siteText_outline property
    have others := plainProperties_outline rest
    unfold Table.mapValues at others ⊢
    rw [List.map_cons, plainProperties, plainProperties, here, others]

theorem plainItems_outline : ∀ items? : Option Schema,
    plainItems dialect (items?.map outline) = plainItems dialect items?
  | none => rfl
  | some items => by
    have here : plainUse dialect items.outline (plainContent dialect items.outline) =
      plainUse dialect items (plainContent dialect items) := siteText_outline items
    rw [Option.map_some, plainItems, plainItems, here]

end

/-- Alike schemas render to one text where they are used. -/
theorem siteText_eq (alike : first.Alike second) : siteText dialect first = siteText dialect second := by
  rw [← siteText_outline first, alike, siteText_outline]

/-- Schemas with alike parts are defined by one text. -/
theorem plainBody_eq (same : first.AlikeParts second) :
    plainBody dialect first = plainBody dialect second := by
  have content (schema : Schema) : plainContent dialect schema.skeleton = plainContent dialect schema :=
    plainContent_skeleton (plainVariants_outline _) (plainProperties_outline _ []) (plainItems_outline _)
  have shown (schema : Schema) : plainBody dialect schema =
      decorate dialect schema.skeleton (plainContent dialect schema.skeleton) := by
    rw [content]
    rfl
  rw [shown, shown second, same]

theorem relatedParts_of_alikeParts (same : first.AlikeParts second) : first.RelatedParts Alike second := by
  obtain ⟨_, _, _, rfl, properties, items, variants⟩ := alikeParts_iff.mp same
  exact ⟨rfl, properties, items, variants⟩

/-- An export takes alike schemas for each other. -/
theorem alike_exchange (dialect : Dialect) : Exchange dialect Alike AlikeParts where
  sameText _ _ := siteText_eq
  sameName first second alike := by
    rcases alike.cases with same | ⟨-, same⟩
    · exact same.name
    · exact (congrArg canonicalName same).symm
  unnamed first second alike none := by
    rcases alike.cases with same | ⟨-, same⟩
    · have named := same.named
      simp [none] at named
    · exact same
  sameBody _ _ := plainBody_eq
  inside _ _ same := parts_related (relatedParts_of_alikeParts same)

end ApiDoc.Export
