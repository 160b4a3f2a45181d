import ApiDoc.Proofs.Tables
import ApiDoc.Type.Introspection

/-! # Outlines of schemas

Where a schema with a canonical name is used, a document shows a reference, whatever the schema says
of its value: a stub and the whole schema of an entity look the same there. `outline` keeps what can
be told apart at a place of use. Two schemas are `Alike` if they have one outline, and `AlikeParts` if
they agree in themselves and have alike parts, as definitions of one name do. All that is done to
schemas makes alike schemas of alike ones.
-/

namespace ApiDoc

namespace Schema

/-- The type of a schema, which is not told apart from none if it is that of objects. -/
def plainType (schema : Schema) : Option SchemaType :=
  if schema.type = some .object then none else schema.type

/-- What a use of a named schema shows, and what the description of a parameter is taken from. -/
def glimpse (schema : Schema) : Schema where
  canonicalName := schema.canonicalName
  type := schema.plainType
  description := schema.description
  nullable := schema.nullable
  extensions := schema.extensions

mutual

/-- What a use of a schema shows: of a named one what belongs to the reference, of any other one
everything. -/
def outline : Schema → Schema
  | schema@{ properties := propertiesOf, items := itemsOf, oneOf := variantsOf, .. } =>
    match schema.canonicalName with
    | some _ => schema.glimpse
    | none => { schema with
        properties := outlineProperties propertiesOf
        items := outlineItems itemsOf
        oneOf := outlineAll variantsOf }

def outlineProperties : List (String × Schema) → List (String × Schema)
  | [] => []
  | (name, property) :: rest => (name, outline property) :: outlineProperties rest

def outlineItems : Option Schema → Option Schema
  | none => none
  | some items => some (outline items)

def outlineAll : List Schema → List Schema
  | [] => []
  | variant :: rest => outline variant :: outlineAll rest

end

/-- The schema itself with the outlines of its parts. -/
def skeleton (schema : Schema) : Schema :=
  { schema with
    properties := Table.mapValues outline schema.properties
    items := schema.items.map outline
    oneOf := schema.oneOf.map outline }

theorem outlineProperties_eq (properties : List (String × Schema)) :
    outlineProperties properties = Table.mapValues outline properties := by
  induction properties with
  | nil => rfl
  | cons entry rest ih => rw [outlineProperties, ih, Table.mapValues, Table.mapValues, List.map_cons]

theorem outlineItems_eq (items? : Option Schema) : outlineItems items? = items?.map outline := by
  cases items? <;> rfl

theorem outlineAll_eq (variants : List Schema) : outlineAll variants = variants.map outline := by
  induction variants with
  | nil => rfl
  | cons variant rest ih => rw [outlineAll, ih, List.map_cons]

theorem outline_unfold (schema : Schema) : schema.outline =
    if schema.canonicalName.isSome then schema.glimpse else schema.skeleton := by
  cases schema with
  | mk canonicalName =>
    cases canonicalName with
    | some name => rw [outline]; rfl
    | none =>
      rw [outline, outlineProperties_eq, outlineItems_eq, outlineAll_eq]
      rfl

/-- No use tells the schemas apart. -/
def Alike (first second : Schema) : Prop := first.outline = second.outline

/-- The schemas agree in all but their parts, and those are alike. -/
def AlikeParts (first second : Schema) : Prop := first.skeleton = second.skeleton

/-- Both schemas have one name, and a reference to it shows the same of them. -/
structure SameReference (first second : Schema) : Prop where
  named : first.canonicalName.isSome = true
  name : second.canonicalName = first.canonicalName
  type : second.plainType = first.plainType
  description : second.description = first.description
  nullable : second.nullable = first.nullable
  extensions : second.extensions = first.extensions

variable {first second third : Schema}

theorem Alike.refl (schema : Schema) : schema.Alike schema := rfl

theorem AlikeParts.refl (schema : Schema) : schema.AlikeParts schema := rfl

theorem related_alike_iff {left right : Table String Schema} :
    Table.mapValues outline left = Table.mapValues outline right ↔
      Table.Related (fun _ => Alike) left right := by
  unfold Table.mapValues Table.Related
  rw [← List.forall₂_eq_eq_eq, List.forall₂_map_left_iff, List.forall₂_map_right_iff]
  constructor
  · exact List.Forall₂.imp fun first second same => by simpa [Alike] using same
  · exact List.Forall₂.imp fun first second same => by simpa [Alike] using same

theorem option_alike_iff {left right : Option Schema} :
    left.map outline = right.map outline ↔ Option.Rel Alike left right := by
  cases left <;> cases right <;> simp [Alike]

theorem forall₂_alike_iff {left right : List Schema} :
    left.map outline = right.map outline ↔ List.Forall₂ Alike left right := by
  rw [← List.forall₂_eq_eq_eq, List.forall₂_map_left_iff, List.forall₂_map_right_iff]
  exact Iff.rfl

/-- Schemas with alike parts differ in nothing else. -/
theorem alikeParts_iff : first.AlikeParts second ↔ ∃ properties items variants,
    second = { first with properties := properties, items := items, oneOf := variants } ∧
      Table.Related (fun _ => Alike) first.properties properties ∧
        Option.Rel Alike first.items items ∧ List.Forall₂ Alike first.oneOf variants := by
  simp only [← related_alike_iff, ← option_alike_iff, ← forall₂_alike_iff]
  constructor
  · intro same
    refine ⟨second.properties, second.items, second.oneOf, ?_, congrArg properties same,
      congrArg items same, congrArg oneOf same⟩
    cases first
    cases second
    simp only [AlikeParts, skeleton, mk.injEq] at same
    simp [same]
  · rintro ⟨properties, items, variants, rfl, sameProperties, sameItems, sameVariants⟩
    unfold AlikeParts skeleton
    rw [sameProperties, sameItems, sameVariants]

theorem AlikeParts.properties (same : first.AlikeParts second) :
    Table.Related (fun _ => Alike) first.properties second.properties := by
  obtain ⟨_, _, _, rfl, related, -⟩ := alikeParts_iff.mp same
  exact related

theorem SameReference.alike (same : first.SameReference second) : first.Alike second := by
  unfold Alike
  rw [outline_unfold, outline_unfold, if_pos same.named, if_pos (by rw [same.name]; exact same.named)]
  unfold glimpse
  rw [same.name, same.type, same.description, same.nullable, same.extensions]

theorem AlikeParts.alike (same : first.AlikeParts second) (unnamed : first.canonicalName = none) :
    first.Alike second := by
  have unnamed' : second.canonicalName = none := (congrArg canonicalName same).symm.trans unnamed
  unfold Alike
  rw [outline_unfold, outline_unfold, unnamed, unnamed']
  exact same

/-- Alike schemas have one name and the same reference, or no name and alike parts. -/
theorem Alike.cases (alike : first.Alike second) :
    first.SameReference second ∨ first.canonicalName = none ∧ first.AlikeParts second := by
  have sameName : first.canonicalName = second.canonicalName := by
    have shown (schema : Schema) : schema.outline.canonicalName = schema.canonicalName := by
      rw [outline_unfold]
      split <;> rfl
    rw [← shown first, ← shown second, alike]
  unfold Alike at alike
  rw [outline_unfold, outline_unfold, ← sameName] at alike
  split at alike
  · next named =>
    refine .inl ⟨named, sameName.symm, ?_, ?_, ?_, ?_⟩
    · exact (congrArg Schema.type alike).symm
    · exact (congrArg description alike).symm
    · exact (congrArg nullable alike).symm
    · exact (congrArg extensions alike).symm
  · next unnamed => exact .inr ⟨by simpa using unnamed, alike⟩

theorem Alike.description_eq (alike : first.Alike second) : second.description = first.description := by
  rcases alike.cases with same | ⟨-, same⟩
  · exact same.description
  · exact (congrArg description same).symm

/-- Whether a schema is of another type than objects are. -/
theorem Alike.isType (alike : first.Alike second) {type : SchemaType} (plain : type ≠ .object) :
    first.isType type = second.isType type := by
  have seen (schema : Schema) : schema.isType type = (schema.plainType == some type) := by
    unfold Schema.isType plainType
    split
    · next object => simp [object, Ne.symm plain]
    · rfl
  rcases alike.cases with same | ⟨-, same⟩
  · rw [seen, seen, same.type]
  · unfold Schema.isType
    rw [show second.type = first.type from (congrArg Schema.type same).symm]

theorem Alike.array (alike : first.Alike second) :
    (Schema.array first).Alike (Schema.array second) := by
  refine AlikeParts.alike (alikeParts_iff.mpr ⟨[], some second, [], rfl, .nil, ?_, .nil⟩) rfl
  exact .some alike

theorem Alike.arrayIf (alike : first.Alike second) (wanted : Bool) :
    (first.arrayIf wanted).Alike (second.arrayIf wanted) := by
  unfold Schema.arrayIf
  rw [alike.isType (by decide : SchemaType.array ≠ .object)]
  split
  · exact alike.array
  · exact alike

theorem alike_ofVariants {variants variants' : List Schema}
    (alike : List.Forall₂ Alike variants variants') : (ofVariants variants).Alike (ofVariants variants') :=
  AlikeParts.alike (alikeParts_iff.mpr ⟨[], none, variants', rfl, .nil, .none, alike⟩) rfl

/-- A change of what a schema says of itself: its name, its type and its parts stay, and what becomes
of its description, of null and of its extensions depends on nothing but what they were. -/
structure Remark (change : Schema → Schema) : Prop where
  name : ∀ schema, (change schema).canonicalName = schema.canonicalName := by intro _; rfl
  type : ∀ schema, (change schema).type = schema.type := by intro _; rfl
  description : ∀ first second, first.description = second.description →
    (change first).description = (change second).description := by intro _ _ same; exact same
  nullable : ∀ first second, first.nullable = second.nullable →
    (change first).nullable = (change second).nullable := by intro _ _ same; exact same
  extensions : ∀ first second, first.extensions = second.extensions →
    (change first).extensions = (change second).extensions := by intro _ _ same; exact same
  kept : ∀ schema, (change schema).properties = schema.properties ∧
    (change schema).items = schema.items ∧ (change schema).oneOf = schema.oneOf := by
      intro _; exact ⟨rfl, rfl, rfl⟩
  parts : ∀ schema properties items variants,
    change { schema with properties := properties, items := items, oneOf := variants } =
      { change schema with properties := properties, items := items, oneOf := variants } := by
        intro _ _ _ _; rfl

namespace Remark

variable {change : Schema → Schema}

theorem alikeParts (remark : Remark change) (same : first.AlikeParts second) :
    (change first).AlikeParts (change second) := by
  obtain ⟨properties, items, variants, rfl, parts⟩ := alikeParts_iff.mp same
  obtain ⟨sameProperties, sameItems, sameVariants⟩ := remark.kept first
  rw [remark.parts]
  refine alikeParts_iff.mpr ⟨properties, items, variants, rfl, ?_⟩
  rwa [sameProperties, sameItems, sameVariants]

theorem alike (remark : Remark change) (alike : first.Alike second) :
    (change first).Alike (change second) := by
  rcases alike.cases with same | ⟨unnamed, same⟩
  · have type (schema : Schema) : (change schema).plainType = schema.plainType := by
      unfold plainType
      rw [remark.type]
    refine SameReference.alike ⟨?_, ?_, ?_, ?_, ?_, ?_⟩
    · rw [remark.name, same.named]
    · rw [remark.name, remark.name, same.name]
    · rw [type, type, same.type]
    · exact remark.description _ _ same.description
    · exact remark.nullable _ _ same.nullable
    · exact remark.extensions _ _ same.extensions
  · refine (remark.alikeParts same).alike ?_
    rw [remark.name, unnamed]

theorem describe (description : Option String) : Remark (·.describe description) where
  description _ _ := congrArg description.or

theorem defaulted (value? : Option Json) :
    Remark fun schema => { schema with defaultValue := value?.or schema.defaultValue } where

theorem values (values : List Json) : Remark ({ · with enumValues := values }) where

theorem nullableToo : Remark ({ · with nullable := true }) where
  nullable _ _ _ := rfl

end Remark

theorem Alike.restrict (alike : first.Alike second) (values : List Json) :
    (first.restrict values).Alike (second.restrict values) := by
  have kept (schema : Schema) : (schema.restrict values).canonicalName = schema.canonicalName ∧
      (schema.restrict values).plainType = schema.plainType ∧
        (schema.restrict values).description = schema.description ∧
        (schema.restrict values).nullable = schema.nullable ∧
          (schema.restrict values).extensions = schema.extensions := by
    unfold Schema.restrict
    split
    · exact ⟨rfl, rfl, rfl, rfl, rfl⟩
    · split <;> exact ⟨rfl, rfl, rfl, rfl, rfl⟩
  rcases alike.cases with same | ⟨unnamed, same⟩
  · obtain ⟨name, type, description, nullable, extensions⟩ := kept first
    obtain ⟨name', type', description', nullable', extensions'⟩ := kept second
    refine SameReference.alike ⟨?_, ?_, ?_, ?_, ?_, ?_⟩
    · rw [name, same.named]
    · rw [name, name', same.name]
    · rw [type, type', same.type]
    · rw [description, description', same.description]
    · rw [nullable, nullable', same.nullable]
    · rw [extensions, extensions', same.extensions]
  · have unnamedStill : (first.restrict values).canonicalName = none := (kept first).1.trans unnamed
    refine AlikeParts.alike ?_ unnamedStill
    obtain ⟨properties, items, variants, rfl, inProperties, inItems, inVariants⟩ :=
      alikeParts_iff.mp same
    unfold Schema.restrict
    split
    · exact same
    · cases present : first.items with
      | none =>
        rw [present] at inItems
        cases inItems
        have remarked := (Remark.values values).alikeParts same
        simpa only [present] using remarked
      | some one =>
        rw [present] at inItems
        cases inItems with
        | some here =>
          dsimp only
          have inOne := Option.Rel.some ((Remark.values values).alike here)
          exact alikeParts_iff.mpr ⟨properties, some _, variants, rfl, inProperties, inOne, inVariants⟩

/-- Documentation of a field shows in a reference as far as it says that null is admitted, and in its
extensions. -/
theorem Alike.documented (alike : first.Alike second) (documentation : FieldDocumentation) :
    (documentation.apply first).Alike (documentation.apply second) := by
  have formatted : Remark fun schema => { schema.describe documentation.description with
      nullable := documentation.nullable || schema.nullable
      format := documentation.format.or schema.format } :=
    { description _ _ := congrArg documentation.description.or
      nullable _ _ := congrArg (documentation.nullable || ·) }
  have exemplified : Remark fun schema => { schema with
      exampleValue := documentation.exampleValue.or schema.exampleValue
      defaultValue := documentation.defaultValue.or schema.defaultValue
      extensions := Table.extend schema.extensions (vendorExtensions documentation.extra) } :=
    { extensions _ _ := congrArg (Table.extend · (vendorExtensions documentation.extra)) }
  exact exemplified.alike ((formatted.alike alike).restrict documentation.values)

/-- An object may be given another property. -/
theorem AlikeParts.insertProperty (same : first.AlikeParts second) {name : String}
    {property property' : Schema} (alike : property.Alike property') (required : NameSet) :
    ({ first with
        properties := Table.insert first.properties name property
        required := required } : Schema).AlikeParts
      { second with
        properties := Table.insert second.properties name property'
        required := required } := by
  obtain ⟨properties, items, variants, rfl, inProperties, others⟩ := alikeParts_iff.mp same
  exact alikeParts_iff.mpr ⟨_, items, variants, rfl, inProperties.insert alike, others⟩

theorem AlikeParts.required_eq (same : first.AlikeParts second) : first.required = second.required := by
  have required : first.skeleton.required = second.skeleton.required := congrArg Schema.required same
  exact required

theorem AlikeParts.addProperty (same : first.AlikeParts second) {property property' : Schema}
    (alike : property.Alike property') (name : String) (required : Bool) :
    (first.addProperty name property required).AlikeParts (second.addProperty name property' required) := by
  unfold Schema.addProperty
  rw [← same.required_eq]
  exact same.insertProperty alike _

theorem AlikeParts.mergeProperties {other other' : Schema} (same : first.AlikeParts second)
    (there : other.AlikeParts other') :
    (first.mergeProperties other).AlikeParts (second.mergeProperties other') := by
  obtain ⟨properties, items, variants, rfl, inProperties, others⟩ := alikeParts_iff.mp same
  obtain ⟨more, moreItems, moreVariants, rfl, inMore, -⟩ := alikeParts_iff.mp there
  exact alikeParts_iff.mpr ⟨_, items, variants, rfl, inProperties.extend inMore, others⟩

/-- A field may be added that is made from alike schemas. -/
theorem AlikeParts.addBase (same : first.AlikeParts second) {base base' : Schema}
    (alike : base.Alike base') (field : Field) :
    (field.addProperty base first).AlikeParts (field.addProperty base' second) := by
  have documented := alike.documented field.documentation
  unfold Field.addProperty
  dsimp only
  split
  · exact same.addProperty (Remark.nullableToo.alike documented) _ _
  · exact same.addProperty documented _ _

end Schema

end ApiDoc
