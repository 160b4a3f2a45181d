import ApiDoc.Proofs.Schema.Faces

/-! # Well-formed schemas

In a well-formed schema every node says a consistent thing of its value: only arrays have items, only
objects have properties, what is required is a property, alternatives stand alone, and a node that
says nothing else is a stub. Each operation that builds or rewrites schemas keeps them well formed;
properties may be added to objects only.
-/

namespace ApiDoc

namespace Schema

/-- A node says a consistent thing of its value. -/
structure Consistent (node : Schema) : Prop where
  /-- Exactly arrays have items. -/
  items : node.items.isSome = true ↔ node.type = some .array
  /-- What is required is a property. -/
  required : ∀ name ∈ node.required, name ∈ Table.keys node.properties
  /-- Only objects have properties. -/
  properties : node.properties ≠ [] → node.type = some .object
  /-- Alternatives stand without a type, and there are several. -/
  variants : node.oneOf ≠ [] → node.type = none ∧ 2 ≤ node.oneOf.length
  /-- A node with neither type nor alternatives is a stub. -/
  stub : node.type = none → node.oneOf = [] → node.isStub = true ∧ node.properties = []

def WellFormed (schema : Schema) : Prop := schema.All Consistent

variable {schema other : Schema}

theorem properties_eq_nil_iff : schema.properties = [] ↔ schema.face.properties = [] :=
  List.map_eq_nil_iff.symm

theorem oneOf_eq_nil_iff : schema.oneOf = [] ↔ schema.face.variants = 0 :=
  List.length_eq_zero_iff.symm

/-- What makes a node consistent is in its face. -/
theorem consistent_law : NodeLaw Consistent where
  superficial first second same here := by
    have shown : first.face.type = second.face.type := by rw [same]
    constructor
    · rw [show second.items.isSome = first.items.isSome from congrArg Face.hasItems same.symm,
        show second.type = first.type from shown.symm]
      exact here.items
    · rw [show second.required = first.required from congrArg Face.required same.symm,
        show Table.keys second.properties = Table.keys first.properties from
          congrArg Face.properties same.symm]
      exact here.required
    · rw [ne_eq, properties_eq_nil_iff, ← same, ← properties_eq_nil_iff,
        show second.type = first.type from shown.symm]
      exact here.properties
    · rw [ne_eq, oneOf_eq_nil_iff, ← same, ← oneOf_eq_nil_iff,
        show second.type = first.type from shown.symm,
        show second.oneOf.length = first.oneOf.length from congrArg Face.variants same.symm]
      exact here.variants
    · rw [isStub_iff, oneOf_eq_nil_iff, properties_eq_nil_iff, ← same, ← isStub_iff,
        ← oneOf_eq_nil_iff, ← properties_eq_nil_iff, show second.type = first.type from shown.symm]
      exact here.stub
  plain schema type same plain := by
    have typed : schema.type = some type := congrArg Face.type same
    have required : schema.required = [] := congrArg Face.required same
    have items : schema.items.isSome = false := congrArg Face.hasItems same
    have properties : schema.properties = [] := properties_eq_nil_iff.mpr (by rw [same])
    have variants : schema.oneOf = [] := oneOf_eq_nil_iff.mpr (by rw [same])
    constructor
    · simp [items, typed, plain]
    · simp [required]
    · simp [properties]
    · simp [variants]
    · simp [typed]
  array items := by constructor <;> simp [Schema.array]

def Bare (node : Schema) : Prop := node.properties = [] ∧ node.required = []

theorem bare_law : NodeLaw Bare where
  superficial first second same here := by
    refine ⟨?_, (congrArg Face.required same.symm).trans here.2⟩
    rw [properties_eq_nil_iff, ← same, ← properties_eq_nil_iff]
    exact here.1
  plain schema type same _ :=
    ⟨properties_eq_nil_iff.mpr (congrArg Face.properties same), congrArg Face.required same⟩
  array items := ⟨rfl, rfl⟩

theorem wellFormed_namedObject (name : String) : (namedObject name).WellFormed := by
  refine all_of_leaf ?_ rfl rfl rfl
  constructor <;> simp [namedObject, Schema.object]

theorem wellFormed_reference (name : String) : (reference name).WellFormed := by
  refine all_of_leaf ?_ rfl rfl rfl
  constructor <;> simp [reference, isStub]

theorem wellFormed_ofVariants {variants : List Schema} (several : 2 ≤ variants.length)
    (formed : ∀ variant ∈ variants, variant.WellFormed) : (ofVariants variants).WellFormed := by
  have some : variants ≠ [] := by
    rintro rfl
    simp at several
  refine All.ofVariants ?_ formed
  constructor <;> simp [ofVariants, several, some]

/-- An object stays consistent with other properties, if what it requires is among them. -/
theorem Consistent.withProperties (here : schema.Consistent) (object : schema.type = some .object)
    {properties : Table String Schema} {required : NameSet}
    (listed : ∀ name ∈ required, name ∈ Table.keys properties) :
    ({ schema with properties := properties, required := required } : Schema).Consistent := by
  refine ⟨here.items, listed, fun _ => object, here.variants, fun untyped => ?_⟩
  simp [object] at untyped

/-- A property may be written into an object, which may require it. -/
theorem Consistent.insertProperty (here : schema.Consistent) (object : schema.type = some .object)
    (name : String) (property : Schema) {required : NameSet}
    (listed : ∀ other ∈ required, other ∈ schema.required ∨ other = name) :
    ({ schema with
        properties := Table.insert schema.properties name property
        required := required } : Schema).Consistent := by
  refine here.withProperties object fun other member => ?_
  rcases listed other member with old | rfl
  · exact Table.mem_keys_insert.mpr (.inr (here.required other old))
  · exact Table.mem_keys_insert.mpr (.inl rfl)

theorem WellFormed.mergeProperties (formed : schema.WellFormed) (object : schema.type = some .object)
    (inOther : other.WellFormed) : (schema.mergeProperties other).WellFormed := by
  refine All.mergeProperties formed inOther (formed.root.withProperties object fun name member => ?_)
  refine Table.mem_keys_extend.mpr ?_
  exact (NameSet.mem_addAll.mp member).imp (formed.root.required name) (inOther.root.required name)

theorem WellFormed.addField {base target : Schema} (inBase : base.WellFormed)
    (inTarget : target.WellFormed) (object : target.type = some .object) (field : Field) :
    (field.addProperty base target).WellFormed := by
  refine All.addField consistent_law.superficial inBase inTarget field fun property required => ?_
  refine inTarget.root.insertProperty object field.key property fun other member => ?_
  split at member
  · exact NameSet.mem_add.mp member
  · exact .inl (List.mem_of_mem_erase member)

end Schema

end ApiDoc
