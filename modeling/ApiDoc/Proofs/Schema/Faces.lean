import ApiDoc.Proofs.Schema.Nodes
import ApiDoc.Schema.Primitive
import ApiDoc.Type.Introspection

/-! # Properties of single nodes

Most of what is done to a schema documents it: descriptions, formats, values, examples, extensions. The
`face` of a node is what such changes leave alone. A property of nodes that looks at nothing else and that
plain types and arrays have (`NodeLaw`) is kept at every node by all operations on schemas, except
that adding properties changes a face: there the property has to be shown for the changed node.
-/

namespace ApiDoc

namespace Schema

/-- What a node says of its value apart from what documents it, and of its parts only which there
are. -/
structure Face where
  canonicalName : Option String
  type : Option SchemaType
  properties : List String
  required : NameSet
  hasItems : Bool
  variants : Nat
  /-- Whether all extensions stand under keys that start with `x-`. -/
  marked : Bool

def face (schema : Schema) : Face where
  canonicalName := schema.canonicalName
  type := schema.type
  properties := Table.keys schema.properties
  required := schema.required
  hasItems := schema.items.isSome
  variants := schema.oneOf.length
  marked := (Table.keys schema.extensions).all (·.startsWith "x-")

theorem isStub_iff {schema : Schema} : schema.isStub = true ↔
    schema.face.canonicalName.isSome = true ∧ schema.face.type = none ∧ schema.face.variants = 0 := by
  simp [isStub, face, and_assoc]

/-- The property looks at nothing but the face of a node. -/
def Superficial (holds : Schema → Prop) : Prop :=
  ∀ first second, first.face = second.face → holds first → holds second

/-- A property of nodes that looks at nothing but their faces and that all plain types have. -/
structure NodeLaw (holds : Schema → Prop) : Prop where
  superficial : Superficial holds
  plain : ∀ schema type, schema.face = ⟨none, some type, [], [], false, 0, true⟩ → type ≠ .array →
    holds schema
  array : ∀ items, holds (.array items)

theorem NodeLaw.and {first second : Schema → Prop} (left : NodeLaw first) (right : NodeLaw second) :
    NodeLaw fun node => first node ∧ second node where
  superficial _ _ same here :=
    ⟨left.superficial _ _ same here.1, right.superficial _ _ same here.2⟩
  plain schema type same other := ⟨left.plain schema type same other, right.plain schema type same other⟩
  array items := ⟨left.array items, right.array items⟩

variable {holds : Schema → Prop} {schema other : Schema}

/-- A change that leaves the face and the parts of a schema alone. -/
theorem All.of_face (superficial : Superficial holds) (all : schema.All holds)
    (sameFace : schema.face = other.face) (sameProperties : other.properties = schema.properties)
    (sameItems : other.items = schema.items) (sameVariants : other.oneOf = schema.oneOf) :
    other.All holds := by
  obtain ⟨root, properties, items, variants⟩ := all_iff.mp all
  refine all_iff.mpr ⟨superficial _ _ sameFace root, ?_, ?_, ?_⟩
  · rwa [sameProperties]
  · rwa [sameItems]
  · rwa [sameVariants]

theorem All.describe (superficial : Superficial holds) (all : schema.All holds)
    (description : Option String) : (schema.describe description).All holds :=
  all.of_face superficial rfl rfl rfl rfl

/-- The items of a schema may be exchanged, if it has the property behind that. -/
theorem All.withItems (all : schema.All holds) {items : Schema}
    (root : holds { schema with items := some items }) (inItems : items.All holds) :
    ({ schema with items := some items } : Schema).All holds := by
  obtain ⟨-, properties, -, variants⟩ := all_iff.mp all
  refine all_iff.mpr ⟨root, properties, ?_, variants⟩
  intro other same
  cases same
  exact inItems

/-- A node that has items has the same face with other ones. -/
theorem face_withItems {schema : Schema} (present : schema.items.isSome = true) (items : Schema) :
    schema.face = ({ schema with items := some items } : Schema).face := by
  simp only [face, present, Option.isSome_some]

theorem All.restrict (superficial : Superficial holds) (all : schema.All holds) (values : List Json) :
    (schema.restrict values).All holds := by
  unfold Schema.restrict
  split
  · exact all
  · split
    · next items present =>
      have has : schema.items.isSome = true := by simp [present]
      refine all.withItems (superficial _ _ (face_withItems has _) all.root) ?_
      exact (all.items items present).of_face superficial rfl rfl rfl rfl
    · exact all.of_face superficial rfl rfl rfl rfl

/-- Vendor extensions leave a node as marked as it is. -/
theorem all_keys_extend (extensions entries : Table String Json) :
    (Table.keys (Table.extend extensions (vendorExtensions entries))).all (·.startsWith "x-") =
      (Table.keys extensions).all (·.startsWith "x-") := by
  rw [Bool.eq_iff_iff, List.all_eq_true, List.all_eq_true]
  constructor
  · exact fun all key member => all key (Table.mem_keys_extend.mpr (.inl member))
  · intro all key member
    rcases Table.mem_keys_extend.mp member with old | new
    · exact all key old
    · obtain ⟨entry, listed, rfl⟩ := List.mem_map.mp new
      exact (List.mem_filter.mp listed).2

/-- What is documented of a field leaves its face alone. -/
theorem All.documented (superficial : Superficial holds) (all : schema.All holds)
    (documentation : FieldDocumentation) : (documentation.apply schema).All holds := by
  have described : ({ schema.describe documentation.description with
      nullable := documentation.nullable || (schema.describe documentation.description).nullable
      format := documentation.format.or (schema.describe documentation.description).format } :
        Schema).All holds := all.of_face superficial rfl rfl rfl rfl
  refine (described.restrict superficial documentation.values).of_face superficial ?_ rfl rfl rfl
  exact congrArg (Face.mk _ _ _ _ _ _) (all_keys_extend _ _).symm

theorem NodeLaw.string (law : NodeLaw holds) : Schema.string.All holds :=
  all_of_leaf (law.plain _ .string rfl (by decide)) rfl rfl rfl

theorem NodeLaw.object (law : NodeLaw holds) : Schema.object.All holds :=
  all_of_leaf (law.plain _ .object rfl (by decide)) rfl rfl rfl

theorem All.array (law : NodeLaw holds) (all : schema.All holds) : (Schema.array schema).All holds := by
  refine all_iff.mpr ⟨law.array schema, by simp [Schema.array], ?_, by simp [Schema.array]⟩
  intro items present
  cases present
  exact all

theorem All.arrayIf (law : NodeLaw holds) (all : schema.All holds) (wanted : Bool) :
    (Schema.arrayIf wanted schema).All holds := by
  unfold Schema.arrayIf
  split
  · exact all.array law
  · exact all

theorem NodeLaw.primitive? (law : NodeLaw holds) {name : String}
    (found : Primitive.schema? name = some schema) : schema.All holds := by
  unfold Primitive.schema? at found
  split at found <;> cases found
  all_goals first
    | exact law.string.array law
    | exact all_of_leaf (law.plain _ _ rfl (by decide)) rfl rfl rfl

/-- A primitive schema is the one of a name in the table, or that of strings. -/
theorem primitive_cases (name : String) : Primitive.schema name = .string ∨
    ∃ listed, Primitive.schema? listed = some (Primitive.schema name) := by
  unfold Primitive.schema
  split
  · next found => exact .inr ⟨name, found⟩
  · cases last : (Primitive.lastPart? name).bind Primitive.schema? with
    | none => exact .inl rfl
    | some schema =>
      obtain ⟨part, -, found⟩ := Option.bind_eq_some_iff.mp last
      exact .inr ⟨part, found⟩

theorem NodeLaw.primitive (law : NodeLaw holds) (name : String) : (Primitive.schema name).All holds := by
  rcases primitive_cases name with string | ⟨listed, found⟩
  · exact string ▸ law.string
  · exact law.primitive? found

theorem All.ofVariants {variants : List Schema} (root : holds (ofVariants variants))
    (all : ∀ variant ∈ variants, variant.All holds) : (Schema.ofVariants variants).All holds :=
  all_iff.mpr ⟨root, by simp [Schema.ofVariants], by simp [Schema.ofVariants], all⟩

theorem Below.addProperty (below : schema.Below holds) {property : Schema} (inProperty : property.All holds)
    (name : String) (required : Bool) : (schema.addProperty name property required).Below holds := by
  refine ⟨fun entry member => ?_, below.2⟩
  rcases Table.mem_of_mem_insert member with rfl | member
  · exact inProperty
  · exact below.1 entry member

theorem Below.mergeProperties (below : schema.Below holds) (inOther : other.Below holds) :
    (schema.mergeProperties other).Below holds := by
  refine ⟨fun entry member => ?_, below.2⟩
  rcases Table.mem_of_mem_extend member with member | member
  · exact below.1 entry member
  · exact inOther.1 entry member

/-- A field brings into the parts of a schema what it brings into its own. -/
theorem Below.addField (superficial : Superficial holds) {base target : Schema}
    (inBase : base.All holds) (below : target.Below holds) (field : Field) :
    (field.addProperty base target).Below holds := by
  have property := inBase.documented superficial field.documentation
  have optional : ({ field.documentation.apply base with nullable := true } : Schema).All holds :=
    property.of_face superficial rfl rfl rfl rfl
  unfold Field.addProperty
  split
  · exact below.addProperty optional _ _
  · exact below.addProperty property _ _

theorem All.insertProperty (all : schema.All holds) {property : Schema}
    (inProperty : property.All holds) (name : String) {required : NameSet}
    (root : holds { schema with
      properties := Table.insert schema.properties name property
      required := required }) :
    ({ schema with
        properties := Table.insert schema.properties name property
        required := required } : Schema).All holds :=
  Below.all (all.below.addProperty inProperty name true) root

theorem All.addProperty (all : schema.All holds) {property : Schema} (inProperty : property.All holds)
    {name : String} {required : Bool} (root : holds (schema.addProperty name property required)) :
    (schema.addProperty name property required).All holds :=
  (all.below.addProperty inProperty name required).all root

theorem All.mergeProperties (all : schema.All holds) (inOther : other.All holds)
    (root : holds (schema.mergeProperties other)) : (schema.mergeProperties other).All holds :=
  (all.below.mergeProperties inOther.below).all root

/-- A field may be added to a schema that may be given the property. -/
theorem All.addField (superficial : Superficial holds) {base target : Schema}
    (inBase : base.All holds) (inTarget : target.All holds) (field : Field)
    (root : ∀ property required, holds (target.addProperty field.key property required)) :
    (field.addProperty base target).All holds := by
  refine (Below.addField superficial inBase inTarget.below field).all ?_
  unfold Field.addProperty
  split <;> exact root _ _

end Schema

end ApiDoc
