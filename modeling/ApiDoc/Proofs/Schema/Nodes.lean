import ApiDoc.Schema

/-! # The nodes of a schema

A schema is a tree: below it stand its properties, its items and its alternatives. `Occurs` names
the nodes at any depth, the schema itself among them, and `All` says that every node has a
property. `all_iff` opens `All` one level, so that each operation on schemas has one lemma that
says what it keeps.
-/

namespace ApiDoc.Schema

/-- `Occurs node schema`: the node stands in the schema, at any depth. -/
inductive Occurs (node : Schema) : Schema → Prop
  | self : Occurs node node
  | property {schema : Schema} {name : String} {property : Schema} :
      (name, property) ∈ schema.properties → Occurs node property → Occurs node schema
  | items {schema items : Schema} : schema.items = some items → Occurs node items →
      Occurs node schema
  | variant {schema variant : Schema} : variant ∈ schema.oneOf → Occurs node variant →
      Occurs node schema

/-- Every node of a schema has a property. -/
def All (holds : Schema → Prop) (schema : Schema) : Prop := ∀ node, Occurs node schema → holds node

variable {holds holds' : Schema → Prop} {schema : Schema}

theorem all_iff : schema.All holds ↔ holds schema ∧ (∀ entry ∈ schema.properties, entry.2.All holds) ∧
    (∀ items, schema.items = some items → items.All holds) ∧
      ∀ variant ∈ schema.oneOf, variant.All holds := by
  constructor
  · intro all
    refine ⟨all _ .self, ?_, ?_, ?_⟩
    · intro entry member node occurs
      exact all node (.property member occurs)
    · intro items present node occurs
      exact all node (.items present occurs)
    · intro variant member node occurs
      exact all node (.variant member occurs)
  · rintro ⟨root, properties, items, variants⟩ node occurs
    cases occurs with
    | self => exact root
    | property member occurs => exact properties _ member node occurs
    | items present occurs => exact items _ present node occurs
    | variant member occurs => exact variants _ member node occurs

/-- Every node below a schema has a property. -/
def Below (holds : Schema → Prop) (schema : Schema) : Prop :=
  (∀ entry ∈ schema.properties, entry.2.All holds) ∧
    (∀ items, schema.items = some items → items.All holds) ∧
      ∀ variant ∈ schema.oneOf, variant.All holds

theorem All.below (all : schema.All holds) : schema.Below holds := (all_iff.mp all).2

theorem Below.all (below : schema.Below holds) (root : holds schema) : schema.All holds :=
  all_iff.mpr ⟨root, below⟩

theorem All.imp (weaker : ∀ node, holds node → holds' node) (all : schema.All holds) :
    schema.All holds' := fun node occurs => weaker node (all node occurs)

theorem Below.imp (weaker : ∀ node, holds node → holds' node) (below : schema.Below holds) :
    schema.Below holds' :=
  ⟨fun entry member => (below.1 entry member).imp weaker,
    fun items present => (below.2.1 items present).imp weaker,
    fun variant member => (below.2.2 variant member).imp weaker⟩

theorem All.root (all : schema.All holds) : holds schema := all _ .self

theorem All.properties (all : schema.All holds) : ∀ entry ∈ schema.properties, entry.2.All holds :=
  (all_iff.mp all).2.1

theorem All.items (all : schema.All holds) : ∀ items, schema.items = some items → items.All holds :=
  (all_iff.mp all).2.2.1

theorem All.variants (all : schema.All holds) : ∀ variant ∈ schema.oneOf, variant.All holds :=
  (all_iff.mp all).2.2.2

theorem below_of_leaf (properties : schema.properties = []) (items : schema.items = none)
    (variants : schema.oneOf = []) : schema.Below holds := by
  refine ⟨?_, ?_, ?_⟩
  · simp [properties]
  · simp [items]
  · simp [variants]

/-- A schema without parts has only itself as a node. -/
theorem all_of_leaf (root : holds schema) (properties : schema.properties = [])
    (items : schema.items = none) (variants : schema.oneOf = []) : schema.All holds :=
  (below_of_leaf properties items variants).all root

end ApiDoc.Schema
