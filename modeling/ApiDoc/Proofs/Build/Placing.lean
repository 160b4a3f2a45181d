import ApiDoc.Proofs.Build.Laws
import ApiDoc.Proofs.Schema.Faces

/-! # Placing parameters in a request body

The segments of a nested name lead a parameter through the properties of the body to its place. The
nodes on this way are given properties, so a property of nodes holds of the changed body if those
nodes have it whatever they are given (`insertNested_all`). A property that objects keep whatever
they are given is a law of every route (`ObjectLaw.siteLaw`).
-/

namespace ApiDoc

open Schema

namespace Route

variable {holds : Schema → Prop} {container leaf property : Schema} {name : String}

/-- The node has the property whatever it is given for a property of its own. -/
def Receives (holds : Schema → Prop) (node : Schema) : Prop :=
  ∀ (name : String) (property : Schema) (required : NameSet),
    (∀ other ∈ required, other ∈ node.required ∨ other = name) →
      holds { node with
        properties := Table.insert node.properties name property
        required := required }

theorem Receives.addProperty (receives : Receives holds container) (name : String) (property : Schema)
    (required : Bool) : holds (container.addProperty name property required) := by
  refine receives name property _ fun other member => ?_
  split at member
  · exact NameSet.mem_add.mp member
  · exact .inl (List.mem_of_mem_erase member)

/-- The nodes that the segments lead through have the property whatever they are given. Objects are
given properties, and arrays items; anything else is exchanged for one of them on the way. -/
def Open (holds : Schema → Prop) : Schema → List NameSegment → Prop
  | _, [] => True
  | container, segment :: rest => Receives holds container ∧
      ∀ property, Table.get? container.properties segment.name = some property →
        (property.type = some .object → Open holds property rest) ∧
          (property.type = some .array → (∀ items, holds { property with items := some items }) ∧
            ∀ items, property.items = some items → items.type = some .object → Open holds items rest)

theorem isType_iff {schema : Schema} {type : SchemaType} :
    schema.isType type = true ↔ schema.type = some type := by
  simp [isType]

/-- What an object receives that was made on the way. -/
def ReceivesFresh (holds : Schema → Prop) : Prop :=
  ∀ description, Receives holds (Schema.object.describe description)

theorem ReceivesFresh.open (fresh : ReceivesFresh holds) (description : Option String) :
    ∀ segments, Open holds (Schema.object.describe description) segments
  | [] => trivial
  | _ :: _ => ⟨fresh description, fun property found => by cases found⟩

/-- A holder of nested parameters is ready for what the segments place in it. -/
structure Ready (holds : Schema → Prop) (holder : Schema) (segments : List NameSegment) : Prop where
  all : holder.All holds
  array : holder.isType .array = true → (∀ items, holds { holder with items := some items }) ∧
    (itemsHolder holder).All holds ∧ Open holds (itemsHolder holder) segments
  object : ¬holder.isType .array = true → Open holds holder segments

section
variable (law : NodeLaw holds)
include law

theorem placeLeaf_all (all : container.All holds) (inLeaf : leaf.All holds) (segment : NameSegment)
    (receives : Receives holds container) (required : Bool) :
    (placeLeaf container segment leaf required).All holds := by
  have added : (container.addProperty segment.name (leaf.arrayIf segment.isArray) required).All holds :=
    all.addProperty (inLeaf.arrayIf law segment.isArray) (receives.addProperty _ _ _)
  unfold placeLeaf
  dsimp only
  split
  · next existing found =>
    split
    · have inExisting : existing.All holds := all.properties _ (Table.mem_of_get? found)
      refine all.insertProperty (inExisting.describe law.superficial _) _ (receives _ _ _ ?_)
      intro other member
      split at member
      · exact NameSet.mem_add.mp member
      · exact .inl member
    · exact added
  · exact added

/-- What holds nested parameters is an array with its items, a new array of objects, an object with
its properties, or a new object. -/
theorem asHolder_ready (fresh : ReceivesFresh holds) (all : property.All holds) (isArray : Bool)
    {segments : List NameSegment} (object : property.type = some .object → Open holds property segments)
    (array : property.type = some .array → (∀ items, holds { property with items := some items }) ∧
      ∀ items, property.items = some items → items.type = some .object → Open holds items segments) :
    Ready holds (asHolder isArray property) segments := by
  unfold asHolder
  split
  · next typed =>
    obtain ⟨given, inside⟩ := array (isType_iff.mp typed)
    refine ⟨all, fun _ => ⟨given, ?_⟩, fun other => absurd typed other⟩
    unfold itemsHolder
    split
    · next items present =>
      split
      · next itemsObject =>
        exact ⟨all.items items present, inside items present (isType_iff.mp itemsObject)⟩
      · exact ⟨law.object, fresh.open none segments⟩
    · exact ⟨law.object, fresh.open none segments⟩
  · next other =>
    split
    · have made : ((Schema.array .object).describe property.description).All holds :=
        (law.object.array law).describe law.superficial _
      refine ⟨made, fun _ => ⟨fun items => ?_, law.object, fresh.open none segments⟩,
        fun no => absurd rfl no⟩
      exact law.superficial _ _ (face_withItems rfl items) made.root
    · split
      · next typed => exact ⟨all, fun yes => absurd yes other, fun _ => object (isType_iff.mp typed)⟩
      · exact ⟨law.object.describe law.superficial _, fun yes => (by cases yes),
          fun _ => fresh.open _ segments⟩

/-- A property of nodes is kept by placing a parameter, if the nodes on its way have the property
whatever they are given. -/
theorem insertNested_all (fresh : ReceivesFresh holds) (segments : List NameSegment)
    (all : container.All holds) (inLeaf : leaf.All holds) (way : Open holds container segments)
    (required : Bool) : (insertNested container segments leaf required).All holds := by
  induction segments generalizing container with
  | nil => exact all
  | cons segment rest ih =>
    obtain ⟨receives, onward⟩ := way
    cases rest with
    | nil => exact placeLeaf_all law all inLeaf segment receives required
    | cons next rest =>
      have ready : Ready holds (asHolder segment.isArray
          ((Table.get? container.properties segment.name).getD .object)) (next :: rest) := by
        cases found : Table.get? container.properties segment.name with
        | none =>
          exact asHolder_ready law fresh law.object segment.isArray
            (fun _ => fresh.open none (next :: rest))
            fun array => by cases array
        | some property =>
          obtain ⟨object, array⟩ := onward property found
          have inProperty : property.All holds := all.properties _ (Table.mem_of_get? found)
          exact asHolder_ready law fresh inProperty segment.isArray object array
      rw [insertNested]
      refine all.insertProperty ?_ _ (receives _ _ _ fun other member => .inl member)
      split
      · next array =>
        obtain ⟨given, inItems, itemsOpen⟩ := ready.array array
        exact ready.all.withItems (given _) (ih inItems itemsOpen)
      · next other => exact ih ready.all (ready.object other)

end

end Route

open Route

variable {holds : Schema → Prop}

/-- Objects have the property whatever they are given, and arrays keep it with other items. -/
structure ObjectLaw (holds : Schema → Prop) : Prop extends NodeLaw holds where
  receives : ∀ node, holds node → node.type = some .object → Receives holds node
  withItems : ∀ node items, holds node → node.type = some .array → holds { node with items := some items }

theorem trivial_objectLaw : ObjectLaw fun _ => True where
  superficial _ _ _ _ := trivial
  plain _ _ _ _ := trivial
  array _ := trivial
  receives _ _ _ _ _ _ _ := trivial
  withItems _ _ _ _ := trivial

theorem ObjectLaw.open (law : ObjectLaw holds) : ∀ (segments : List NameSegment) {container : Schema},
    container.All holds → container.type = some .object → Open holds container segments
  | [], _, _, _ => trivial
  | segment :: rest, container, all, object => by
    refine ⟨law.receives _ all.root object, fun property found => ?_⟩
    have inProperty : property.All holds := all.properties _ (Table.mem_of_get? found)
    refine ⟨law.open rest inProperty, fun array => ⟨?_, ?_⟩⟩
    · exact fun items => law.withItems _ items inProperty.root array
    · exact fun items present => law.open rest (inProperty.items items present)

/-- A property that objects keep whatever they are given is a law of every route. -/
theorem ObjectLaw.siteLaw (law : ObjectLaw holds) (route : RouteDescriptor) :
    SiteLaw route (fun _ => Itself (Schema.All holds)) (fun _ => Itself (Schema.All holds))
      (fun _ => Itself fun schema => schema.type = some .object ∧ schema.All holds)
      (Itself fun schema => schema.type = some .object ∧ schema.All holds) where
  toLeafLaw := NodeLaw.leafLaw fun _ => law.toNodeLaw
  start := ⟨rfl, rfl, law.object⟩
  insertNested := by
    rintro _ placed _ container _ leaf _ required - ⟨rfl, object, all⟩ - - - ⟨rfl, inLeaf⟩
    have fresh : ReceivesFresh holds := fun description =>
      law.receives _ (law.object.describe law.superficial description).root rfl
    obtain ⟨properties, names, same⟩ :=
      insertNested_frame container (splitNested placed.1) leaf required
    refine ⟨rfl, by rw [same]; exact object, ?_⟩
    exact insertNested_all law.toNodeLaw fresh _ all inLeaf (law.open _ all object) required
  whole here := here
  addProperty := by
    rintro _ container _ leaf _ name required ⟨rfl, object, all⟩ ⟨rfl, inLeaf⟩
    refine ⟨rfl, object, all.addProperty inLeaf ?_⟩
    exact (law.receives _ all.root object).addProperty name leaf required
  agree := by rintro body _ ⟨rfl, -⟩; exact ⟨rfl, rfl, rfl⟩

end ApiDoc
