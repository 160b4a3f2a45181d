import ApiDoc.Proofs.Build.Hiding
import ApiDoc.Proofs.Schema.WellFormed

/-! # The trees that nested parameters make

The tree of a body says which properties there are at each node, which of them are required, and whether a
node is an object, an array or something else. It follows from the set of parameters that are placed
(`Holds`), not from their order: a container that holds some parameters holds one more once it is placed
(`Holds.insertNested`), so a new object holds all that are placed in it (`holds_foldl_place`), and two
containers that hold the same parameters have the same tree (`Holds.sameTree`). The parameters have to
agree on the ways to their places (`Agree`).
-/

namespace ApiDoc

/-- The schemas have the same tree: objects the same properties and the same required ones, arrays the same
items, and everything else is the same schema. -/
inductive Schema.SameTree : Schema → Schema → Prop
  | same (schema : Schema) : SameTree schema schema
  | object {first second : Schema} : first.type = some .object → second.type = some .object →
      (∀ name, name ∈ Table.keys first.properties ↔ name ∈ Table.keys second.properties) →
      (∀ name, name ∈ first.required ↔ name ∈ second.required) →
      (∀ name property property', Table.get? first.properties name = some property →
        Table.get? second.properties name = some property' → SameTree property property') →
      SameTree first second
  | array {first second items items' : Schema} : first.type = some .array → second.type = some .array →
      first.items = some items → second.items = some items' → SameTree items items' →
      SameTree first second

namespace Schema

variable {first second : Schema}

theorem SameTree.type_eq (same : first.SameTree second) : first.type = second.type := by
  cases same with
  | same => rfl
  | object typed typed' => rw [typed, typed']
  | array typed typed' => rw [typed, typed']

/-- Objects with the same tree have properties with the same trees. -/
theorem SameTree.property (same : first.SameTree second) (object : first.type = some .object) {name : String}
    {property property' : Schema} (found : Table.get? first.properties name = some property)
    (found' : Table.get? second.properties name = some property') : property.SameTree property' := by
  cases same with
  | same =>
    obtain rfl := Option.some.inj (found.symm.trans found')
    exact .same property
  | object _ _ _ _ properties => exact properties name property property' found found'
  | array typed =>
    rw [object] at typed
    cases typed

end Schema

namespace Route

open Schema

variable {container property : Schema} {segment : NameSegment}

/-- A parameter on its way to its place in a container. -/
structure Placement where
  segments : List NameSegment
  leaf : Schema
  required : Bool

namespace Placement

def path (placement : Placement) : List String := placement.segments.map (·.name)

/-- What stands at the place as long as nothing is nested in it. -/
def value (placement : Placement) : Schema :=
  placement.leaf.arrayIf (placement.segments.getLast?.any (·.isArray))

def place (container : Schema) (placement : Placement) : Schema :=
  insertNested container placement.segments placement.leaf placement.required

/-- What is left of the way of a parameter inside a property. -/
def inside? (name : String) (placement : Placement) : Option Placement :=
  match placement.segments with
  | segment :: next :: rest =>
    if segment.name = name then some { placement with segments := next :: rest } else none
  | _ => none

def nestedIn (name : String) (placed : List Placement) : List Placement := placed.filterMap (inside? name)

theorem inside?_eq_some {name : String} {placement inner : Placement} :
    placement.inside? name = some inner ↔ ∃ segment next rest,
      placement.segments = segment :: next :: rest ∧ segment.name = name ∧
        inner = { placement with segments := next :: rest } := by
  obtain ⟨segments, leaf, required⟩ := placement
  unfold inside?
  rcases segments with _ | ⟨segment, _ | ⟨next, rest⟩⟩
  · simp
  · simp
  · dsimp only
    split
    · next here => simp [here, eq_comm]
    · next apart => simp [apart]

theorem mem_nestedIn {name : String} {placed : List Placement} {inner : Placement} :
    inner ∈ nestedIn name placed ↔ ∃ placement ∈ placed, ∃ segment next rest,
      placement.segments = segment :: next :: rest ∧ segment.name = name ∧
        inner = { placement with segments := next :: rest } := by
  simp only [nestedIn, List.mem_filterMap, inside?_eq_some]

theorem nestedIn_append (name : String) (placed : List Placement) (placement : Placement) :
    nestedIn name (placed ++ [placement]) = nestedIn name placed ++ (placement.inside? name).toList := by
  unfold nestedIn
  rw [List.filterMap_append, List.filterMap_cons, List.filterMap_nil]
  cases placement.inside? name <;> rfl

theorem value_of_inside {placement : Placement} {segment next : NameSegment} {rest : List NameSegment}
    (segments : placement.segments = segment :: next :: rest) :
    value { placement with segments := next :: rest } = placement.value := by
  unfold value
  rw [segments, List.getLast?_cons_cons]

theorem nestedIn_append_of_ne {name other : String} {placement : Placement}
    (starts : placement.path.head? = some name) (apart : name ≠ other) (placed : List Placement) :
    nestedIn other (placed ++ [placement]) = nestedIn other placed := by
  have outside : placement.inside? other = none := by
    refine Option.eq_none_iff_forall_not_mem.mpr fun inner found => ?_
    obtain ⟨segment, next, rest, segments, here, -⟩ := inside?_eq_some.mp found
    unfold path at starts
    rw [segments] at starts
    exact apart ((Option.some.inj starts).symm.trans here)
  rw [nestedIn_append, outside]
  exact List.append_nil _

/-- A parameter that starts under a name ends there, or it is nested in the property of the name. -/
theorem path_eq_or_mem_nestedIn {name : String} {placed : List Placement} {placement : Placement}
    (member : placement ∈ placed) (starts : placement.path.head? = some name) :
    placement.path = [name] ∨ ∃ segment next rest, placement.segments = segment :: next :: rest ∧
      segment.name = name ∧ { placement with segments := next :: rest } ∈ nestedIn name placed := by
  unfold path at starts ⊢
  rcases segments : placement.segments with _ | ⟨segment, _ | ⟨next, rest⟩⟩
  · rw [segments] at starts
    cases starts
  · rw [segments] at starts
    exact .inl (congrArg (fun name => [name]) (Option.some.inj starts))
  · rw [segments] at starts
    have here : segment.name = name := Option.some.inj starts
    exact .inr ⟨segment, next, rest, rfl, here, mem_nestedIn.mpr ⟨placement, member, _, _, _, segments, here, rfl⟩⟩

end Placement

open Placement

/-- The tree of the container is what the placed parameters make. Its properties are where they start, the
required ones where a required one ends. A property in which nothing is nested is the parameter that ends
there; any other one is an array or an object, as the parameters in it are written, and holds them. -/
inductive Holds : Schema → List Placement → Prop
  | intro {container : Schema} {placed : List Placement}
      (object : container.type = some .object)
      (keys : ∀ name, name ∈ Table.keys container.properties ↔
        ∃ placement ∈ placed, placement.path.head? = some name)
      (required : ∀ name, name ∈ container.required ↔
        ∃ placement ∈ placed, placement.required = true ∧ placement.path = [name])
      (ends : ∀ placement ∈ placed, ∀ name, placement.path = [name] → nestedIn name placed = [] →
        Table.get? container.properties name = some placement.value)
      (arrays : ∀ placement ∈ placed, ∀ segment next rest,
        placement.segments = segment :: next :: rest →
        ∀ property, Table.get? container.properties segment.name = some property →
          property.isType .array = segment.isArray)
      (inner : ∀ name property, Table.get? container.properties name = some property →
        nestedIn name placed ≠ [] → Holds property.holder (nestedIn name placed)) :
      Holds container placed

variable {placed placed' : List Placement}

theorem Holds.object : Holds container placed → container.type = some .object
  | .intro object .. => object

theorem Holds.mem_keys : Holds container placed → ∀ {name : String},
    name ∈ Table.keys container.properties ↔ ∃ placement ∈ placed, placement.path.head? = some name
  | .intro _ keys .., name => keys name

theorem Holds.mem_required : Holds container placed → ∀ {name : String},
    name ∈ container.required ↔ ∃ placement ∈ placed, placement.required = true ∧ placement.path = [name]
  | .intro _ _ requires .., name => requires name

/-- A property without others in it is the parameter that ends there. -/
theorem Holds.get?_of_ends : Holds container placed → ∀ {placement : Placement}, placement ∈ placed →
    ∀ {name : String}, placement.path = [name] → nestedIn name placed = [] →
      Table.get? container.properties name = some placement.value
  | .intro _ _ _ ends .., placement, member, name => ends placement member name

theorem Holds.isArray_eq : Holds container placed → ∀ {placement : Placement}, placement ∈ placed →
    ∀ {segment next : NameSegment} {rest : List NameSegment}, placement.segments = segment :: next :: rest →
      Table.get? container.properties segment.name = some property →
      property.isType .array = segment.isArray
  | .intro _ _ _ _ arrays _, placement, member, segment, next, rest, segments =>
    arrays placement member segment next rest segments property

/-- A property holds the parameters that are nested in it. -/
theorem Holds.inside : Holds container placed → ∀ {name : String},
    Table.get? container.properties name = some property → nestedIn name placed ≠ [] →
      Holds property.holder (nestedIn name placed)
  | .intro _ _ _ _ _ inner, name => inner name property

/-- A bare object holds nothing. -/
theorem holds_nil (object : container.type = some .object) (bare : container.Bare) : Holds container [] := by
  obtain ⟨properties, required⟩ := bare
  refine .intro object (fun name => ?_) (fun name => ?_) ?_ ?_ ?_
  · simp [properties, Table.keys]
  · simp [required]
  · simp
  · simp
  · simp [nestedIn]

/-- A property is found under the name where a placed parameter starts. -/
theorem Holds.found (here : Holds container placed) {placement : Placement} (member : placement ∈ placed)
    {name : String} (starts : placement.path.head? = some name) :
    ∃ property, Table.get? container.properties name = some property := by
  have listed : name ∈ Table.keys container.properties := here.mem_keys.mpr ⟨placement, member, starts⟩
  exact Option.isSome_iff_exists.mp (Table.contains_iff_mem_keys.mpr listed)

theorem holder_eq_of_object (object : property.holder.type = some .object) :
    property.isType .array = true ∧ property.items = some property.holder ∨
      property.isType .array = false ∧ property.holder = property := by
  by_cases array : property.isType .array = true
  · refine .inl ⟨array, ?_⟩
    cases present : property.items with
    | some items => rw [holder_of_array (isType_iff.mp array) present]
    | none =>
      have own : property.holder = property := by simp [Schema.holder, array, present]
      rw [own, isType_iff.mp array] at object
      cases object
  · have plain : property.isType .array = false := by simpa using array
    exact .inr ⟨plain, if_neg array⟩

/-- Both are arrays or both are objects, and their holders have the same tree. -/
theorem sameTree_of_holder {property' : Schema} (object : property.holder.type = some .object)
    (object' : property'.holder.type = some .object)
    (alike : property.isType .array = property'.isType .array)
    (same : property.holder.SameTree property'.holder) : property.SameTree property' := by
  rcases holder_eq_of_object object with ⟨array, items⟩ | ⟨plain, own⟩
  · rcases holder_eq_of_object object' with ⟨array', items'⟩ | ⟨plain', -⟩
    · exact .array (isType_iff.mp array) (isType_iff.mp array') items items' same
    · rw [array, plain'] at alike
      cases alike
  · rcases holder_eq_of_object object' with ⟨array', -⟩ | ⟨-, own'⟩
    · rw [plain, array'] at alike
      cases alike
    · rwa [own, own'] at same

/-- Two containers that hold the same parameters have the same tree. -/
theorem Holds.sameTree {container' : Schema} (here : Holds container placed)
    (there : Holds container' placed') (same : ∀ placement, placement ∈ placed ↔ placement ∈ placed') :
    container.SameTree container' := by
  induction here generalizing container' placed' with
  | @intro container placed object keys required ends arrays inner ih =>
    have sameInner (name : String) (placement : Placement) :
        placement ∈ nestedIn name placed ↔ placement ∈ nestedIn name placed' := by
      simp only [mem_nestedIn, same]
    refine .object object there.object (fun name => ?_) (fun name => ?_)
      fun name property property' found found' => ?_
    · simp only [keys, there.mem_keys, same]
    · simp only [required, there.mem_required, same]
    · obtain ⟨placement, member, starts⟩ := (keys name).mp (Table.mem_keys_of_get? found)
      by_cases nothing : nestedIn name placed = []
      · have nothing' : nestedIn name placed' = [] := by
          refine List.eq_nil_iff_forall_not_mem.mpr fun other listed => ?_
          have early := (sameInner name other).mpr listed
          rw [nothing] at early
          cases early
        rcases path_eq_or_mem_nestedIn member starts with single | ⟨_, _, _, -, -, listed⟩
        · obtain rfl := Option.some.inj (found.symm.trans (ends placement member name single nothing))
          have value := there.get?_of_ends ((same placement).mp member) single nothing'
          obtain rfl := Option.some.inj (found'.symm.trans value)
          exact .same _
        · rw [nothing] at listed
          cases listed
      · obtain ⟨placement, listed⟩ := List.exists_mem_of_ne_nil _ nothing
        have some' : nestedIn name placed' ≠ [] := List.ne_nil_of_mem ((sameInner name placement).mp listed)
        have inside := inner name property found nothing
        have inside' := there.inside found' some'
        refine sameTree_of_holder inside.object inside'.object ?_
          (ih name property found nothing inside' (sameInner name))
        obtain ⟨outer, member, segment, next, rest, segments, rfl, -⟩ := mem_nestedIn.mp listed
        rw [arrays outer member segment next rest segments property found,
          there.isArray_eq ((same outer).mp member) segments found']

/-- What is placed in the property finds it as it finds a new one: nothing is in it, and it is an array only
if it has to be one. -/
structure LikeNew (isArray : Bool) (property : Schema) : Prop where
  array : (asHolder isArray property).isType .array = isArray
  bare : (nestHolder isArray property).Bare

theorem likeNew_object (isArray : Bool) : LikeNew isArray .object := by
  cases isArray <;> exact ⟨rfl, rfl, rfl⟩

theorem likeNew_of_bare {isArray : Bool} (plain : isArray = false → property.isType .array = false)
    (bare : property.holder.Bare) : LikeNew isArray property := by
  refine ⟨?_, ?_⟩
  · rcases asHolder_type isArray property with array | ⟨rfl, object⟩
    · cases isArray with
      | true => exact isType_iff.mpr array
      | false =>
        unfold asHolder at array
        rw [if_neg (by simp [plain rfl]), if_neg Bool.false_ne_true] at array
        split at array
        · next object =>
          rw [isType_iff.mp object] at array
          cases array
        · cases array
    · simp [isType, object]
  · rcases nestHolder_eq isArray property with own | ⟨description, made⟩
    · rwa [own]
    · rw [made]
      exact ⟨rfl, rfl⟩

/-- Two parameters do not get in each other's way: they end at different places, write the way that they
share alike, and where one ends on the way of the other it is like a new property. -/
def Agree (value value' : Schema) : List NameSegment → List NameSegment → Prop
  | [segment], [segment'] => segment.name ≠ segment'.name
  | [segment], segment' :: _ :: _ => segment.name = segment'.name → LikeNew segment'.isArray value
  | segment :: _ :: _, [segment'] => segment.name = segment'.name → LikeNew segment.isArray value'
  | segment :: next :: rest, segment' :: next' :: rest' => segment.name = segment'.name →
      segment.isArray = segment'.isArray ∧ Agree value value' (next :: rest) (next' :: rest')
  | _, _ => True

/-- A property is written that a placed parameter starts with. -/
theorem Holds.write (here : Holds container placed) {placement : Placement} {name : String}
    (starts : placement.path.head? = some name) {written : Schema} {required : NameSet}
    (requires : ∀ other, other ∈ required ↔
      other ∈ container.required ∨ placement.required = true ∧ placement.path = [other])
    (ends : ∀ other ∈ placed ++ [placement], other.path = [name] →
      nestedIn name (placed ++ [placement]) = [] → written = other.value)
    (arrays : ∀ other ∈ placed ++ [placement], ∀ segment next rest, other.segments = segment :: next :: rest →
      segment.name = name → written.isType .array = segment.isArray)
    (inner : nestedIn name (placed ++ [placement]) ≠ [] →
      Holds written.holder (nestedIn name (placed ++ [placement]))) :
    Holds { container with
      properties := Table.insert container.properties name written
      required := required } (placed ++ [placement]) := by
  have early {other : Placement} {start : String} (member : other ∈ placed ++ [placement])
      (begins : other.path.head? = some start) (apart : name ≠ start) : other ∈ placed := by
    rcases List.mem_append.mp member with before | last
    · exact before
    · rw [List.mem_singleton.mp last] at begins
      exact absurd (Option.some.inj (starts.symm.trans begins)) apart
  refine .intro here.object (fun other => ?_) (fun other => ?_) ?_ ?_ ?_
  · rw [Table.mem_keys_insert, here.mem_keys]
    simp only [List.mem_append, List.mem_singleton, or_and_right, exists_or, exists_eq_left, starts,
      Option.some.injEq]
    rw [or_comm, eq_comm]
  · rw [requires, here.mem_required]
    simp only [List.mem_append, List.mem_singleton, or_and_right, exists_or, exists_eq_left]
  · intro other member start single nothing
    dsimp only
    rw [Table.get?_insert]
    split
    · next same =>
      subst same
      rw [ends other member single nothing]
    · next apart =>
      rw [nestedIn_append_of_ne starts apart] at nothing
      exact here.get?_of_ends (early member (by rw [single]; rfl) apart) single nothing
  · intro other member segment next rest segments property found
    dsimp only at found
    rw [Table.get?_insert] at found
    split at found
    · next same =>
      cases found
      exact arrays other member segment next rest segments same.symm
    · next apart =>
      refine here.isArray_eq (early member ?_ apart) segments found
      rw [path, segments]
      rfl
  · intro start property found some
    dsimp only at found
    rw [Table.get?_insert] at found
    split at found
    · next same =>
      subst same
      cases found
      exact inner some
    · next apart =>
      rw [nestedIn_append_of_ne starts apart] at some ⊢
      exact here.inside found some

/-- What a container holds does not depend on its description. -/
theorem Holds.describe (here : Holds container placed) (description : Option String) :
    Holds (container.describe description) placed := by
  obtain ⟨object, keys, required, ends, arrays, inner⟩ := here
  exact .intro object keys required ends arrays inner

theorem Holds.holder_describe (here : Holds property.holder placed) (description : Option String) :
    Holds (property.describe description).holder placed := by
  rcases holder_eq_of_object here.object with ⟨array, items⟩ | ⟨-, own⟩
  · have same : (property.describe description).holder = property.holder :=
      holder_of_array (isType_iff.mp array) items
    rwa [same]
  · rw [own] at here
    rw [holder_of_object (here.describe description).object]
    exact here.describe description

/-- A property has children if parameters are nested in it. -/
theorem Holds.hasChildren {name : String} (here : Holds property.holder (nestedIn name placed))
    (nonempty : nestedIn name placed ≠ []) : hasChildren property = true := by
  obtain ⟨inner, listed⟩ := List.exists_mem_of_ne_nil _ nonempty
  obtain ⟨outer, _, _, next, rest, _, _, same⟩ := mem_nestedIn.mp listed
  have starts : inner.path.head? = some next.name := by rw [same]; rfl
  obtain ⟨child, found⟩ := here.found listed starts
  have children : property.holder.properties ≠ [] := by
    intro empty
    rw [empty] at found
    cases found
  rcases holder_eq_of_object here.object with ⟨-, items⟩ | ⟨-, own⟩
  · simp [Route.hasChildren, items, children]
  · rw [own] at children
    simp [Route.hasChildren, children]

/-- Nothing is nested in a parameter that ends in the container. -/
theorem nestedIn_append_leaf (placed : List Placement) (segment : NameSegment) (leaf : Schema)
    (required : Bool) (name : String) :
    nestedIn name (placed ++ [⟨[segment], leaf, required⟩]) = nestedIn name placed := by
  rw [nestedIn_append]
  exact List.append_nil _

/-- A parameter that goes on behind a segment is not one that ends in the container. -/
theorem mem_of_mem_append_leaf {leaf : Schema} {required : Bool} {other : Placement}
    (member : other ∈ placed ++ [⟨[segment], leaf, required⟩]) {outer next : NameSegment}
    {rest : List NameSegment} (segments : other.segments = outer :: next :: rest) : other ∈ placed := by
  rcases List.mem_append.mp member with before | last
  · exact before
  · rw [List.mem_singleton.mp last] at segments
    cases segments

theorem Holds.nestedIn_eq_nil (here : Holds container placed) {name : String}
    (absent : Table.get? container.properties name = none) : nestedIn name placed = [] := by
  refine List.eq_nil_iff_forall_not_mem.mpr fun inner listed => ?_
  obtain ⟨other, member, segment, next, rest, segments, same, -⟩ := mem_nestedIn.mp listed
  have begins : other.path.head? = some name := by rw [path, segments, ← same]; rfl
  obtain ⟨property, present⟩ := here.found member begins
  rw [absent] at present
  cases present

/-- Where no parameter ends there is a property only because others are nested in it. -/
theorem Holds.nestedIn_ne_nil (here : Holds container placed) {name : String}
    (apart : ∀ other ∈ placed, other.path ≠ [name])
    (found : Table.get? container.properties name = some property) : nestedIn name placed ≠ [] := by
  obtain ⟨other, member, begins⟩ := here.mem_keys.mp (Table.mem_keys_of_get? found)
  rcases path_eq_or_mem_nestedIn member begins with single | ⟨_, _, _, -, -, listed⟩
  · exact absurd single (apart other member)
  · exact List.ne_nil_of_mem listed

/-- A parameter that ends where there is no property is held as a new one. -/
theorem Holds.addProperty (here : Holds container placed)
    (apart : ∀ other ∈ placed, other.path ≠ [segment.name])
    (absent : Table.get? container.properties segment.name = none) (leaf : Schema) (required : Bool) :
    Holds (container.addProperty segment.name (leaf.arrayIf segment.isArray) required)
      (placed ++ [⟨[segment], leaf, required⟩]) := by
  have nothing : nestedIn segment.name placed = [] := here.nestedIn_eq_nil absent
  have unrequired : segment.name ∉ container.required := by
    intro listed
    obtain ⟨other, member, -, path⟩ := here.mem_required.mp listed
    exact apart other member path
  refine here.write rfl (fun other => ?_) ?_ ?_ fun some => ?_
  · cases required with
    | true =>
      rw [if_pos rfl, NameSet.mem_add]
      simp [path, eq_comm]
    | false =>
      rw [if_neg Bool.false_ne_true, NameSet.remove, List.erase_of_not_mem unrequired]
      simp
  · intro other member path _
    rcases List.mem_append.mp member with before | last
    · exact absurd path (apart other before)
    · rw [List.mem_singleton.mp last]
      rfl
  · intro other member outer next rest segments same
    have listed := mem_nestedIn.mpr
      ⟨other, mem_of_mem_append_leaf member segments, outer, next, rest, segments, same, rfl⟩
    rw [nothing] at listed
    cases listed
  · rw [nestedIn_append_leaf] at some
    exact absurd nothing some

/-- A parameter that ends where others are nested is held by the property that holds these. -/
theorem Holds.describeProperty (here : Holds container placed) {existing : Schema}
    (found : Table.get? container.properties segment.name = some existing)
    (nonempty : nestedIn segment.name placed ≠ []) (leaf : Schema) (required : Bool)
    (description : Option String) :
    Holds { container with
      properties := Table.insert container.properties segment.name (existing.describe description)
      required := if required then container.required.add segment.name else container.required }
      (placed ++ [⟨[segment], leaf, required⟩]) := by
  refine here.write rfl (fun other => ?_) (fun _ _ _ nothing => ?_) ?_ fun _ => ?_
  · cases required with
    | true =>
      rw [if_pos rfl, NameSet.mem_add]
      simp [path, eq_comm]
    | false => simp
  · rw [nestedIn_append_leaf] at nothing
    exact absurd nothing nonempty
  · intro other member outer next rest segments same
    have early : existing.isType .array = outer.isArray :=
      here.isArray_eq (mem_of_mem_append_leaf member segments) segments (by rw [same, found])
    exact early
  · rw [nestedIn_append_leaf]
    exact (here.inside found nonempty).holder_describe _

/-- A parameter that ends in the container is held once it is placed. -/
theorem Holds.placeLeaf (here : Holds container placed)
    (apart : ∀ other ∈ placed, other.path ≠ [segment.name]) (leaf : Schema) (required : Bool) :
    Holds (placeLeaf container segment leaf required) (placed ++ [⟨[segment], leaf, required⟩]) := by
  unfold Route.placeLeaf
  dsimp only
  cases found : Table.get? container.properties segment.name with
  | none => exact here.addProperty apart found leaf required
  | some existing =>
    have nonempty : nestedIn segment.name placed ≠ [] := here.nestedIn_ne_nil apart found
    have children : Route.hasChildren existing = true := (here.inside found nonempty).hasChildren nonempty
    dsimp only
    rw [if_pos children]
    exact here.describeProperty found nonempty leaf required _

/-- A property that holds parameters has them where the next one looks for them, if that passes through
it in the same way. -/
theorem Holds.nestHolder_eq {isArray : Bool} (held : Holds property.holder placed)
    (alike : property.isType .array = isArray) :
    asHolder isArray property = property ∧ nestHolder isArray property = property.holder := by
  have kept : asHolder isArray property = property := by
    unfold asHolder
    rcases holder_eq_of_object held.object with ⟨array, -⟩ | ⟨plain, own⟩
    · exact if_pos array
    · have object := held.object
      rw [own] at object
      rw [← alike, plain, if_neg Bool.false_ne_true, if_neg Bool.false_ne_true, if_pos (isType_iff.mpr object)]
  refine ⟨kept, ?_⟩
  unfold nestHolder
  rw [kept]
  rcases holder_eq_of_object held.object with ⟨array, items⟩ | ⟨plain, own⟩
  · rw [if_pos array, itemsHolder, items]
    exact if_pos (isType_iff.mpr held.object)
  · rw [if_neg (by simp [plain]), own]

/-- What a parameter finds that passes through a property: an array only if it passes with an empty group,
and a holder of the parameters that are nested in the property. -/
theorem Holds.passed (here : Holds container placed) {value : Schema} {next : NameSegment}
    {rest : List NameSegment}
    (agree : ∀ other ∈ placed, Agree other.value value other.segments (segment :: next :: rest)) :
    let property := (Table.get? container.properties segment.name).getD .object
    (asHolder segment.isArray property).isType .array = segment.isArray ∧
      Holds (nestHolder segment.isArray property) (nestedIn segment.name placed) := by
  intro property
  by_cases nothing : nestedIn segment.name placed = []
  · have new : LikeNew segment.isArray property := by
      cases found : Table.get? container.properties segment.name with
      | none =>
        have made : property = .object := by simp [property, found]
        exact made ▸ likeNew_object segment.isArray
      | some existing =>
        obtain ⟨other, member, begins⟩ := here.mem_keys.mp (Table.mem_keys_of_get? found)
        rcases path_eq_or_mem_nestedIn member begins with single | ⟨_, _, _, -, -, listed⟩
        · have ended := here.get?_of_ends member single nothing
          have own : property = other.value := by simp [property, ended]
          obtain ⟨last, alone, same⟩ := List.map_eq_singleton_iff.mp single
          have fits := agree other member
          rw [alone] at fits
          exact own ▸ fits same
        · rw [nothing] at listed
          cases listed
    rw [nothing]
    exact ⟨new.array, holds_nil (nestHolder_type _ _) new.bare⟩
  · obtain ⟨inner, listed⟩ := List.exists_mem_of_ne_nil _ nothing
    obtain ⟨other, member, outer, next', rest', segments, same, -⟩ := mem_nestedIn.mp listed
    have begins : other.path.head? = some segment.name := by rw [path, segments, ← same]; rfl
    obtain ⟨existing, found⟩ := here.found member begins
    have own : property = existing := by simp [property, found]
    have fits := agree other member
    rw [segments] at fits
    have alike : existing.isType .array = segment.isArray := by
      rw [here.isArray_eq member segments (by rw [same, found]), (fits same).1]
    have held := here.inside found nothing
    obtain ⟨kept, holder⟩ := held.nestHolder_eq alike
    rw [own, kept, holder]
    exact ⟨alike, held⟩

/-- A container that holds some parameters holds one more once it is placed, if that agrees with them. -/
theorem Holds.insertNested (here : Holds container placed) (rest : List NameSegment) {leaf : Schema}
    {required : Bool} (agree : ∀ other ∈ placed,
      Agree other.value (Placement.value ⟨segment :: rest, leaf, required⟩) other.segments (segment :: rest)) :
    Holds (insertNested container (segment :: rest) leaf required)
      (placed ++ [⟨segment :: rest, leaf, required⟩]) := by
  induction rest generalizing container placed segment with
  | nil =>
    refine here.placeLeaf (fun other member single => ?_) leaf required
    obtain ⟨last, alone, same⟩ := List.map_eq_singleton_iff.mp single
    have apart := agree other member
    rw [alone] at apart
    exact apart same
  | cons next rest ih =>
    let placement : Placement := ⟨segment :: next :: rest, leaf, required⟩
    let property := (Table.get? container.properties segment.name).getD .object
    obtain ⟨array, held⟩ := here.passed agree
    have inside : nestedIn segment.name (placed ++ [placement]) =
        nestedIn segment.name placed ++ [⟨next :: rest, leaf, required⟩] := by
      rw [nestedIn_append, inside?_eq_some.mpr ⟨segment, next, rest, rfl, rfl, rfl⟩]
      rfl
    have inner : Holds (Route.insertNested (nestHolder segment.isArray property) (next :: rest) leaf required)
        (nestedIn segment.name (placed ++ [placement])) := by
      rw [inside]
      refine ih held fun other listed => ?_
      obtain ⟨outer, member, first, second, more, segments, same, rfl⟩ := mem_nestedIn.mp listed
      have fits := agree outer member
      rw [segments] at fits
      rw [value_of_inside segments, @value_of_inside placement segment next rest rfl]
      exact (fits same).2
    rw [insertNested_cons]
    have starts : placement.path.head? = some segment.name := rfl
    refine here.write starts (fun other => ?_) ?_ ?_ fun _ => ?_
    · simp [placement, path]
    · intro other _ _ nothing
      rw [inside] at nothing
      exact absurd nothing (by simp)
    · intro other member outer second more segments same
      rw [isType_withHolder _ _ inner.object, array]
      rcases List.mem_append.mp member with before | last
      · have fits := agree other before
        rw [segments] at fits
        exact (fits same).1.symm
      · rw [List.mem_singleton.mp last] at segments
        cases segments
        rfl
    · rw [holder_withHolder _ _ inner.object]
      exact inner

/-- Parameters that agree with each other are held by a new object once all of them are placed. -/
theorem holds_foldl_place {placed : List Placement} (ways : ∀ placement ∈ placed, placement.segments ≠ [])
    (agree : placed.Pairwise fun earlier later =>
      Agree earlier.value later.value earlier.segments later.segments) :
    Holds (placed.foldl Placement.place .object) placed := by
  induction placed using List.reverseRecOn with
  | nil => exact holds_nil rfl ⟨rfl, rfl⟩
  | append_singleton placed placement ih =>
    obtain ⟨before, -, apart⟩ := List.pairwise_append.mp agree
    have here := ih (fun other member => ways other (List.mem_append_left _ member)) before
    obtain ⟨segment, rest, segments⟩ :=
      List.exists_cons_of_ne_nil (ways placement (List.mem_append_right _ (List.mem_singleton_self _)))
    obtain ⟨_, leaf, required⟩ := placement
    subst segments
    rw [List.foldl_append]
    exact here.insertNested rest fun other member => apart other member _ (List.mem_singleton_self _)

end Route

end ApiDoc
