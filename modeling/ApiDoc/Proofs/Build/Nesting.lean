import Mathlib.Data.List.Induction
import ApiDoc.Proofs.Build.Adding
import ApiDoc.Proofs.Build.Parameters
import ApiDoc.Proofs.Build.Placing
import ApiDoc.Proofs.Type.Answering

/-! # The places of nested parameters

A nested parameter of the body has a place that its segments lead to, property by property and through
the items of arrays. What is placed later keeps this place, whatever comes in which order
(`HasPlace.insertNested`), with one exception: an object that holds parameters becomes an array once a
parameter passes through it with an empty group, and what it held is lost. So every parameter of the body
is found, unless a later one makes an array of an object on its way when it is placed
(`buildParams_places`), and then it may not be (`array_loses_properties`).
-/

namespace ApiDoc

/-- What holds the nested parameters of a property: the items of an array, otherwise the schema itself. -/
def Schema.holder (schema : Schema) : Schema :=
  if schema.isType .array then schema.items.getD schema else schema

/-- The property that names lead to, from property to property and through the items of arrays. -/
def Schema.reach : Schema → List String → Option Schema
  | schema, [] => some schema
  | schema, name :: rest =>
    (Table.get? schema.holder.properties name).bind fun property => property.reach rest

namespace Route

open Schema

variable {container property leaf : Schema} {segment : NameSegment} {segments rest : List NameSegment}

/-- The parameters that are nested in a property under a segment stand in the holder: an object that no
empty group follows, or the items of an array. -/
inductive HeldBy (segment : NameSegment) (property : Schema) : (holder : Schema) → Prop
  | object : segment.isArray = false → property.type = some .object → HeldBy segment property property
  | items {items : Schema} : property.type = some .array → property.items = some items →
      items.type = some .object → HeldBy segment property items

/-- The segments lead to a property in the container. -/
def HasPlace : Schema → List NameSegment → Prop
  | _, [] => True
  | container, segment :: rest => ∃ property,
      Table.get? container.properties segment.name = some property ∧
        (rest = [] ∨ ∃ holder, HeldBy segment property holder ∧ HasPlace holder rest)

/-- A property under a segment leads on to where further segments lead. -/
def LeadsOn (segment : NameSegment) (rest : List NameSegment) (property : Schema) : Prop :=
  rest = [] ∨ ∃ holder, HeldBy segment property holder ∧ HasPlace holder rest

theorem HeldBy.type_eq {holder : Schema} (held : HeldBy segment property holder) :
    holder.type = some .object := by
  cases held with
  | object _ typed => exact typed
  | items _ _ typed => exact typed

/-- An object holds the parameters that are nested in it. -/
theorem holder_of_object {schema : Schema} (object : schema.type = some .object) :
    schema.holder = schema := by
  simp [Schema.holder, isType, object]

theorem holder_of_array {schema items : Schema} (array : schema.type = some .array)
    (present : schema.items = some items) : schema.holder = items := by
  simp [Schema.holder, isType, array, present]

theorem HeldBy.holder_eq {holder : Schema} (held : HeldBy segment property holder) :
    property.holder = holder := by
  cases held with
  | object _ typed => exact holder_of_object typed
  | items typed present _ => exact holder_of_array typed present

theorem reach_of_object (object : container.type = some .object) (name : String) (names : List String) :
    container.reach (name :: names) =
      (Table.get? container.properties name).bind fun property => property.reach names := by
  rw [Schema.reach, holder_of_object object]

/-- The place of segments is reached by their names. -/
theorem HasPlace.reach (place : HasPlace container segments) (object : container.type = some .object) :
    ∃ property, container.reach (segments.map (·.name)) = some property := by
  induction segments generalizing container with
  | nil => exact ⟨container, rfl⟩
  | cons segment rest ih =>
    obtain ⟨property, found, onward⟩ := place
    rw [List.map_cons, reach_of_object object, found, Option.bind_some]
    rcases onward with rfl | ⟨holder, held, inside⟩
    · exact ⟨property, rfl⟩
    · obtain ⟨reached, found⟩ := ih inside held.type_eq
      cases rest with
      | nil => exact ⟨property, rfl⟩
      | cons next more =>
        rw [List.map_cons, Schema.reach, holder_of_object held.type_eq, ← held.holder_eq] at found
        exact ⟨reached, found⟩

theorem LeadsOn.describe (onward : LeadsOn segment rest property) (description : Option String) :
    LeadsOn segment rest (property.describe description) := by
  refine onward.imp_right fun ⟨holder, held, inside⟩ => ?_
  cases held with
  | object plain typed =>
    refine ⟨_, .object plain typed, ?_⟩
    cases rest with
    | nil => trivial
    | cons next more => exact inside
  | items typed present itemsTyped => exact ⟨_, .items typed present itemsTyped, inside⟩

/-- A property that leads on to other segments has children. -/
theorem LeadsOn.hasChildren {next : NameSegment} (onward : LeadsOn segment (next :: rest) property) :
    hasChildren property = true := by
  rcases onward with none | ⟨holder, held, inner, found, -⟩
  · cases none
  · have some : holder.properties ≠ [] := by
      rintro empty
      rw [empty] at found
      cases found
    cases held with
    | object => simp [Route.hasChildren, some]
    | items _ present _ => simp [Route.hasChildren, present, some]

/-- A property that is written keeps the places of segments that do not pass through it, or that the
written one leads on to. -/
theorem HasPlace.write (place : HasPlace container (segment :: rest)) {name : String} {written : Schema}
    {required : NameSet}
    (onward : name = segment.name → ∀ property, Table.get? container.properties name = some property →
      LeadsOn segment rest property → LeadsOn segment rest written) :
    HasPlace { container with
      properties := Table.insert container.properties name written
      required := required } (segment :: rest) := by
  obtain ⟨property, found, leads⟩ := place
  by_cases same : name = segment.name
  · refine ⟨written, ?_, onward same property (same ▸ found) leads⟩
    rw [Table.get?_insert, if_pos same]
  · refine ⟨property, ?_, leads⟩
    rw [Table.get?_insert, if_neg same]
    exact found

/-- Segments pass with an empty group through an object of the container that earlier ones pass without
one. -/
def Tears : (container : Schema) → (segments earlier : List NameSegment) → Prop
  | container, segment :: next :: rest, segment' :: next' :: rest' => segment.name = segment'.name ∧
      ∃ property, Table.get? container.properties segment'.name = some property ∧
        (segment.isArray = true ∧ segment'.isArray = false ∧ property.type = some .object ∨
          Tears property.holder (next :: rest) (next' :: rest'))
  | _, _, _ => False

/-- Nothing tears the place of a root. -/
theorem not_tears_root (container : Schema) (segments : List NameSegment) (root : NameSegment) :
    ¬Tears container segments [root] := by
  rcases segments with _ | ⟨_, _ | _⟩ <;> exact id

theorem itemsHolder_type (array : Schema) : (itemsHolder array).type = some .object := by
  unfold itemsHolder
  split
  · split
    · next typed => exact isType_iff.mp typed
    · rfl
  · rfl

theorem asHolder_type (isArray : Bool) (property : Schema) :
    (asHolder isArray property).type = some .array ∨
      isArray = false ∧ (asHolder isArray property).type = some .object := by
  unfold asHolder
  split
  · next typed => exact .inl (isType_iff.mp typed)
  · cases isArray with
    | true => exact .inl rfl
    | false =>
      refine .inr ⟨rfl, ?_⟩
      rw [if_neg Bool.false_ne_true]
      split
      · next typed => exact isType_iff.mp typed
      · rfl

theorem insertNested_type (container : Schema) (segments : List NameSegment) (leaf : Schema)
    (required : Bool) : (insertNested container segments leaf required).type = container.type := by
  obtain ⟨properties, names, same⟩ := insertNested_frame container segments leaf required
  rw [same]

/-- The holder of what is nested in a property, as a parameter finds it that is placed there. -/
def nestHolder (isArray : Bool) (property : Schema) : Schema :=
  if (asHolder isArray property).isType .array then itemsHolder (asHolder isArray property)
  else asHolder isArray property

/-- The property with another holder. -/
def withHolder (isArray : Bool) (property holder : Schema) : Schema :=
  if (asHolder isArray property).isType .array then { asHolder isArray property with items := some holder }
  else holder

/-- A parameter that passes through a property changes the holder in it. -/
theorem insertNested_cons (container : Schema) (segment next : NameSegment) (rest : List NameSegment)
    (leaf : Schema) (required : Bool) :
    insertNested container (segment :: next :: rest) leaf required =
      let property := (Table.get? container.properties segment.name).getD .object
      let holder := insertNested (nestHolder segment.isArray property) (next :: rest) leaf required
      { container with
        properties := Table.insert container.properties segment.name
          (withHolder segment.isArray property holder) } := by
  rw [insertNested]
  dsimp only
  unfold nestHolder withHolder
  split <;> rfl

theorem nestHolder_type (isArray : Bool) (property : Schema) :
    (nestHolder isArray property).type = some .object := by
  unfold nestHolder
  split
  · exact itemsHolder_type _
  · next other =>
    rcases asHolder_type isArray property with array | ⟨-, object⟩
    · exact absurd (isType_iff.mpr array) other
    · exact object

theorem holder_withHolder (isArray : Bool) (property : Schema) {holder : Schema}
    (object : holder.type = some .object) : (withHolder isArray property holder).holder = holder := by
  unfold withHolder
  split
  · next array => exact holder_of_array (isType_iff.mp array) rfl
  · exact holder_of_object object

theorem isType_withHolder (isArray : Bool) (property : Schema) {holder : Schema}
    (object : holder.type = some .object) :
    (withHolder isArray property holder).isType .array = (asHolder isArray property).isType .array := by
  unfold withHolder
  split
  · rfl
  · next other =>
    rw [Bool.eq_false_iff.mpr other]
    simp [isType, object]

/-- A parameter that is placed leaves the properties of other names. -/
theorem get?_insertNested_of_ne (container : Schema) {segment : NameSegment} {name : String}
    (apart : segment.name ≠ name) (rest : List NameSegment) (leaf : Schema) (required : Bool) :
    Table.get? (insertNested container (segment :: rest) leaf required).properties name =
      Table.get? container.properties name := by
  have written (property : Schema) : Table.get? (Table.insert container.properties segment.name property)
      name = Table.get? container.properties name := by rw [Table.get?_insert, if_neg apart]
  cases rest with
  | nil =>
    rw [insertNested]
    unfold placeLeaf
    dsimp only
    split
    · split <;> exact written _
    · exact written _
  | cons next rest => exact written _

/-- A parameter has its place once it is placed. -/
theorem hasPlace_insertNested (container : Schema) (segments : List NameSegment) (leaf : Schema)
    (required : Bool) : HasPlace (insertNested container segments leaf required) segments := by
  induction segments generalizing container with
  | nil => trivial
  | cons segment rest ih =>
    cases rest with
    | nil =>
      have written (property : Schema) (names : NameSet) : HasPlace { container with
          properties := Table.insert container.properties segment.name property
          required := names } [segment] := ⟨property, by simp [Table.get?_insert], .inl rfl⟩
      rw [insertNested]
      unfold placeLeaf
      dsimp only
      split
      · split <;> exact written _ _
      · exact written _ _
    | cons next rest =>
      rw [insertNested]
      refine ⟨_, by rw [Table.get?_insert, if_pos rfl], .inr ?_⟩
      rcases asHolder_type segment.isArray
        ((Table.get? container.properties segment.name).getD .object) with array | ⟨plain, object⟩
      · rw [if_pos (isType_iff.mpr array)]
        refine ⟨_, .items array rfl ?_, ih _⟩
        rw [insertNested_type, itemsHolder_type]
      · rw [if_neg (by simp [isType, object])]
        exact ⟨_, .object plain (by rw [insertNested_type, object]), ih _⟩

/-- A single parameter that is placed keeps all other places: what has children stays as it is. -/
theorem HasPlace.placeLeaf (place : HasPlace container (segment :: rest)) (other : NameSegment)
    (leaf : Schema) (required : Bool) :
    HasPlace (placeLeaf container other leaf required) (segment :: rest) := by
  -- A property without children has nothing behind it that could be lost.
  have childless {existing written : Schema} (none : ¬hasChildren existing = true)
      (onward : LeadsOn segment rest existing) : LeadsOn segment rest written := by
    cases rest with
    | nil => exact .inl rfl
    | cons next rest => exact absurd onward.hasChildren none
  unfold Route.placeLeaf
  dsimp only
  split
  · next existing found =>
    split
    · refine place.write fun _ property here onward => ?_
      obtain rfl := Option.some.inj (found.symm.trans here)
      exact onward.describe _
    · next none =>
      refine place.write fun _ property here onward => ?_
      obtain rfl := Option.some.inj (found.symm.trans here)
      exact childless none onward
  · next absent =>
    refine place.write fun _ property here _ => ?_
    rw [absent] at here
    cases here

/-- Parameters that are nested without an empty group, or in an array, leave the holder as it is. -/
theorem HeldBy.asHolder_eq {holder : Schema} (held : HeldBy segment property holder) {isArray : Bool}
    (intact : ¬(isArray = true ∧ segment.isArray = false ∧ property.type = some .object)) :
    asHolder isArray property = property := by
  unfold asHolder
  cases held with
  | object plain typed =>
    have unmarked : ¬isArray = true := fun marked => intact ⟨marked, plain, typed⟩
    simp [isType, typed, unmarked]
  | items typed _ _ => simp [isType, typed]

/-- A parameter that is placed keeps every place that it does not tear. -/
theorem HasPlace.insertNested (place : HasPlace container segments) {others : List NameSegment}
    (intact : ¬Tears container others segments) (leaf : Schema) (required : Bool) :
    HasPlace (insertNested container others leaf required) segments := by
  induction others generalizing container segments with
  | nil => exact place
  | cons other others ih =>
    cases segments with
    | nil => trivial
    | cons segment rest =>
      cases others with
      | nil => exact place.placeLeaf other leaf required
      | cons next others =>
        rw [Route.insertNested]
        refine place.write fun same property found onward => ?_
        rw [found, Option.getD_some]
        cases rest with
        | nil => exact .inl rfl
        | cons next' rest =>
          obtain ⟨holder, held, inside⟩ := onward.resolve_left (List.cons_ne_nil _ _)
          have untouched (torn : other.isArray = true ∧ segment.isArray = false ∧
              property.type = some .object) : False := intact ⟨same, property, same ▸ found, .inl torn⟩
          have below (torn : Tears holder (next :: others) (next' :: rest)) : False :=
            intact ⟨same, property, same ▸ found, .inr (held.holder_eq ▸ torn)⟩
          have kept := ih inside below
          rw [held.asHolder_eq untouched]
          refine .inr ?_
          cases held with
          | object plain typed =>
            rw [if_neg (by simp [isType, typed])]
            exact ⟨_, .object plain (by rw [insertNested_type, typed]), kept⟩
          | items typed present itemsTyped =>
            have own : itemsHolder property = holder := by
              rw [itemsHolder, present]
              exact if_pos (isType_iff.mpr itemsTyped)
            rw [if_pos (isType_iff.mpr typed), own]
            exact ⟨_, .items typed rfl (by rw [insertNested_type, itemsTyped]), kept⟩

/-- The value of the computation where nothing was introspected before. -/
def outcome {α : Type} (computation : Build α) : α := (computation.run {}).1

/-- The value of the computation is the same whatever was introspected before. -/
def Fixed {α : Type} (computation : Build α) : Prop := Always (· = outcome computation) computation

section
variable {α β ι : Type} {computation : Build α} {chain : Chain} {deeper : Descent}

theorem Fixed.pure (value : α) : Fixed (pure value : Build α) := Always.pure rfl

theorem outcome_bind {behind : α → Build β} (second : ∀ value, Fixed (behind value)) :
    outcome (computation >>= behind) = outcome (behind (outcome computation)) :=
  second (outcome computation) _

theorem Fixed.bind {behind : α → Build β} (first : Fixed computation)
    (second : ∀ value, Fixed (behind value)) : Fixed (computation >>= behind) := by
  unfold Fixed
  rw [outcome_bind second]
  exact Always.bind first fun _ same => same ▸ second _

theorem Fixed.foldlM {step : α → ι → Build α} (each : ∀ value item, Fixed (step value item))
    (items : List ι) (initial : α) : Fixed (items.foldlM step initial) := by
  induction items generalizing initial with
  | nil => exact .pure initial
  | cons item rest ih => exact (each initial item).bind ih

theorem outcome_foldlM_append {step : α → ι → Build α} (each : ∀ value item, Fixed (step value item))
    (items : List ι) (item : ι) (initial : α) :
    outcome ((items ++ [item]).foldlM step initial) =
      outcome (step (outcome (items.foldlM step initial)) item) := by
  rw [List.foldlM_append, outcome_bind fun _ => .foldlM each _ _]
  exact outcome_bind fun _ => .pure _

theorem Reply.answer_fixed (tokens : ∀ token, Fixed (deeper.token token)) (reply : Reply) :
    Fixed (do return some (← reply.answer deeper)) := by
  refine .bind ?_ fun schema => .pure (some schema)
  cases reply with
  | schema fixed => exact .pure fixed
  | redirect token => exact tokens token

theorem plainSchema?_fixed (tokens : ∀ token, Fixed (deeper.token token)) (name : String) :
    Fixed (Lexicon.plainSchema? { chain, catalog := [] } deeper name) := by
  rw [Lexicon.plainSchema?_eq]
  split
  · exact .pure _
  · next resolver _ => exact Reply.answer_fixed tokens resolver.reply
  · exact .pure none

mutual

/-- Without entities a token is answered in one way. -/
theorem resolveWith?_fixed (tokens : ∀ token, Fixed (deeper.token token)) : ∀ token : TypeToken,
    Fixed (Lexicon.resolveWith? { chain, catalog := [] } deeper token)
  | .named name => by
    rw [Lexicon.resolveWith?_named]
    split
    · next answered =>
      have handled := List.find?_some answered
      cases handled
    · exact plainSchema?_fixed tokens name
  | .arrayOf item => by
    rw [Lexicon.resolveWith?_arrayOf]
    split
    · exact (resolveWith?_fixed tokens item).bind fun schema => .pure _
    · next resolver _ => exact Reply.answer_fixed tokens resolver.reply
    · exact .pure _
    · exact .pure none
  | .oneOf variants => by
    rw [Lexicon.resolveWith?_oneOf]
    split
    · exact (resolveAllWith_fixed tokens variants).bind fun schemas => .pure _
    · next resolver _ => exact Reply.answer_fixed tokens resolver.reply
    · exact .pure _
    · exact .pure none

theorem resolveAllWith_fixed (tokens : ∀ token, Fixed (deeper.token token)) : ∀ variants : List TypeToken,
    Fixed (Lexicon.resolveAllWith { chain, catalog := [] } deeper variants)
  | [] => .pure []
  | variant :: rest => by
    rw [Lexicon.resolveAllWith]
    exact (resolveWith?_fixed tokens variant).bind fun schema =>
      (resolveAllWith_fixed tokens rest).bind fun schemas => .pure _

end

end

theorem descent_fixed (chain : Chain) (levels : Nat) (token : TypeToken) :
    Fixed ((Lexicon.descent { chain, catalog := [] } levels).token token) := by
  induction levels generalizing token with
  | zero => exact .pure _
  | succ levels ih => exact (resolveWith?_fixed ih token).bind fun schema => .pure _

theorem resolveDeclared_fixed (chain : Chain) (type : Option TypeToken) :
    Fixed (Lexicon.resolveDeclared { chain, catalog := [] } type) := by
  cases type with
  | none => exact .pure _
  | some token => exact (resolveWith?_fixed (descent_fixed chain _) token).bind fun _ => .pure _

theorem paramSchema_fixed (chain : Chain) (spec : ParamSpec) :
    Fixed (paramSchema { chain, catalog := [] } spec) :=
  (resolveDeclared_fixed chain spec.type).bind fun _ => .pure _

theorem addHeader_fixed (chain : Chain) (draft : Draft) (name : String) (header : HeaderSpec) :
    Fixed (addHeader { chain, catalog := [] } draft name header) :=
  (resolveDeclared_fixed chain header.type).bind fun _ => .pure _

section
variable {lexicon : Lexicon} (fixed : ∀ spec, Fixed (paramSchema lexicon spec))
include fixed

theorem noteRoot_fixed (names : Names) (roots : Roots) (name : String) (spec : ParamSpec) :
    Fixed (noteRoot lexicon names roots name spec) := by
  unfold noteRoot
  split
  · split
    · exact .pure _
    · exact (fixed spec).bind fun schema => .pure _
  · exact .pure _

theorem addNested_fixed (names : Names) (roots : Roots) (state : Draft × Table String (Location × Schema))
    (name : String) (spec : ParamSpec) : Fixed (addNested lexicon names roots state name spec) := by
  unfold addNested
  dsimp only
  split
  · exact .pure _
  · split
    · split <;> exact .pure _
    · exact (fixed spec).bind fun schema => .pure _

end

/-- The schema of a declared parameter in a build that has introspected nothing. -/
def declaredSchema (lexicon : Lexicon) (spec : ParamSpec) : Schema := outcome (paramSchema lexicon spec)

theorem Yields.eq_declared {lexicon : Lexicon} {spec : ParamSpec} {schema : Schema}
    (yields : Yields lexicon spec schema) (fixed : ∀ spec, Fixed (paramSchema lexicon spec)) :
    schema = declaredSchema lexicon spec := by
  obtain ⟨progress, rfl⟩ := yields
  exact fixed spec progress

/-- The last visible parameter that stands for a root. -/
def rootParam? (params : Table String ParamSpec) (root : String) : Option ParamSpec :=
  (params.reverse.find? fun entry => (splitNested entry.1).length == 1 &&
    !entry.2.documentation.hidden && rootName entry.1 == root).map Prod.snd

/-- Where a nested parameter travels: with its root if that is declared, otherwise where it says. -/
def locationOf (lexicon : Lexicon) (names : Names) (params : Table String ParamSpec)
    (entry : String × ParamSpec) : Location :=
  match rootParam? params (rootName entry.1) with
  | some root => locate names (rootName entry.1) root (declaredSchema lexicon root)
  | none => locate names entry.1 entry.2 (declaredSchema lexicon entry.2)

/-- A parameter whose root is declared travels with it. -/
theorem locate_of_stands {lexicon : Lexicon} {names : Names} {params : Table String ParamSpec}
    {entry : String × ParamSpec} {root : ParamSpec}
    (stands : rootParam? params (rootName entry.1) = some root) :
    locate names (rootName entry.1) root (declaredSchema lexicon root) =
      locationOf lexicon names params entry := by
  unfold locationOf
  rw [stands]

/-- The parameter and its root are visible, and it travels in the body. -/
structure InBody (lexicon : Lexicon) (names : Names) (params : Table String ParamSpec)
    (entry : String × ParamSpec) : Prop where
  shown : entry.2.documentation.hidden = false
  rootShown : rootName entry.1 ∉ hiddenRoots params
  located : locationOf lexicon names params entry = .body

/-- What is known of the roots of parameters: which of them are hidden, and for each of them the location
and a schema of the last visible parameter that stands for it. -/
structure NotedBy (yields : ParamSpec → Schema → Prop) (names : Names) (params : Table String ParamSpec)
    (roots : Roots) : Prop where
  hidden : roots.hidden = hiddenRoots params
  distinct : (Table.keys roots.visible).Nodup
  unknown : ∀ root, rootParam? params root = none → Table.get? roots.visible root = none
  visible : ∀ root spec, rootParam? params root = some spec → ∃ schema, yields spec schema ∧
    Table.get? roots.visible root = some (locate names root spec schema, schema)

/-- What is known of the roots of parameters where no build changes what their types resolve to. -/
structure Noted (lexicon : Lexicon) (names : Names) (params : Table String ParamSpec) (roots : Roots) :
    Prop where
  hidden : roots.hidden = hiddenRoots params
  distinct : (Table.keys roots.visible).Nodup
  visible : ∀ root, Table.get? roots.visible root = (rootParam? params root).map fun spec =>
    (locate names root spec (declaredSchema lexicon spec), declaredSchema lexicon spec)

/-- In such a build a parameter yields what it is declared as. -/
theorem noted_iff {lexicon : Lexicon} {names : Names} {params : Table String ParamSpec} {roots : Roots} :
    Noted lexicon names params roots ↔
      NotedBy (fun spec schema => schema = declaredSchema lexicon spec) names params roots := by
  constructor
  · intro noted
    refine ⟨noted.hidden, noted.distinct, fun root none => ?_, fun root spec stands => ⟨_, rfl, ?_⟩⟩
    · rw [noted.visible, none, Option.map_none]
    · rw [noted.visible, stands, Option.map_some]
  · intro noted
    refine ⟨noted.hidden, noted.distinct, fun root => ?_⟩
    cases stands : rootParam? params root with
    | none => rw [noted.unknown root stands, Option.map_none]
    | some spec =>
      obtain ⟨schema, rfl, found⟩ := noted.visible root spec stands
      rw [found, Option.map_some]

section
variable {lexicon : Lexicon} {names : Names} {params done : Table String ParamSpec}
  {entry : String × ParamSpec} {roots : Roots}

theorem rootParam?_append (params : Table String ParamSpec) (entry : String × ParamSpec) (root : String) :
    rootParam? (params ++ [entry]) root =
      if (splitNested entry.1).length = 1 ∧ entry.2.documentation.hidden = false ∧ rootName entry.1 = root
      then some entry.2 else rootParam? params root := by
  unfold rootParam?
  rw [List.reverse_append, List.reverse_singleton, List.singleton_append, List.find?_cons]
  split
  · next fits =>
    rw [if_pos (by simpa [and_assoc] using fits)]
    rfl
  · next unfit => rw [if_neg (by simpa [and_assoc] using unfit)]

/-- A visible parameter with one segment stands for its root, if no later one does. -/
theorem rootParam?_isSome (member : entry ∈ params) (shown : entry.2.documentation.hidden = false)
    (single : (splitNested entry.1).length = 1) :
    ∃ spec, rootParam? params (rootName entry.1) = some spec := by
  unfold rootParam?
  refine Option.isSome_iff_exists.mp ?_
  rw [Option.isSome_map, List.find?_isSome]
  exact ⟨entry, List.mem_reverse.mpr member, by simp [single, shown]⟩

/-- A parameter that stands for no root leaves the visible ones. -/
theorem NotedBy.keep {yields : ParamSpec → Schema → Prop} (noted : NotedBy yields names done roots)
    {next : Roots} (hidden : next.hidden = hiddenRoots (done ++ [entry]))
    (same : next.visible = roots.visible)
    (none : ∀ root, rootParam? (done ++ [entry]) root = rootParam? done root) :
    NotedBy yields names (done ++ [entry]) next where
  hidden := hidden
  distinct := same ▸ noted.distinct
  unknown root unknown := by
    rw [same]
    exact noted.unknown root (none root ▸ unknown)
  visible root spec stands := by
    rw [same]
    exact noted.visible root spec (none root ▸ stands)

/-- A parameter that stands for a root is noted as the last one that does. -/
theorem NotedBy.insert {yields : ParamSpec → Schema → Prop} (noted : NotedBy yields names done roots)
    {schema : Schema} (here : yields entry.2 schema) (single : (splitNested entry.1).length = 1)
    (shown : entry.2.documentation.hidden = false) :
    NotedBy yields names (done ++ [entry]) { roots with
      visible := roots.visible.insert (rootName entry.1)
        (locate names (rootName entry.1) entry.2 schema, schema) } := by
  have stands (root : String) : rootParam? (done ++ [entry]) root =
      if rootName entry.1 = root then some entry.2 else rootParam? done root := by
    rw [rootParam?_append]
    simp [single, shown]
  refine ⟨?_, Table.nodup_keys_insert noted.distinct _ _, fun root => ?_, fun root => ?_⟩
  · rw [hiddenRoots, List.flatMap_append, ← hiddenRoots, ← hiddenRoots, noted.hidden]
    simp [hiddenRoots, shown]
  · rw [Table.get?_insert, stands]
    split
    · exact fun none => absurd none (Option.some_ne_none _)
    · exact noted.unknown root
  · rw [Table.get?_insert, stands]
    split
    · next own =>
      rintro _ ⟨⟩
      exact ⟨schema, here, by rw [← own]⟩
    · exact noted.visible root

theorem noteRoot_notedBy {yields : ParamSpec → Schema → Prop}
    (each : ∀ spec, Always (yields spec) (paramSchema lexicon spec)) (noted : NotedBy yields names done roots)
    (entry : String × ParamSpec) :
    Always (NotedBy yields names (done ++ [entry])) (noteRoot lexicon names roots entry.1 entry.2) := by
  have hidden : hiddenRoots (done ++ [entry]) = hiddenRoots done ++ hiddenRoots [entry] :=
    List.flatMap_append ..
  obtain ⟨isArray, rest, segments⟩ := splitNested_cons entry.1
  unfold noteRoot
  rw [segments]
  cases rest with
  | cons next rest =>
    refine .pure (noted.keep ?_ rfl fun root => ?_)
    · rw [hidden, noted.hidden]
      simp [hiddenRoots, segments]
    · rw [rootParam?_append, if_neg (by simp [segments])]
  | nil =>
    dsimp only
    split
    · next hides =>
      refine .pure (noted.keep ?_ rfl fun root => ?_)
      · rw [hidden, noted.hidden]
        simp [hiddenRoots, segments, hides]
      · rw [rootParam?_append, if_neg (by simp [hides])]
    · next shows =>
      exact .bind (each entry.2) fun schema here =>
        .pure (noted.insert here (by simp [segments]) (by simpa using shows))

theorem noteRoots_notedBy {yields : ParamSpec → Schema → Prop}
    (each : ∀ spec, Always (yields spec) (paramSchema lexicon spec)) (names : Names)
    (params : Table String ParamSpec) : Always (NotedBy yields names params)
      (params.foldlM (fun roots entry => noteRoot lexicon names roots entry.1 entry.2) {}) := by
  have nothing : NotedBy yields names [] {} :=
    ⟨rfl, List.nodup_nil, fun root none => rfl, fun root spec stands => (by cases stands)⟩
  exact Always.foldlM_split (NotedBy yields names) (fun _ entry _ _ _ noted => noteRoot_notedBy each noted entry)
    (List.nil_append params).symm nothing

theorem noteRoots_noted (fixed : ∀ spec, Fixed (paramSchema lexicon spec)) (names : Names)
    (params : Table String ParamSpec) : Always (Noted lexicon names params)
      (params.foldlM (fun roots entry => noteRoot lexicon names roots entry.1 entry.2) {}) :=
  (noteRoots_notedBy fixed names params).imp fun _ => noted_iff.mpr

theorem Noted.locationInside_eq (noted : Noted lexicon names params roots) {schema : Schema}
    (declared : schema = declaredSchema lexicon entry.2) :
    locationInside names roots entry schema = locationOf lexicon names params entry := by
  unfold locationInside locationOf
  rw [noted.visible, declared]
  cases rootParam? params (rootName entry.1) <;> rfl

/-- A later parameter of the body tears the place of the parameter when it is placed: it makes an array
of an object on its way. -/
def Torn (lexicon : Lexicon) (names : Names) (params : Table String ParamSpec)
    (bodyAt : (done : Table String ParamSpec) → Schema) (before : Table String ParamSpec)
    (entry : String × ParamSpec) (after : Table String ParamSpec) : Prop :=
  ∃ between other rest, after = between ++ other :: rest ∧ InBody lexicon names params other ∧
    Tears (bodyAt (before ++ entry :: between)) (splitNested other.1) (splitNested entry.1)

/-- A draft behind some of the parameters: those of the body have their places, unless one of the others
tears them, and their roots in any case. A root that is no longer waiting has its place too. -/
structure AllPlaced (lexicon : Lexicon) (names : Names) (params : Table String ParamSpec) (roots : Roots)
    (bodyAt : (done : Table String ParamSpec) → Schema) (done : Table String ParamSpec)
    (state : Draft × Table String (Location × Schema)) : Prop where
  waiting : ∀ entry ∈ state.2, entry ∈ roots.visible
  roots : ∀ root schema, Table.get? roots.visible root = some (.body, schema) →
    Table.get? state.2 root = none → HasPlace state.1.body [⟨root, false⟩]
  begun : ∀ entry ∈ done, InBody lexicon names params entry →
    HasPlace state.1.body [⟨rootName entry.1, false⟩]
  places : ∀ before entry after, done = before ++ entry :: after → InBody lexicon names params entry →
    HasPlace state.1.body (splitNested entry.1) ∨ Torn lexicon names params bodyAt before entry after

variable {bodyAt : (done : Table String ParamSpec) → Schema}

theorem HasPlace.root {name : String} (place : HasPlace container (splitNested name)) :
    HasPlace container [⟨rootName name, false⟩] := by
  obtain ⟨isArray, rest, segments⟩ := splitNested_cons name
  rw [segments] at place
  obtain ⟨property, found, -⟩ := place
  exact ⟨property, found, .inl rfl⟩

/-- One more parameter has its place, if it is one of the body, and leaves those that it does not tear. -/
theorem AllPlaced.append {state next : Draft × Table String (Location × Schema)}
    (here : AllPlaced lexicon names params roots bodyAt done state) (same : state.1.body = bodyAt done)
    (waiting : ∀ entry ∈ next.2, entry ∈ roots.visible)
    (atRoot : ∀ root schema, Table.get? roots.visible root = some (.body, schema) →
      Table.get? next.2 root = none → HasPlace next.1.body [⟨root, false⟩])
    (kept : ∀ segments, HasPlace state.1.body segments →
      (InBody lexicon names params entry → ¬Tears state.1.body (splitNested entry.1) segments) →
        HasPlace next.1.body segments)
    (own : InBody lexicon names params entry → HasPlace next.1.body (splitNested entry.1)) :
    AllPlaced lexicon names params roots bodyAt (done ++ [entry]) next := by
  refine ⟨waiting, atRoot, fun other member inBody => ?_, fun before other after split inBody => ?_⟩
  · rcases List.mem_append.mp member with early | late
    · exact kept _ (here.begun other early inBody) fun _ => not_tears_root _ _ _
    · obtain rfl := List.mem_singleton.mp late
      exact (own inBody).root
  rcases List.eq_nil_or_concat after with rfl | ⟨between, last, rfl⟩
  · obtain ⟨-, same⟩ := List.append_inj' split rfl
    obtain rfl := List.singleton_inj.mp same
    exact .inl (own inBody)
  · rw [List.concat_eq_append, ← List.cons_append, ← List.append_assoc] at split
    obtain ⟨rfl, single⟩ := List.append_inj' split rfl
    obtain rfl := List.singleton_inj.mp single
    rw [List.concat_eq_append]
    rcases here.places before other between rfl inBody with placed | torn
    · by_cases tears : InBody lexicon names params entry ∧
          Tears state.1.body (splitNested entry.1) (splitNested other.1)
      · exact .inr ⟨between, entry, [], rfl, tears.1, same ▸ tears.2⟩
      · exact .inl (kept _ placed fun inBody torn => tears ⟨inBody, torn⟩)
    · obtain ⟨early, tearing, rest, rfl, tears⟩ := torn
      exact .inr ⟨early, tearing, rest ++ [entry], by simp, tears⟩

/-- A parameter that is passed over changes nothing. -/
theorem AllPlaced.skip {state : Draft × Table String (Location × Schema)}
    (here : AllPlaced lexicon names params roots bodyAt done state) (same : state.1.body = bodyAt done)
    (own : InBody lexicon names params entry → HasPlace state.1.body (splitNested entry.1)) :
    AllPlaced lexicon names params roots bodyAt (done ++ [entry]) state :=
  here.append same here.waiting here.roots (fun _ place _ => place) own

/-- A root has its place however its first parameter is written. -/
theorem hasPlace_root {body : Schema} {name : String} (single : (splitNested name).length = 1) :
    HasPlace body (splitNested name) ↔ HasPlace body [⟨rootName name, false⟩] := by
  obtain ⟨isArray, rest, segments⟩ := splitNested_cons name
  rw [segments, List.length_cons] at single
  obtain rfl := List.length_eq_zero_iff.mp (Nat.succ.inj single)
  rw [segments]
  simp [HasPlace]

/-- Where a parameter is placed, it has its place if it travels in the body. -/
theorem hasPlace_placeNested (names : Names) (draft : Draft) (name : String) (spec : ParamSpec)
    (schema : Schema) :
    HasPlace (placeNested names draft name (splitNested name) spec .body schema).body (splitNested name) :=
  hasPlace_insertNested _ _ _ _

theorem HasPlace.placeNested {draft : Draft} (place : HasPlace draft.body segments) {name : String}
    {location : Location} (intact : location = .body → ¬Tears draft.body (splitNested name) segments)
    (spec : ParamSpec) (schema : Schema) :
    HasPlace (placeNested names draft name (splitNested name) spec location schema).body segments := by
  unfold Route.placeNested
  split
  · next inBody => exact place.insertNested (intact inBody) _ _
  · exact place

/-- A parameter that is placed has its place, and so has its root if it stood for the root. -/
theorem AllPlaced.place {draft : Draft} {pending rest : Table String (Location × Schema)}
    (here : AllPlaced lexicon names params roots bodyAt done (draft, pending)) (same : draft.body = bodyAt done)
    (through : LetThrough roots entry) (noted : Noted lexicon names params roots) {location : Location}
    (located : location = locationOf lexicon names params entry) (schema : Schema)
    (waiting : ∀ other ∈ rest, other ∈ pending)
    (others : ∀ root schema, Table.get? roots.visible root = some (.body, schema) →
      Table.get? rest root = none → Table.get? pending root = none ∨
        (splitNested entry.1).length = 1 ∧ rootName entry.1 = root ∧ location = .body) :
    AllPlaced lexicon names params roots bodyAt (done ++ [entry])
      (placeNested names draft entry.1 (splitNested entry.1) entry.2 location schema, rest) := by
  refine here.append same (fun other left => here.waiting other (waiting other left)) ?_ ?_ ?_
  · intro root known inRoots gone
    rcases others root known inRoots gone with before | ⟨single, rfl, rfl⟩
    · exact (here.roots root known inRoots before).placeNested (fun _ => not_tears_root _ _ _) _ _
    · rw [← hasPlace_root single]
      exact hasPlace_placeNested names draft entry.1 entry.2 schema
  · refine fun segments place intact => place.placeNested (fun body => intact ?_) _ _
    exact ⟨through.shown, noted.hidden ▸ through.rootShown, located ▸ body⟩
  · intro travels
    rw [located, travels.located]
    exact hasPlace_placeNested names draft entry.1 entry.2 schema

theorem addNested_allPlaced (fixed : ∀ spec, Fixed (paramSchema lexicon spec))
    (noted : Noted lexicon names params roots) (member : entry ∈ params)
    {state : Draft × Table String (Location × Schema)}
    (here : AllPlaced lexicon names params roots bodyAt done state) (same : state.1.body = bodyAt done) :
    Always (AllPlaced lexicon names params roots bodyAt (done ++ [entry]))
      (addNested lexicon names roots state entry.1 entry.2) := by
  obtain ⟨draft, pending⟩ := state
  refine (addNested_adds lexicon names roots (draft, pending) entry).imp fun next adds => ?_
  cases adds with
  | hidden unshown =>
    exact here.skip same fun inBody =>
      absurd ⟨inBody.shown, noted.hidden ▸ inBody.rootShown⟩ unshown
  | stoodFor through single done =>
    obtain ⟨root, stands⟩ := rootParam?_isSome member through.shown single
    refine here.skip same fun inBody => (hasPlace_root single).mpr ?_
    have visible := noted.visible (rootName entry.1)
    rw [stands, Option.map_some, locate_of_stands stands, inBody.located] at visible
    exact here.roots _ _ visible done
  | @root location schema through single waits =>
    obtain ⟨root, stands⟩ := rootParam?_isSome member through.shown single
    have visible := noted.visible (rootName entry.1)
    rw [stands, Option.map_some, locate_of_stands stands] at visible
    have listed := here.waiting _ (Table.mem_of_get? waits)
    have known : location = locationOf lexicon names params entry :=
      congrArg Prod.fst (Option.some.inj ((Table.get?_of_mem noted.distinct listed).symm.trans visible))
    refine here.place same through noted known schema (fun _ => Table.mem_of_mem_erase) ?_
    intro other schema inRoots gone
    by_cases own : rootName entry.1 = other
    · subst own
      have body := congrArg Prod.fst (Option.some.inj (visible.symm.trans inRoots))
      exact .inr ⟨single, rfl, known.trans body⟩
    · rw [Table.get?_erase_of_ne pending own] at gone
      exact .inl gone
  | @inside schema through several yields =>
    have located := noted.locationInside_eq (yields.eq_declared fixed)
    exact here.place same through noted located schema (fun _ => id) fun _ _ _ => .inl

end

/-- The draft of a route behind its headers, in a build that has introspected nothing. -/
def headerDraft (lexicon : Lexicon) (route : RouteDescriptor) : Draft :=
  outcome (route.headers.foldlM (fun draft entry => addHeader lexicon draft entry.1 entry.2) {})

/-- The roots of the parameters of a route, in such a build. -/
def rootsOf (lexicon : Lexicon) (names : Names) (route : RouteDescriptor) : Roots :=
  outcome (route.params.foldlM (fun roots entry => noteRoot lexicon names roots entry.1 entry.2) {})

/-- The draft of a route with nested names behind some of its parameters, with the roots that wait. -/
def stateBehind (lexicon : Lexicon) (names : Names) (route : RouteDescriptor)
    (done : Table String ParamSpec) : Draft × Table String (Location × Schema) :=
  outcome (done.foldlM
    (fun state entry => addNested lexicon names (rootsOf lexicon names route) state entry.1 entry.2)
    (headerDraft lexicon route, (rootsOf lexicon names route).visible))

/-- The body of a route with nested names behind some of its parameters. -/
def bodyBehind (lexicon : Lexicon) (names : Names) (route : RouteDescriptor)
    (done : Table String ParamSpec) : Schema :=
  (stateBehind lexicon names route done).1.body

section
variable {lexicon : Lexicon} {names : Names} {route : RouteDescriptor}
  (fixed : ∀ spec, Fixed (paramSchema lexicon spec))
include fixed

theorem rootsOf_noted : Noted lexicon names route.params (rootsOf lexicon names route) :=
  noteRoots_noted fixed names route.params {}

theorem stateBehind_append (done : Table String ParamSpec) (entry : String × ParamSpec) :
    stateBehind lexicon names route (done ++ [entry]) =
      outcome (addNested lexicon names (rootsOf lexicon names route)
        (stateBehind lexicon names route done) entry.1 entry.2) :=
  outcome_foldlM_append (fun state (entry : String × ParamSpec) =>
    addNested_fixed fixed names _ state entry.1 entry.2) done entry _

/-- Behind the first parameters of a route those of the body have their places. -/
theorem stateBehind_allPlaced {done rest : Table String ParamSpec} (split : route.params = done ++ rest) :
    AllPlaced lexicon names route.params (rootsOf lexicon names route) (bodyBehind lexicon names route)
      done (stateBehind lexicon names route done) := by
  induction done using List.reverseRecOn generalizing rest with
  | nil =>
    refine ⟨fun entry member => member, fun root schema found gone => ?_,
      fun entry member => absurd member List.not_mem_nil, fun before entry after split => ?_⟩
    · exact absurd (found.symm.trans gone) (Option.some_ne_none _)
    · cases before <;> cases split
  | append_singleton done entry ih =>
    rw [List.append_assoc] at split
    rw [stateBehind_append fixed]
    exact addNested_allPlaced fixed (rootsOf_noted fixed) (by simp [split]) (ih split) rfl {}

/-- A build ends behind all parameters, whatever was introspected before. -/
theorem addAllNested_always : Always (· = (stateBehind lexicon names route route.params).1)
    (addAllNested lexicon names route.params (headerDraft lexicon route)) := by
  refine Always.bind (Fixed.foldlM (fun roots (entry : String × ParamSpec) =>
    noteRoot_fixed fixed names roots entry.1 entry.2) route.params {}) fun _ same => ?_
  obtain rfl : _ = rootsOf lexicon names route := same
  refine Always.bind (Fixed.foldlM (fun state (entry : String × ParamSpec) =>
    addNested_fixed fixed names _ state entry.1 entry.2) route.params _) fun _ same => ?_
  exact .pure (congrArg Prod.fst same)

end

/-- Without entities every visible parameter of the body of a route with nested names is found in the body:
the names of its segments lead to a property, whatever the declared names and their order are. Only a later
parameter of the body may take it away, one that finds an object on the way of this one and makes an array
of it. -/
theorem buildParams_places (chain : Chain) (aliases : Table String String) (route : RouteDescriptor)
    (nested : route.params.keys.any isNested = true) (progress : Progress) :
    ∀ before entry after, route.params = before ++ entry :: after →
      InBody { chain, catalog := [] } ⟨pathVariables route.path, aliases⟩ route.params entry →
      ∃ body, ((buildParams { chain, catalog := [] } aliases route).run progress).1.1 = some body ∧
        ((∃ property, body.reach (segmentNames entry.1) = some property) ∨
          Torn { chain, catalog := [] } ⟨pathVariables route.path, aliases⟩ route.params
            (bodyBehind { chain, catalog := [] } ⟨pathVariables route.path, aliases⟩ route)
            before entry after) := by
  intro before entry after split inBody
  let names : Names := ⟨pathVariables route.path, aliases⟩
  have fixed := paramSchema_fixed chain
  have here := @stateBehind_allPlaced _ names _ fixed _ _ (List.append_nil route.params).symm
  have built : Always (fun built : Option Schema × List Parameter =>
      built.1 = some (bodyBehind { chain, catalog := [] } names route route.params))
      (buildParams { chain, catalog := [] } aliases route) := by
    refine Always.bind (Fixed.foldlM (fun draft (entry : String × HeaderSpec) =>
      addHeader_fixed chain draft entry.1 entry.2) route.headers {}) fun _ same => ?_
    subst same
    rw [if_pos nested]
    refine Always.bind (addAllNested_always fixed) fun _ same => .pure ?_
    subst same
    obtain ⟨property, found, -⟩ := here.begun entry (by simp [split]) inBody
    refine if_neg fun empty => ?_
    rw [List.isEmpty_iff.mp empty] at found
    cases found
  have made := built progress
  obtain ⟨-, properties, required, same⟩ := (buildParams_regular aliases route progress).1 _ made
  exact ⟨_, made, (here.places before entry after split inBody).imp_left fun place =>
    place.reach (congrArg Schema.type same)⟩

def bodyParam : ParamSpec := { documentation := { location := some "body" } }

/-- An order whose items are written as an array by some parameters only, and whose root is declared
last. -/
def orderRoute : RouteDescriptor where
  path := "/orders"
  method := .post
  params :=
    [("items[][name]", bodyParam), ("items[note]", bodyParam), ("items[][quantity]", bodyParam),
      ("items", bodyParam)]

theorem buildParams_places_order : orderRoute.params.keys.any isNested = true ∧
    ∃ body,
      ((buildParams { chain := Chain.builtIn, catalog := [] } [] orderRoute).run {}).1.1 = some body ∧
        ∃ property, body.reach (segmentNames "items[note]") = some property := by
  have nested : orderRoute.params.keys.any isNested = true := by decide
  have inBody : InBody { chain := Chain.builtIn, catalog := [] } ⟨pathVariables orderRoute.path, []⟩
      orderRoute.params ("items[note]", bodyParam) := ⟨rfl, by decide, rfl⟩
  have note : splitNested "items[note]" = [⟨"items", false⟩, ⟨"note", false⟩] := by decide
  have quantity : splitNested "items[][quantity]" = [⟨"items", true⟩, ⟨"quantity", false⟩] := by decide
  have root : splitNested "items" = [⟨"items", false⟩] := by decide
  obtain ⟨body, made, found | ⟨between, other, rest, split, -, tears⟩⟩ :=
    buildParams_places Chain.builtIn [] orderRoute nested {} [("items[][name]", bodyParam)]
      ("items[note]", bodyParam) [("items[][quantity]", bodyParam), ("items", bodyParam)] rfl inBody
  · exact ⟨nested, body, made, found⟩
  rcases between with _ | ⟨_, _ | ⟨_, between⟩⟩
  · -- The items are an array already where the quantity is placed.
    cases split
    rw [note, quantity] at tears
    obtain ⟨-, property, here, ⟨-, -, object⟩ | deeper⟩ := tears
    case inr => exact absurd deeper (not_tears_root _ _ _)
    have array : (Table.get? (bodyBehind { chain := Chain.builtIn, catalog := [] }
        ⟨pathVariables orderRoute.path, []⟩ orderRoute
        [("items[][name]", bodyParam), ("items[note]", bodyParam)]).properties "items").bind
          Schema.type = some .array := rfl
    cases array.symm.trans ((congrArg (Option.bind · Schema.type) here).trans object)
  · cases split
    rw [note, root] at tears
    exact tears.elim
  · simp at split

/-- An order whose items are objects for one parameter and arrays for a later one. -/
def mixedOrderRoute : RouteDescriptor where
  path := "/orders"
  method := .post
  params := [("items[name]", bodyParam), ("items[][quantity]", bodyParam)]

/-- A parameter of the body may be lost: the name of the items is, once they are an array. -/
theorem array_loses_properties : ¬∀ (chain : Chain) (aliases : Table String String)
    (route : RouteDescriptor), route.params.keys.any isNested = true → ∀ progress : Progress,
      ∀ entry ∈ route.params,
        InBody { chain, catalog := [] } ⟨pathVariables route.path, aliases⟩ route.params entry →
        ∃ body, ((buildParams { chain, catalog := [] } aliases route).run progress).1.1 = some body ∧
          ∃ property, body.reach (segmentNames entry.1) = some property := by
  intro lossless
  obtain ⟨body, made, property, found⟩ := lossless Chain.builtIn [] mixedOrderRoute (by decide) {}
    ("items[name]", bodyParam) List.mem_cons_self ⟨rfl, by decide, rfl⟩
  have lost : (((buildParams { chain := Chain.builtIn, catalog := [] } [] mixedOrderRoute).run {}).1.1.bind
      fun body => body.reach (segmentNames "items[name]")) = none := rfl
  rw [made, Option.bind_some, found] at lost
  cases lost

end Route

end ApiDoc
