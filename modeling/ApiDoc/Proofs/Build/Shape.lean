import ApiDoc.Proofs.Build.Locations
import ApiDoc.Proofs.Build.Trees
import ApiDoc.Proofs.Type.Primitives

/-! # The shape of bodies

A route without entities places all parameters of its body that are shown, each with what its own type
resolves to, if no two of them have the same segment names (`buildParams_body`). The tree of the body then
does not depend on the order in which they are declared (`buildParams_shape`), as long as no parameter is
an array in which others are nested without an empty group. If one is, those that are declared after it go
into its items, and those that are declared before it make an object of it (`order_decides_arrays`).
-/

namespace ApiDoc

namespace Route

open Schema Publication

variable {lexicon : Lexicon} {names : Names} {params params' : Table String ParamSpec}
  {entry entry' : String × ParamSpec}

/-- No two parameters have the same segment names. -/
def Distinct (params : Table String ParamSpec) : Prop :=
  (params.map fun entry => segmentNames entry.1).Nodup

instance (params : Table String ParamSpec) : Decidable (Distinct params) :=
  inferInstanceAs (Decidable (List.Nodup _))

theorem Distinct.eq (distinct : Distinct params) (member : entry ∈ params) (member' : entry' ∈ params)
    (same : segmentNames entry.1 = segmentNames entry'.1) : entry = entry' :=
  List.inj_on_of_nodup_map distinct member member' same

theorem Distinct.roots (distinct : Distinct params) : RootsDistinct params := by
  refine (List.nodup_map_iff_inj_on (List.Nodup.filter _ (List.Nodup.of_map _ distinct))).mpr ?_
  intro entry listed entry' listed' same
  obtain ⟨member, single⟩ := List.mem_filter.mp listed
  obtain ⟨member', single'⟩ := List.mem_filter.mp listed'
  refine distinct.eq member member' ?_
  rw [segmentNames_eq_singleton (of_decide_eq_true single),
    segmentNames_eq_singleton (of_decide_eq_true single'), same]

/-- The publication of a parameter, where no build changes what its type resolves to. -/
def publicationOf (lexicon : Lexicon) (names : Names) (params : Table String ParamSpec)
    (entry : String × ParamSpec) : Publication :=
  ⟨entry, locationOf lexicon names params entry, declaredSchema lexicon entry.2⟩

/-- All parameters that are shown, with their publications. -/
def publications (lexicon : Lexicon) (names : Names) (params : Table String ParamSpec) : List Publication :=
  (shownParams params).map (publicationOf lexicon names params)

/-- Where no build changes what types resolve to, there is one publication of a parameter. -/
theorem PublishedIn.eq_publicationOf (fixed : ∀ spec, Fixed (paramSchema lexicon spec))
    {publication : Publication} (here : PublishedIn lexicon names params entry publication) :
    publicationOf lexicon names params entry = publication := by
  obtain ⟨_, location, schema⟩ := publication
  obtain ⟨rfl, located, yields⟩ := here
  unfold publicationOf
  rw [← located, ← yields.eq_declared fixed]

/-- The parameters of a route with nested names are all published, if they are shown. -/
theorem addAllNested_eq (fixed : ∀ spec, Fixed (paramSchema lexicon spec)) (distinct : Distinct params)
    (draft : Draft) : Always (· = (publications lexicon names params).foldl (publish names) draft)
      (addAllNested lexicon names params draft) := by
  refine (addAllNested_published distinct.roots draft).imp fun next here => ?_
  obtain ⟨published, each, rfl⟩ := here
  have same : List.Forall₂ Eq (publications lexicon names params) published :=
    List.forall₂_map_left_iff.mpr (each.imp fun _ _ first => first.eq_publicationOf fixed)
  rw [List.forall₂_eq_eq_eq] at same
  rw [same]

def bodyParams (lexicon : Lexicon) (names : Names) (params : Table String ParamSpec) :
    Table String ParamSpec :=
  (shownParams params).filter fun entry => locationOf lexicon names params entry = .body

theorem mem_bodyParams :
    entry ∈ bodyParams lexicon names params ↔ entry ∈ params ∧ InBody lexicon names params entry := by
  unfold bodyParams
  rw [List.mem_filter, mem_shownParams, decide_eq_true_iff]
  exact ⟨fun ⟨⟨member, shown, root⟩, located⟩ => ⟨member, shown, root, located⟩,
    fun ⟨member, shown, root, located⟩ => ⟨⟨member, shown, root⟩, located⟩⟩

theorem bodyParams_perm (distinct : Distinct params) (reordered : params.Perm params') :
    (bodyParams lexicon names params).Perm (bodyParams lexicon names params') := by
  have sameShown : isShown params = isShown params' := funext (isShown_perm reordered)
  have sameLocation : locationOf lexicon names params = locationOf lexicon names params' :=
    funext (locationOf_perm distinct.roots reordered)
  unfold bodyParams shownParams
  rw [sameShown, sameLocation]
  exact (reordered.filter _).filter _

def placementOf (lexicon : Lexicon) (entry : String × ParamSpec) : Placement where
  segments := splitNested entry.1
  leaf := (declaredSchema lexicon entry.2).describe entry.2.description
  required := entry.2.isRequired

/-- The parameters of the body, as they are placed. -/
def placements (lexicon : Lexicon) (names : Names) (params : Table String ParamSpec) : List Placement :=
  (bodyParams lexicon names params).map (placementOf lexicon)

theorem bodyOf_publications :
    bodyOf (publications lexicon names params) =
      (placements lexicon names params).foldl Placement.place .object := by
  unfold bodyOf inBody publications placements bodyParams
  rw [List.filter_map, List.foldl_map, List.foldl_map]
  rfl

/-- The body of a route with nested names has all parameters of the body placed in it, whatever was
introspected before. -/
theorem buildParams_body (chain : Chain) (aliases : Table String String) (route : RouteDescriptor)
    (nested : route.params.keys.any isNested = true) (distinct : Distinct route.params) :
    let body := (placements { chain, catalog := [] } ⟨pathVariables route.path, aliases⟩ route.params).foldl
      Placement.place .object
    Always (fun built => built.1 = if body.properties.isEmpty then none else some body)
      (buildParams { chain, catalog := [] } aliases route) := by
  intro body
  let names : Names := ⟨pathVariables route.path, aliases⟩
  refine (addHeaders_source names route.headers).bind fun draft headers => ?_
  rw [if_pos nested]
  refine (addAllNested_eq (paramSchema_fixed chain) distinct draft).bind fun _ same => .pure ?_
  subst same
  unfold Draft.finish
  rw [body_foldl_publish, headers.1]
  change (if (bodyOf _).properties.isEmpty = true then none else some (bodyOf _)) = _
  rw [bodyOf_publications]

/-- Whether segments write the way that they share alike: each name on it with an empty group behind it or
without one. -/
def writeAlike : (segments segments' : List NameSegment) → Bool
  | segment :: next :: rest, segment' :: next' :: rest' => segment.name != segment'.name ||
      segment.isArray == segment'.isArray && writeAlike (next :: rest) (next' :: rest')
  | _, _ => true

/-- Whether the second segments go on behind the place where the first ones end, and if so, whether with an
empty group. -/
def goesOnBehind? : (segments segments' : List NameSegment) → Option Bool
  | [segment], segment' :: _ :: _ => if segment.name = segment'.name then some segment'.isArray else none
  | segment :: next :: rest, segment' :: next' :: rest' =>
    if segment.name = segment'.name then goesOnBehind? (next :: rest) (next' :: rest') else none
  | _, _ => none

/-- One parameter of the body is nested in another, behind an empty group or not. -/
structure NestedIn (lexicon : Lexicon) (names : Names) (params : Table String ParamSpec)
    (outer inner : String × ParamSpec) (isArray : Bool) : Prop where
  outerPlaced : outer ∈ bodyParams lexicon names params
  innerPlaced : inner ∈ bodyParams lexicon names params
  behind : goesOnBehind? (splitNested outer.1) (splitNested inner.1) = some isArray

/-- Parameters with names of their own agree, if they write their ways alike and are like new properties
where others go on behind them. -/
theorem agree_of_writeAlike {value value' : Schema} : ∀ {segments segments' : List NameSegment},
    segments.map (·.name) ≠ segments'.map (·.name) → writeAlike segments segments' = true →
    (∀ isArray, goesOnBehind? segments segments' = some isArray → LikeNew isArray value) →
    (∀ isArray, goesOnBehind? segments' segments = some isArray → LikeNew isArray value') →
    Agree value value' segments segments'
  | [], [], _, _, _, _ => trivial
  | [], [_], _, _, _, _ => trivial
  | [], _ :: _ :: _, _, _, _, _ => trivial
  | [_], [], _, _, _, _ => trivial
  | _ :: _ :: _, [], _, _, _, _ => trivial
  | [_], [_], apart, _, _, _ => fun same => apart (congrArg (fun name => [name]) same)
  | [_], _ :: _ :: _, _, _, fits, _ => fun same => fits _ (if_pos same)
  | _ :: _ :: _, [_], _, _, _, fits => fun same => fits _ (if_pos same.symm)
  | segment :: next :: rest, segment' :: next' :: rest', apart, alike, fits, fits' => by
    intro same
    have further : segment.isArray = segment'.isArray ∧ writeAlike (next :: rest) (next' :: rest') = true := by
      simpa [writeAlike, same] using alike
    refine ⟨further.1, agree_of_writeAlike (fun alike => apart ?_) further.2 (fun isArray behind => ?_)
      fun isArray behind => ?_⟩
    · exact List.cons_eq_cons.mpr ⟨same, alike⟩
    · exact fits isArray ((if_pos same).trans behind)
    · exact fits' isArray ((if_pos same.symm).trans behind)

mutual

theorem primitiveSchema_bare : ∀ token : TypeToken, token.primitiveSchema.All Bare
  | .named name => by
    rw [TypeToken.primitiveSchema]
    exact bare_law.primitive name
  | .arrayOf item => by
    rw [TypeToken.primitiveSchema]
    exact (primitiveSchema_bare item).array bare_law
  | .oneOf variants => by
    rw [TypeToken.primitiveSchema]
    exact All.ofVariants ⟨rfl, rfl⟩ (primitiveSchemas_bare variants)

theorem primitiveSchemas_bare : ∀ variants : List TypeToken,
    ∀ schema ∈ TypeToken.primitiveSchemas variants, schema.All Bare
  | [], schema, member => by
    rw [TypeToken.primitiveSchemas] at member
    cases member
  | variant :: rest, schema, member => by
    rw [TypeToken.primitiveSchemas] at member
    rcases List.mem_cons.mp member with rfl | later
    · exact primitiveSchema_bare variant
    · exact primitiveSchemas_bare rest schema later

end

/-- No built-in type brings properties of its own. -/
theorem declaredSchema_bare (spec : ParamSpec) : (declaredSchema {} spec).All Bare := by
  have declared : Always (Schema.All Bare) (Lexicon.resolveDeclared {} spec.type) := by
    cases spec.type with
    | none => exact .pure bare_law.string
    | some token =>
      unfold Lexicon.resolveDeclared Lexicon.resolve Lexicon.resolve? Lexicon.resolveWithin?
      dsimp only
      rw [resolveWith?_primitive _ (isPrimitive_builtIn token), pure_bind]
      exact .pure (primitiveSchema_bare token)
  have restricted : Always (Schema.All Bare) (paramSchema {} spec) :=
    declared.bind fun schema bare => .pure
      ((bare.restrict bare_law.superficial spec.values).of_face bare_law.superficial rfl rfl rfl rfl)
  exact restricted {}

theorem bare_holder {schema : Schema} (bare : schema.All Bare) : schema.holder.Bare := by
  unfold Schema.holder
  split
  · cases present : schema.items with
    | none => exact bare.root
    | some items => exact (bare.items items present).root
  · exact bare.root

/-- Containers that hold the same parameters are empty alike. -/
theorem Holds.isEmpty_eq {container container' : Schema} {placed placed' : List Placement}
    (here : Holds container placed) (there : Holds container' placed')
    (same : ∀ placement, placement ∈ placed ↔ placement ∈ placed') :
    container.properties.isEmpty = container'.properties.isEmpty := by
  have sameKeys (name : String) :
      name ∈ Table.keys container.properties ↔ name ∈ Table.keys container'.properties := by
    simp only [here.mem_keys, there.mem_keys, same]
  have empty (properties : Table String Schema) :
      properties.isEmpty = true ↔ ∀ name, name ∉ Table.keys properties := by
    rw [List.isEmpty_iff, ← List.eq_nil_iff_forall_not_mem, Table.keys, List.map_eq_nil_iff]
  rw [Bool.eq_iff_iff, empty, empty]
  simp only [sameKeys]

/-- The parameters of the body make the tree that they have to make, if they agree with each other. -/
theorem holds_placements (distinct : Distinct params)
    (agree : ∀ entry ∈ bodyParams lexicon names params, ∀ entry' ∈ bodyParams lexicon names params,
      segmentNames entry.1 ≠ segmentNames entry'.1 → Agree (placementOf lexicon entry).value
        (placementOf lexicon entry').value (splitNested entry.1) (splitNested entry'.1)) :
    Holds ((placements lexicon names params).foldl Placement.place .object)
      (placements lexicon names params) := by
  refine holds_foldl_place (fun placement listed => ?_) (List.pairwise_map.mpr ?_)
  · obtain ⟨entry, -, rfl⟩ := List.mem_map.mp listed
    obtain ⟨isArray, rest, segments⟩ := splitNested_cons entry.1
    exact fun none => List.cons_ne_nil _ _ (segments.symm.trans none)
  · have apart : (bodyParams lexicon names params).Pairwise fun entry entry' =>
        segmentNames entry.1 ≠ segmentNames entry'.1 :=
      (List.pairwise_map.mp distinct).sublist (List.filter_sublist.trans List.filter_sublist)
    exact apart.imp_of_mem fun member member' => agree _ member _ member'

/-- Without entities the tree of the body does not depend on the order of the parameters, whatever was
introspected before, for parameters with different segment names that write the ways that they share
alike. A parameter may only be an array if those that are nested in it are behind an empty group, and its
type may not bring properties of its own, as no built-in type does. -/
theorem buildParams_shape (chain : Chain) (aliases : Table String String) (route : RouteDescriptor)
    {params : Table String ParamSpec} (reordered : route.params.Perm params)
    (nested : route.params.keys.any isNested = true) (distinct : Distinct route.params)
    (alike : ∀ entry ∈ route.params, ∀ entry' ∈ route.params,
      writeAlike (splitNested entry.1) (splitNested entry'.1) = true)
    (plain : ∀ outer inner, NestedIn { chain, catalog := [] } ⟨pathVariables route.path, aliases⟩
      route.params outer inner false →
        (placementOf { chain, catalog := [] } outer).value.isType .array = false)
    (bare : chain = Chain.builtIn ∨ ∀ outer inner isArray,
      NestedIn { chain, catalog := [] } ⟨pathVariables route.path, aliases⟩ route.params outer inner isArray →
        (placementOf { chain, catalog := [] } outer).value.holder.Bare)
    (progress progress' : Progress) :
    Option.Rel Schema.SameTree ((buildParams { chain, catalog := [] } aliases route).run progress).1.1
      ((buildParams { chain, catalog := [] } aliases { route with params }).run progress').1.1 := by
  let lexicon : Lexicon := { chain, catalog := [] }
  let names : Names := ⟨pathVariables route.path, aliases⟩
  have fresh {outer inner : String × ParamSpec} {isArray : Bool}
      (within : NestedIn lexicon names route.params outer inner isArray) :
      LikeNew isArray (placementOf lexicon outer).value := by
    refine likeNew_of_bare (fun unmarked => plain outer inner (unmarked ▸ within)) ?_
    rcases bare with rfl | bare
    · have declared := (declaredSchema_bare outer.2).describe bare_law.superficial outer.2.description
      exact bare_holder (declared.arrayIf bare_law _)
    · exact bare outer inner isArray within
  have agree {entry entry' : String × ParamSpec} (member : entry ∈ bodyParams lexicon names route.params)
      (member' : entry' ∈ bodyParams lexicon names route.params)
      (apart : segmentNames entry.1 ≠ segmentNames entry'.1) :
      Agree (placementOf lexicon entry).value (placementOf lexicon entry').value (splitNested entry.1)
        (splitNested entry'.1) :=
    agree_of_writeAlike apart
      (alike entry (mem_bodyParams.mp member).1 entry' (mem_bodyParams.mp member').1)
      (fun _ behind => fresh ⟨member, member', behind⟩) fun _ behind => fresh ⟨member', member, behind⟩
  have sameParams : (bodyParams lexicon names route.params).Perm (bodyParams lexicon names params) :=
    bodyParams_perm distinct reordered
  have distinct' : Distinct params := (reordered.map _).nodup_iff.mp distinct
  have nested' : params.keys.any isNested = true := by
    rw [← nested]
    exact ((reordered.map Prod.fst).any_eq).symm
  have here : Holds _ (placements lexicon names route.params) :=
    holds_placements distinct fun _ member _ member' => agree member member'
  have there : Holds _ (placements lexicon names params) :=
    holds_placements distinct' fun _ member _ member' =>
      agree (sameParams.mem_iff.mpr member) (sameParams.mem_iff.mpr member')
  have same (placement : Placement) :
      placement ∈ placements lexicon names route.params ↔ placement ∈ placements lexicon names params :=
    (sameParams.map _).mem_iff
  rw [buildParams_body chain aliases route nested distinct progress,
    buildParams_body chain aliases { route with params } nested' distinct' progress']
  dsimp only
  rw [here.isEmpty_eq there same]
  split
  · exact .none
  · exact .some (here.sameTree there same)

def arrayParam : ParamSpec :=
  { type := some (.arrayOf (.named "JSON")), documentation := { location := some "body" } }

/-- A cart whose lines are declared behind what is nested in them. -/
def cartRoute : RouteDescriptor where
  path := "/carts"
  method := .post
  params :=
    [("cart[lines][][sku]", bodyParam), ("cart", bodyParam), ("cart[lines]", arrayParam),
      ("cart[note]", bodyParam)]

theorem buildParams_shape_cart : cartRoute.params.Perm cartRoute.params.reverse ∧
    Option.Rel Schema.SameTree ((buildParams {} [] cartRoute).run {}).1.1
      ((buildParams {} [] { cartRoute with params := cartRoute.params.reverse }).run {}).1.1 := by
  have plain : ∀ outer ∈ cartRoute.params, ∀ inner ∈ cartRoute.params,
      goesOnBehind? (splitNested outer.1) (splitNested inner.1) = some false →
        (placementOf {} outer).value.isType .array = false := by decide
  refine ⟨(List.reverse_perm _).symm, ?_⟩
  refine buildParams_shape Chain.builtIn [] cartRoute (List.reverse_perm _).symm (by decide) (by decide)
    (by decide) (fun outer inner within => ?_) (.inl rfl) {} {}
  exact plain outer (mem_bodyParams.mp within.outerPlaced).1 inner (mem_bodyParams.mp within.innerPlaced).1
    within.behind

/-- Lines that are an array, with what is nested in them without an empty group. -/
def lineRoute : RouteDescriptor where
  path := "/lines"
  method := .post
  params := [("lines", arrayParam), ("lines[sku]", bodyParam)]

/-- The lines are an array if they are declared first, and an object if they are declared last. -/
theorem order_decides_arrays : ¬∀ (chain : Chain) (aliases : Table String String) (route : RouteDescriptor)
    (params : Table String ParamSpec), route.params.Perm params → route.params.keys.any isNested = true →
      Distinct route.params →
      (∀ entry ∈ route.params, ∀ entry' ∈ route.params,
        writeAlike (splitNested entry.1) (splitNested entry'.1) = true) →
      ∀ progress progress' : Progress,
        Option.Rel Schema.SameTree ((buildParams { chain, catalog := [] } aliases route).run progress).1.1
          ((buildParams { chain, catalog := [] } aliases { route with params }).run progress').1.1 := by
  intro independent
  have related := independent Chain.builtIn [] lineRoute lineRoute.params.reverse (List.reverse_perm _).symm
    (by decide) (by decide) (by decide) {} {}
  obtain ⟨first, lines, made, object, found, array⟩ : ∃ body lines,
      ((buildParams {} [] lineRoute).run {}).1.1 = some body ∧ body.type = some .object ∧
        Table.get? body.properties "lines" = some lines ∧ lines.type = some .array := ⟨_, _, rfl, rfl, rfl, rfl⟩
  obtain ⟨second, lines', made', found', object'⟩ : ∃ body lines,
      ((buildParams {} [] { lineRoute with params := lineRoute.params.reverse }).run {}).1.1 = some body ∧
        Table.get? body.properties "lines" = some lines ∧ lines.type = some .object := ⟨_, _, rfl, rfl, rfl⟩
  change Option.Rel Schema.SameTree ((buildParams {} [] lineRoute).run {}).1.1
    ((buildParams {} [] { lineRoute with params := lineRoute.params.reverse }).run {}).1.1 at related
  rw [made, made'] at related
  cases related with
  | some same =>
    have alike := (same.property object found found').type_eq
    rw [array, object'] at alike
    cases alike

def profileResolver : CustomResolver where
  name := "profile"
  handles token := token == .named "Profile"
  reply := .schema (Schema.object.addProperty "email" .string false)

/-- A user whose type has a property, with another one nested in it. -/
def profileRoute : RouteDescriptor where
  path := "/users"
  method := .post
  params :=
    [("user", { type := some (.named "Profile"), documentation := { location := some "body" } }),
      ("user[name]", bodyParam)]

/-- What a type brings is kept if the parameter is declared first, and lost if it is declared last. -/
theorem order_decides_properties : ¬Option.Rel Schema.SameTree
    ((buildParams { chain := .custom profileResolver :: Chain.builtIn } [] profileRoute).run {}).1.1
    ((buildParams { chain := .custom profileResolver :: Chain.builtIn } []
      { profileRoute with params := profileRoute.params.reverse }).run {}).1.1 := by
  intro related
  obtain ⟨first, user, made, object, found, typed, email⟩ : ∃ body user,
      ((buildParams { chain := .custom profileResolver :: Chain.builtIn } [] profileRoute).run {}).1.1 =
        some body ∧ body.type = some .object ∧ Table.get? body.properties "user" = some user ∧
          user.type = some .object ∧ Table.keys user.properties = ["email", "name"] :=
    ⟨_, _, rfl, rfl, rfl, rfl, rfl⟩
  obtain ⟨second, user', made', found', alone⟩ : ∃ body user,
      ((buildParams { chain := .custom profileResolver :: Chain.builtIn } []
        { profileRoute with params := profileRoute.params.reverse }).run {}).1.1 = some body ∧
          Table.get? body.properties "user" = some user ∧ Table.keys user.properties = ["name"] :=
    ⟨_, _, rfl, rfl, rfl⟩
  rw [made, made'] at related
  cases related with
  | some same =>
    cases same.property object found found' with
    | same => exact absurd (email.symm.trans alone) (by decide)
    | object _ _ keys =>
      have kept := keys "email"
      rw [email, alone] at kept
      exact absurd kept (by decide)
    | array typed' => cases typed.symm.trans typed'

end Route

end ApiDoc
