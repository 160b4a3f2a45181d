import ApiDoc.Proofs.Build.Flat
import ApiDoc.Proofs.Build.Locations

/-! # Groups of nested parameters

A parameter of one segment and all that is nested in it make a group. In a route with nested names a
group stays together (`buildParams_groups`): if its root is located in the body, all of it is placed
there and none of it becomes a parameter; if not, the body has nothing of it, and all of it becomes
parameters at the location of the root, each under its own published name. That location does not
depend on the order in which the parameters are declared.
-/

namespace ApiDoc

namespace Route

open Publication

variable {lexicon : Lexicon} {names : Names} {container : Schema} {root : String}
  {params : Table String ParamSpec} {route : RouteDescriptor} {headers : List Parameter}
  {published : List Publication}

/-- A root has its place in a container that has a property of its name. -/
theorem hasPlace_iff_mem_keys :
    HasPlace container [⟨root, false⟩] ↔ root ∈ Table.keys container.properties := by
  rw [← Table.contains_iff_mem_keys, Table.contains, Option.isSome_iff_exists]
  simp [HasPlace]

/-- The only root that a publication brings into a container is its own. -/
theorem mem_keys_place {publication : Publication} :
    root ∈ Table.keys (publication.place container).properties ↔
      root ∈ Table.keys container.properties ∨ rootName publication.entry.1 = root := by
  constructor
  · intro here
    by_cases own : rootName publication.entry.1 = root
    · exact .inr own
    · obtain ⟨isArray, rest, segments⟩ := splitNested_cons publication.entry.1
      rw [← Table.contains_iff_mem_keys, Table.contains, Publication.place, segments,
        get?_insertNested_of_ne container own] at here
      exact .inl (Table.contains_iff_mem_keys.mp here)
  · rintro (before | rfl)
    · exact hasPlace_iff_mem_keys.mp
        ((hasPlace_iff_mem_keys.mpr before).insertNested (not_tears_root _ _ _) _ _)
    · exact hasPlace_iff_mem_keys.mp (hasPlace_insertNested container _ _ _).root

/-- The roots in a body are those of its publications. -/
theorem mem_keys_bodyOf : root ∈ Table.keys (bodyOf published).properties ↔
    ∃ publication ∈ inBody published, rootName publication.entry.1 = root := by
  have behind (placed : List Publication) (container : Schema) :
      root ∈ Table.keys (placed.foldl Publication.place container).properties ↔
        root ∈ Table.keys container.properties ∨
          ∃ publication ∈ placed, rootName publication.entry.1 = root := by
    induction placed generalizing container with
    | nil => simp
    | cons publication rest ih =>
      rw [List.foldl_cons, ih, mem_keys_place]
      simp [or_assoc]
  exact (behind (inBody published) .object).trans (or_iff_right List.not_mem_nil)

/-- Publications make a body of properties unless none of them is one of the body. -/
theorem bodyOf_isEmpty : (bodyOf published).properties.isEmpty = true ↔ inBody published = [] := by
  constructor
  · intro empty
    refine List.eq_nil_iff_forall_not_mem.mpr fun publication listed => ?_
    have filled := mem_keys_bodyOf.mpr ⟨publication, listed, rfl⟩
    rw [List.isEmpty_iff.mp empty] at filled
    cases filled
  · intro none
    unfold bodyOf
    rw [none]
    rfl

namespace Publication

def group (root : String) (published : List Publication) : List Publication :=
  published.filter fun publication => rootName publication.entry.1 = root

theorem mem_group {publication : Publication} :
    publication ∈ group root published ↔ publication ∈ published ∧ rootName publication.entry.1 = root := by
  simp [group]

end Publication

/-- A group of publications at one location: either all of it is placed in the body and none of it is a
parameter, or the body has nothing of it and all of it are parameters at the location. -/
inductive Together (names : Names) (published : List Publication) (root : String)
    (built : Option Schema × List Parameter) : Location → Prop
  | inside {body : Schema} : inBody (group root published) = group root published →
      outside names (group root published) = [] →
      built.1 = some body → root ∈ Table.keys body.properties →
      Together names published root built .body
  | apart {location : Location} : location ≠ .body → inBody (group root published) = [] →
      (∀ body, built.1 = some body → root ∉ Table.keys body.properties) →
      (∀ publication ∈ group root published, publication.location = location ∧
        (location, names.published publication.entry.1) ∈ built.2.map Parameter.slot) →
      Together names published root built location

/-- What is built of a route with nested names whose headers and publications are the given ones. -/
structure Grouped (lexicon : Lexicon) (names : Names) (route : RouteDescriptor) (headers : List Parameter)
    (published : List Publication) (built : Option Schema × List Parameter) : Prop where
  /-- Every header is there in its place, under its own name. -/
  fromHeaders : List.Forall₂ (fun entry parameter => ∃ schema, parameter = headerOf entry.1 entry.2 schema)
    route.headers headers
  /-- Every parameter that is shown is published once, at its location, and no other one is. -/
  fromParams : List.Forall₂ (PublishedIn lexicon names route.params) (shownParams route.params) published
  /-- There is a body if something is published in it, and it is made of that. -/
  body : ∀ body, built.1 = some body ↔ inBody published ≠ [] ∧ bodyOf published = body
  /-- Path variables that nobody declares come first, and what is kept of all others follows. -/
  parameters : ∃ kept, KeepsLast (headers ++ outside names published) kept ∧
    built.2 = ((names.pathVariables.map names.published).filter fun name =>
      (Location.path, name) ∉ (headers ++ outside names published).map Parameter.slot).map filledIn ++ kept
  /-- A publication outside the body is a parameter unless a later one has its slot. -/
  lastWins : ∀ before publication after, published = before ++ publication :: after →
    publication.location ≠ .body →
    (publication.parameter names).slot ∉ (outside names after).map Parameter.slot →
    publication.parameter names ∈ built.2
  /-- The group of a parameter of one segment that is not hidden is everything with its root that is not
  hidden, and stays together at the location that the root resolves to. -/
  together : ∀ root ∈ route.params, (splitNested root.1).length = 1 →
    root.2.documentation.hidden = false →
    (group (rootName root.1) published).map (·.entry) =
        (route.params.filter fun entry =>
          !entry.2.documentation.hidden && rootName entry.1 == rootName root.1) ∧
      ∀ schema, Yields lexicon root.2 schema →
        Together names published (rootName root.1) built (locate names (rootName root.1) root.2 schema)

theorem bucket_foldl_publish (published : List Publication) (draft : Draft) :
    (published.foldl (publish names) draft).bucket =
      Table.extend draft.bucket (bySlot (outside names published)) := by
  refine bucket_foldl_of_step (fun draft publication => ?_) published draft
  unfold publish placeNested
  split <;> rfl

/-- What headers and publications make of an empty draft. -/
def publishedDraft (names : Names) (headers : List Parameter) (published : List Publication) : Draft :=
  published.foldl (publish names) (headers.foldl Draft.put {})

theorem publishedDraft_bucket (names : Names) (headers : List Parameter) (published : List Publication) :
    (publishedDraft names headers published).bucket =
      Table.ofEntries (bySlot (headers ++ outside names published)) := by
  unfold publishedDraft bySlot
  rw [bucket_foldl_publish, bucket_foldl_put, List.map_append]
  exact (List.foldl_append ..).symm

/-- There is a body if something is published in it. -/
theorem finish_publishedDraft_eq_some_iff {body : Schema} :
    ((publishedDraft names headers published).finish names).1 = some body ↔
      inBody published ≠ [] ∧ bodyOf published = body := by
  have made : (publishedDraft names headers published).body = bodyOf published := by
    unfold publishedDraft
    rw [body_foldl_publish, body_foldl_put]
    rfl
  unfold Draft.finish
  rw [made, Option.ite_none_left_eq_some, bodyOf_isEmpty, Option.some.injEq]

theorem entries_of_publishedIn {entries : Table String ParamSpec}
    (each : List.Forall₂ (PublishedIn lexicon names params) entries published) :
    published.map (·.entry) = entries := by
  have same : List.Forall₂ Eq entries (published.map (·.entry)) :=
    List.forall₂_map_right_iff.mpr (each.imp fun _ _ here => here.entry_eq.symm)
  rw [List.forall₂_eq_eq_eq] at same
  exact same.symm

/-- The root of a parameter of one segment is not hidden, if the parameter is not. -/
theorem RootsDistinct.not_mem_hiddenRoots (distinct : RootsDistinct params) {entry : String × ParamSpec}
    (member : entry ∈ params) (single : (splitNested entry.1).length = 1)
    (shown : entry.2.documentation.hidden = false) : rootName entry.1 ∉ hiddenRoots params := by
  intro listed
  obtain ⟨other, member', single', hides, same⟩ := mem_hiddenRoots.mp listed
  rw [distinct.eq member' single' member single same, shown] at hides
  cases hides

/-- The group of a root that is shown is everything that is not hidden and has the root. -/
theorem entries_of_group
    (each : List.Forall₂ (PublishedIn lexicon names params) (shownParams params) published)
    (rootShown : root ∉ hiddenRoots params) : (group root published).map (·.entry) =
      params.filter fun entry => !entry.2.documentation.hidden && rootName entry.1 == root := by
  have chosen : (group root published).map (·.entry) =
      (published.map (·.entry)).filter fun entry => rootName entry.1 = root := by
    rw [List.filter_map]
    rfl
  rw [chosen, entries_of_publishedIn each, shownParams, List.filter_filter]
  refine List.filter_congr fun entry _ => Bool.eq_iff_iff.mpr ?_
  simp only [isShown, Bool.and_eq_true, decide_eq_true_iff, Bool.not_eq_true', Bool.or_eq_false_iff,
    List.contains_eq_mem, decide_eq_false_iff_not, beq_iff_eq]
  constructor
  · rintro ⟨own, shown, -⟩
    exact ⟨shown, own⟩
  · rintro ⟨shown, own⟩
    exact ⟨own, shown, own ▸ rootShown⟩

/-- A group is located where its root resolves to. -/
theorem location_of_group (distinct : RootsDistinct params)
    (each : List.Forall₂ (PublishedIn lexicon names params) (shownParams params) published)
    {entry : String × ParamSpec} (member : entry ∈ params) (single : (splitNested entry.1).length = 1)
    (shown : entry.2.documentation.hidden = false) {schema : Schema}
    (yields : Yields lexicon entry.2 schema) :
    ∀ publication ∈ group (rootName entry.1) published,
      publication.location = locate names (rootName entry.1) entry.2 schema := by
  intro publication listed
  obtain ⟨among, own⟩ := mem_group.mp listed
  obtain ⟨other, -, here⟩ := exists_of_mem_right each among
  rw [here.entry_eq] at own
  have stands : rootParam? params (rootName other.1) = some entry.2 :=
    (rootParam?_eq_some_iff distinct).mpr ⟨entry, member, single, shown, own.symm, rfl⟩
  rw [here.location_eq, ← locate_of_stands stands, own, yields.locate_eq]

section
variable {built : Option Schema × List Parameter} {location : Location}
  (bodies : ∀ body, built.1 = some body ↔ inBody published ≠ [] ∧ bodyOf published = body)
include bodies

/-- A group whose publications are all those of the body is in the body. -/
theorem together_inside (located : ∀ publication ∈ group root published, publication.location = .body)
    (present : ∃ publication, publication ∈ group root published) :
    Together names published root built .body := by
  have within : ∃ publication ∈ inBody published, rootName publication.entry.1 = root := by
    obtain ⟨publication, listed⟩ := present
    obtain ⟨among, own⟩ := mem_group.mp listed
    exact ⟨publication, List.mem_filter.mpr ⟨among, decide_eq_true (located _ listed)⟩, own⟩
  have filled : inBody published ≠ [] := List.ne_nil_of_mem within.choose_spec.1
  have whole : inBody (group root published) = group root published :=
    List.filter_eq_self.mpr fun other listed => decide_eq_true (located other listed)
  have none : outside names (group root published) = [] :=
    List.map_eq_nil_iff.mpr (List.filter_eq_nil_iff.mpr fun other listed => by simp [located other listed])
  exact .inside whole none ((bodies _).mpr ⟨filled, rfl⟩) (mem_keys_bodyOf.mpr within)

/-- A group whose publications are at one location outside the body is nowhere in the body. -/
theorem together_apart (located : ∀ publication ∈ group root published, publication.location = location)
    (apart : location ≠ .body)
    (slots : ∀ parameter ∈ outside names published, parameter.slot ∈ built.2.map Parameter.slot) :
    Together names published root built location := by
  have none : inBody (group root published) = [] :=
    List.filter_eq_nil_iff.mpr fun other listed => by simp [located other listed, apart]
  refine .apart apart none (fun body made filled => ?_) fun publication listed => ?_
  · rw [← ((bodies body).mp made).2, mem_keys_bodyOf] at filled
    obtain ⟨publication, among, own⟩ := filled
    obtain ⟨among, here⟩ := List.mem_filter.mp among
    exact apart ((located _ (mem_group.mpr ⟨among, own⟩)).symm.trans (of_decide_eq_true here))
  · obtain rfl := located publication listed
    have among : publication.parameter names ∈ outside names published :=
      List.mem_map_of_mem (List.mem_filter.mpr ⟨(mem_group.mp listed).1, decide_eq_true apart⟩)
    exact ⟨rfl, slots _ among⟩

end

/-- Headers and publications of a route make what is built of it. -/
theorem grouped_of_published (distinct : RootsDistinct route.params)
    (fromHeaders : List.Forall₂ (fun entry parameter => ∃ schema, parameter = headerOf entry.1 entry.2 schema)
      route.headers headers)
    (fromParams : List.Forall₂ (PublishedIn lexicon names route.params) (shownParams route.params)
      published) :
    Grouped lexicon names route headers published
      ((publishedDraft names headers published).finish names) := by
  obtain ⟨kept, keeps, parameters⟩ := finish_keepsLast (publishedDraft_bucket names headers published)
  constructor
  case fromHeaders => exact fromHeaders
  case fromParams => exact fromParams
  case body => exact fun body => finish_publishedDraft_eq_some_iff
  case parameters => exact ⟨kept, keeps, parameters⟩
  case lastWins =>
    rintro before publication after rfl apart last
    have split : headers ++ outside names (before ++ publication :: after) =
        (headers ++ outside names before) ++ publication.parameter names :: outside names after := by
      simp [outside, apart]
    rw [parameters]
    exact List.mem_append_right _ (keeps.mem_of_last split last)
  case together =>
    intro root member single shown
    have entries := entries_of_group fromParams (distinct.not_mem_hiddenRoots member single shown)
    refine ⟨entries, fun schema yields => ?_⟩
    have located := location_of_group distinct fromParams member single shown yields
    by_cases inside : locate names (rootName root.1) root.2 schema = .body
    · rw [inside] at located ⊢
      have own : root ∈ (group (rootName root.1) published).map (·.entry) := by
        rw [entries]
        exact List.mem_filter.mpr ⟨member, by simp [shown]⟩
      obtain ⟨publication, listed, -⟩ := List.mem_map.mp own
      exact together_inside (fun body => finish_publishedDraft_eq_some_iff) located ⟨publication, listed⟩
    · refine together_apart (fun body => finish_publishedDraft_eq_some_iff) located inside ?_
      -- What is kept in the slot of a publication may come from another group.
      intro parameter among
      obtain ⟨other, listed, same, -⟩ := keeps.exists_last (List.mem_append_right headers among)
      rw [parameters, List.map_append, ← same]
      exact List.mem_append_right _ (List.mem_map_of_mem listed)

/-- A route with nested names is built of its headers and of what it publishes. -/
theorem buildParams_published (lexicon : Lexicon) (aliases : Table String String) (route : RouteDescriptor)
    (nested : route.params.keys.any isNested = true) (distinct : RootsDistinct route.params) :
    Always (fun built => ∃ headers published,
        Grouped lexicon ⟨pathVariables route.path, aliases⟩ route headers published built)
      (buildParams lexicon aliases route) := by
  have headers := addHeaders_eq lexicon route.headers {}
  have resolved : Always (List.Forall₂ (fun entry parameter => ∃ schema,
      parameter = headerOf entry.1 entry.2 schema) route.headers) (resolveHeaders lexicon route.headers) :=
    .forall₂_mapM (fun entry => .after fun schema => .pure ⟨schema, rfl⟩) route.headers
  unfold buildParams
  simp only [nested, if_true]
  rw [headers, bind_assoc]
  refine resolved.bind fun headers fromHeaders => ?_
  rw [pure_bind]
  refine (addAllNested_published distinct _).bind fun draft here => .pure ?_
  obtain ⟨published, fromParams, rfl⟩ := here
  exact ⟨headers, published, grouped_of_published distinct fromHeaders fromParams⟩

/-- In a route with nested names, in which no two parameters of one segment share a root, a parameter of
one segment that is not hidden stays together with all that is nested in it and not hidden either,
whatever types, resolvers and entities there are and in whatever order the parameters are declared. If
the root resolves to the body, all of them are placed in it and none is a parameter. If not, the body has
nothing of them, and each is a parameter at the location that the root resolves to, under its own
published name, unless a later one takes its place there. Declaring the parameters in another order
changes the location of none. -/
theorem buildParams_groups (lexicon : Lexicon) (aliases : Table String String) {route : RouteDescriptor}
    (nested : route.params.keys.any isNested = true) (distinct : RootsDistinct route.params)
    {params : Table String ParamSpec} (reordered : route.params.Perm params) (progress : Progress) :
    let names : Names := ⟨pathVariables route.path, aliases⟩
    ∃ headers published,
      Grouped lexicon names { route with params } headers published
        ((buildParams lexicon aliases { route with params }).run progress).1 ∧
      ∀ publication ∈ published,
        publication.location = locationOf lexicon names route.params publication.entry := by
  intro names
  have nested' : params.keys.any isNested = true := by
    rw [← nested]
    exact ((reordered.map Prod.fst).any_eq).symm
  have distinct' : RootsDistinct params := distinct.perm reordered
  obtain ⟨headers, published, grouped⟩ :=
    buildParams_published lexicon aliases { route with params } nested' distinct' progress
  refine ⟨headers, published, grouped, fun publication listed => ?_⟩
  obtain ⟨entry, -, here⟩ := exists_of_mem_right grouped.fromParams listed
  rw [here.location_eq, here.entry_eq]
  exact (locationOf_perm distinct reordered entry).symm

/-- A cart whose parameters are declared before what they are nested in. -/
def checkoutRoute : RouteDescriptor where
  path := "/carts/:cart"
  method := .post
  params :=
    [("cart[note]", bodyParam), ("order[lines][][sku]", {}), ("page[size]", bodyParam),
      ("order[total]", { type := some (.named "Integer") }), ("order", { type := some (.named "File") }),
      ("page", { documentation := { location := some "nowhere" } }), ("page[size][max]", {}), ("cart", {}),
      ("coupon[code]", { documentation := { location := some "header" } })]

/-- In the opposite order too, the order makes the body, the page is asked for in the query, and the note
travels in the path with its cart. -/
theorem buildParams_groups_checkout :
    let aliases : Table String String := [("page[size][max]", "page[size]")]
    let route : RouteDescriptor := { checkoutRoute with params := checkoutRoute.params.reverse }
    let built := ((buildParams {} aliases route).run {}).1
    checkoutRoute.params.keys.any isNested = true ∧ RootsDistinct checkoutRoute.params ∧
      checkoutRoute.params.Perm route.params ∧
      built.1.map (fun body => Table.keys body.properties) = some ["order"] ∧
      built.2.map Parameter.slot =
        [(.header, "coupon[code]"), (.path, "cart"), (.query, "page[size]"), (.query, "page"),
          (.path, "cart[note]")] ∧
      ∃ headers published, Grouped {} ⟨["cart"], aliases⟩ route headers published built := by
  have nested : checkoutRoute.params.keys.any isNested = true := by decide
  have distinct : RootsDistinct checkoutRoute.params := by decide
  have reordered : checkoutRoute.params.Perm checkoutRoute.params.reverse := (List.reverse_perm _).symm
  obtain ⟨headers, published, grouped, -⟩ :=
    buildParams_groups {} [("page[size][max]", "page[size]")] nested distinct reordered {}
  exact ⟨nested, distinct, reordered, rfl, rfl, headers, published, grouped⟩

end Route

end ApiDoc
