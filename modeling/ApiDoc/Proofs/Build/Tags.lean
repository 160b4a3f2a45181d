import ApiDoc.Proofs.Build.Paths

/-! # The tags of an interface

Every visible route brings in its tags, in the order of the routes (`buildApi_tags`). A route that takes
the place of another one takes over nothing of it, but the tags of the other one stay. So an interface
lists all tags of its operations, and no other tags exactly if no replaced route has left one behind.
-/

namespace ApiDoc

variable {config : Config} {lexicon : Lexicon} {routes : List RouteDescriptor} {route : RouteDescriptor}
  {place : String × Method}

def RouteDescriptor.shownTags (config : Config) (route : RouteDescriptor) : List String :=
  orElse route.tags (defaultTag? (route.template config)).toList

def Api.tagNames (api : Api) : List String := api.tags.map Tag.name

/-- Names that are added to different names, in the order of their first mention. -/
theorem NameSet.addAll_eraseDups (names more : List String) :
    NameSet.addAll names.eraseDups more = (names ++ more).eraseDups := by
  induction more generalizing names with
  | nil => rw [List.append_nil]; rfl
  | cons name rest ih =>
    have added : NameSet.add names.eraseDups name = (names ++ [name]).eraseDups := by
      unfold NameSet.add
      by_cases known : name ∈ names
      · rw [if_pos (List.mem_eraseDups.mpr known), Table.eraseDups_concat_of_mem known]
      · rw [if_neg (mt List.mem_eraseDups.mp known), Table.eraseDups_concat_of_not_mem known]
    calc
      NameSet.addAll names.eraseDups (name :: rest) =
          NameSet.addAll (NameSet.add names.eraseDups name) rest := rfl
      _ = (names ++ [name] ++ rest).eraseDups := by rw [added, ih]
      _ = (names ++ name :: rest).eraseDups := by rw [List.append_assoc, List.singleton_append]

/-- The operation of a route carries the tags of the route. -/
theorem RouteDescriptor.buildOperation_tags (config : Config) (lexicon : Lexicon) (route : RouteDescriptor)
    (progress : Progress) :
    ((route.buildOperation config lexicon).run progress).1.tags = route.shownTags config := by
  unfold buildOperation
  exact Operation.insertResponses_keeps (·.tags) (fun _ _ => rfl) _ _

/-- One route is the last one at a place. -/
theorem LastAt.unique {before before' : List RouteDescriptor} {route' : RouteDescriptor}
    (last : LastAt config routes place before route) (last' : LastAt config routes place before' route') :
    route = route' := by
  obtain ⟨after, split, others⟩ := last.split
  obtain ⟨after', split', others'⟩ := last'.split
  rcases List.append_eq_append_iff.mp (split.symm.trans split') with ⟨between, -, same⟩ | ⟨between, -, same⟩
  · cases between with
    | nil => exact (List.cons.inj same).1
    | cons first between =>
      have later : route' ∈ after := by simp [(List.cons.inj same).2]
      exact absurd last'.here (others route' later last'.visible)
  · cases between with
    | nil => exact (List.cons.inj same).1.symm
    | cons first between =>
      have later : route ∈ after' := by simp [(List.cons.inj same).2]
      exact absurd last.here (others' route later last.visible)

/-- Where no two visible routes have one place, each is the last one at its place. -/
theorem exists_lastAt (distinct : ((visibleRoutes routes).map (RouteDescriptor.place config)).Nodup)
    (visible : route ∈ visibleRoutes routes) :
    ∃ before, LastAt config routes (route.place config) before route := by
  obtain ⟨listed, shown⟩ := mem_visibleRoutes.mp visible
  obtain ⟨before, after, rfl⟩ := List.append_of_mem listed
  refine ⟨before, shown, rfl, after, rfl, fun other member visible same => ?_⟩
  have split : visibleRoutes (before ++ route :: after) =
      visibleRoutes before ++ route :: visibleRoutes after := by
    simp [visibleRoutes, shown]
  rw [split, List.map_append, List.map_cons] at distinct
  have later : other ∈ visibleRoutes after := mem_visibleRoutes.mpr ⟨member, visible⟩
  have apart := (List.nodup_cons.mp (List.nodup_append.mp distinct).2.1).1
  exact apart (List.mem_map.mpr ⟨other, later, same⟩)

/-- The tags of a draft are those of its visible routes, in the order of their first mention. -/
theorem draftOf_tags (config : Config) (lexicon : Lexicon) (routes : List RouteDescriptor) :
    (draftOf config lexicon routes).tags =
      ((visibleRoutes routes).flatMap (RouteDescriptor.shownTags config)).eraseDups := by
  induction routes using List.reverseRecOn with
  | nil => rfl
  | append_singleton before route ih =>
    rw [visibleRoutes_append]
    cases hidden : route.hidden with
    | true => rw [draftOf_append_of_hidden hidden, if_pos rfl, ih]
    | false =>
      have added : ((draftOf config lexicon before).put (route.template config)
          (operationBehind config lexicon before route)).tags =
            NameSet.addAll (draftOf config lexicon before).tags
              (operationBehind config lexicon before route).tags := rfl
      have tags : (operationBehind config lexicon before route).tags = route.shownTags config :=
        route.buildOperation_tags config lexicon _
      rw [draftOf_append_of_visible hidden, if_neg Bool.false_ne_true, added, ih, NameSet.addAll_eraseDups,
        tags, List.flatMap_append, List.flatMap_singleton]

/-- What the operations of a draft carry are the tags of the routes that are the last ones at their
places. -/
theorem exists_tagged_iff (config : Config) (lexicon : Lexicon) (routes : List RouteDescriptor)
    (name : String) :
    (∃ operation ∈ (draftOf config lexicon routes).api.operations, name ∈ operation.tags) ↔
      ∃ before route, LastAt config routes (route.place config) before route ∧
        name ∈ route.shownTags config := by
  have placed := draftOf_placed config lexicon routes
  constructor
  · rintro ⟨operation, member, tagged⟩
    obtain ⟨item, listed, method, held⟩ := Api.mem_operations.mp member
    obtain ⟨before, route, last, id, rfl⟩ := placed.last _ _ _ (placed.get?_of_mem listed held)
    refine ⟨before, route, last.here ▸ last, ?_⟩
    exact route.buildOperation_tags config lexicon _ ▸ tagged
  · rintro ⟨before, route, last, tagged⟩
    obtain ⟨operation, found⟩ : ∃ operation,
        Table.get? ((draftOf config lexicon routes).api.at (route.template config)) route.method =
          some operation :=
      Option.isSome_iff_exists.mp
        (Table.contains_iff_mem_keys.mpr (placed.present route last.mem_visibleRoutes))
    obtain ⟨before', route', last', id, made⟩ := placed.last _ _ _ found
    obtain rfl := last.unique last'
    obtain ⟨item, listed, here⟩ := placed.exists_item last.mem_visibleRoutes
    rw [← here, placed.at_eq listed] at found
    refine ⟨operation, Api.mem_operations.mpr ⟨item, listed, _, Table.mem_of_get? found⟩, ?_⟩
    rw [made]
    exact (route.buildOperation_tags config lexicon _).symm ▸ tagged

/-- An interface lists each tag once, and the tags are those of the visible routes in the order of their
first mention. All tags of operations are among them. There are no other ones exactly if every tag of a
visible route is a tag of the last route at some place, as it is if no two visible routes have one
place. -/
theorem buildApi_tags (config : Config) (lexicon : Lexicon) (routes : List RouteDescriptor) :
    (buildApi config lexicon routes).tagNames.Nodup ∧
      (buildApi config lexicon routes).tagNames =
        ((visibleRoutes routes).flatMap (RouteDescriptor.shownTags config)).eraseDups ∧
      (∀ operation ∈ (buildApi config lexicon routes).operations, ∀ name ∈ operation.tags,
        name ∈ (buildApi config lexicon routes).tagNames) ∧
      ((∀ name ∈ (buildApi config lexicon routes).tagNames,
          ∃ operation ∈ (buildApi config lexicon routes).operations, name ∈ operation.tags) ↔
        ∀ route ∈ visibleRoutes routes, ∀ name ∈ route.shownTags config,
          ∃ before last, LastAt config routes (last.place config) before last ∧
            name ∈ last.shownTags config) ∧
      (((visibleRoutes routes).map (RouteDescriptor.place config)).Nodup →
        ∀ name, name ∈ (buildApi config lexicon routes).tagNames ↔
          ∃ operation ∈ (buildApi config lexicon routes).operations, name ∈ operation.tags) := by
  have names : (buildApi config lexicon routes).tagNames = (draftOf config lexicon routes).tags := by
    have described : Tag.name ∘ describedTag = id := rfl
    refine List.map_map.trans ?_
    rw [described, List.map_id]
    rfl
  have mem_names (name : String) : name ∈ (buildApi config lexicon routes).tagNames ↔
      ∃ route ∈ visibleRoutes routes, name ∈ route.shownTags config := by
    rw [names, draftOf_tags, List.mem_eraseDups, List.mem_flatMap]
  have tagged_iff (name : String) :
      (∃ operation ∈ (buildApi config lexicon routes).operations, name ∈ operation.tags) ↔
        ∃ before route, LastAt config routes (route.place config) before route ∧
          name ∈ route.shownTags config := exists_tagged_iff config lexicon routes name
  have listed (operation : Operation) (member : operation ∈ (buildApi config lexicon routes).operations)
      (name : String) (tagged : name ∈ operation.tags) :
      name ∈ (buildApi config lexicon routes).tagNames := by
    obtain ⟨before, route, last, shown⟩ := (tagged_iff name).mp ⟨operation, member, tagged⟩
    exact (mem_names name).mpr ⟨route, last.mem_visibleRoutes, shown⟩
  refine ⟨?_, ?_, listed, ?_, ?_⟩
  · rw [names, draftOf_tags]
    exact Table.nodup_eraseDups _
  · rw [names, draftOf_tags]
  · simp only [mem_names, tagged_iff]
    constructor
    · exact fun each route visible name shown => each name ⟨route, visible, shown⟩
    · rintro each name ⟨route, visible, shown⟩
      exact each route visible name shown
  · intro distinct name
    rw [mem_names, tagged_iff]
    constructor
    · rintro ⟨route, visible, shown⟩
      obtain ⟨before, last⟩ := exists_lastAt distinct visible
      exact ⟨before, route, last, shown⟩
    · rintro ⟨before, route, last, shown⟩
      exact ⟨route, last.mem_visibleRoutes, shown⟩

/-- A route that was declared under one tag, and then at the same place under another one. -/
def retaggedRoutes : List RouteDescriptor :=
  [{ path := "/items", method := .get, tags := ["stock"] },
    { path := "/items", method := .get, tags := ["catalog"] }]

/-- A route that takes the place of another one leaves the tag of that one to the interface, though no
operation carries it. -/
theorem replaced_route_leaves_tag :
    (buildApi {} { catalog := [] } retaggedRoutes).tagNames = ["stock", "catalog"] ∧
      (buildApi {} { catalog := [] } retaggedRoutes).operations.map Operation.tags = [["catalog"]] ∧
      ¬∀ name, name ∈ (buildApi {} { catalog := [] } retaggedRoutes).tagNames ↔
        ∃ operation ∈ (buildApi {} { catalog := [] } retaggedRoutes).operations, name ∈ operation.tags := by
  have names : (buildApi {} { catalog := [] } retaggedRoutes).tagNames = ["stock", "catalog"] := by decide
  have carried :
      (buildApi {} { catalog := [] } retaggedRoutes).operations.map Operation.tags = [["catalog"]] := by
    decide
  refine ⟨names, carried, fun always => ?_⟩
  obtain ⟨operation, member, tagged⟩ := (always "stock").mp (names ▸ List.mem_cons_self)
  have only : operation.tags ∈ [["catalog"]] := carried ▸ List.mem_map_of_mem member
  rw [List.mem_singleton.mp only] at tagged
  exact absurd tagged (by decide)

end ApiDoc
