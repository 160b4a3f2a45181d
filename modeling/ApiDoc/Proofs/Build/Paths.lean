import ApiDoc.Proofs.Build.Ids
import ApiDoc.Proofs.Export.Counterparts
import ApiDoc.Proofs.Export.Reordering

/-! # The paths of an interface

Any number of routes may be declared at one place, that is a path and a method, and they may spell the
path in different ways. The paths of an interface are those of its visible routes in the order of their
first routes, and at each place stands the operation of the last route that is declared there: every
route keeps it so (`Placed.skip`, `Placed.put`). An export writes one item for each path and one
operation for each method of it (`buildApi_paths`).
-/

namespace ApiDoc

open Schema

variable {catalog : Catalog} {config : Config} {lexicon : Lexicon} {routes before : List RouteDescriptor}
  {route other : RouteDescriptor} {place : String × Method} {draft : ApiDraft}

/-- The last visible route at a place, with the routes that come before it. -/
structure LastAt (config : Config) (routes : List RouteDescriptor) (place : String × Method)
    (before : List RouteDescriptor) (route : RouteDescriptor) : Prop where
  visible : route.hidden = false
  here : route.place config = place
  split : ∃ after, routes = before ++ route :: after ∧
    ∀ other ∈ after, other.hidden = false → other.place config ≠ place

theorem visibleRoutes_append (routes : List RouteDescriptor) (route : RouteDescriptor) :
    visibleRoutes (routes ++ [route]) =
      if route.hidden then visibleRoutes routes else visibleRoutes routes ++ [route] := by
  unfold visibleRoutes
  rw [List.filter_append]
  cases hidden : route.hidden <;> simp [hidden]

theorem LastAt.mem_visibleRoutes (last : LastAt config routes place before route) :
    route ∈ visibleRoutes routes := by
  obtain ⟨after, rfl, -⟩ := last.split
  exact ApiDoc.mem_visibleRoutes.mpr ⟨by simp, last.visible⟩

/-- A visible route that comes last is the last one at its place. -/
theorem lastAt_self (visible : route.hidden = false) :
    LastAt config (routes ++ [route]) (route.place config) routes route :=
  ⟨visible, rfl, [], rfl, fun other member => by cases member⟩

/-- A route stays the last one at its place behind routes that are hidden or stand elsewhere. -/
theorem LastAt.append (last : LastAt config routes place before route)
    (elsewhere : other.hidden = false → other.place config ≠ place) :
    LastAt config (routes ++ [other]) place before route := by
  obtain ⟨after, rfl, others⟩ := last.split
  refine ⟨last.visible, last.here, after ++ [other], by simp, fun one member => ?_⟩
  rcases List.mem_append.mp member with early | late
  · exact others one early
  · exact List.mem_singleton.mp late ▸ elsewhere

def operationBehind (config : Config) (lexicon : Lexicon) (before : List RouteDescriptor)
    (route : RouteDescriptor) : Operation :=
  ((route.buildOperation config lexicon).run (progressOf config lexicon before)).1

theorem operationBehind_frame (config : Config) (lexicon : Lexicon) (before : List RouteDescriptor)
    (route : RouteDescriptor) : (operationBehind config lexicon before route).method = route.method ∧
      (operationBehind config lexicon before route).operationId = route.operationId :=
  RouteDescriptor.buildOperation_frame config lexicon _

/-- A hidden route adds nothing to a draft. -/
theorem draftOf_append_of_hidden (hidden : route.hidden = true) :
    draftOf config lexicon (routes ++ [route]) = draftOf config lexicon routes := by
  rw [draftOf_append]
  unfold ApiDraft.addRoute
  rw [if_pos hidden]
  rfl

/-- The operation of any other route is put at its place. -/
theorem draftOf_append_of_visible (visible : route.hidden = false) :
    draftOf config lexicon (routes ++ [route]) =
      (draftOf config lexicon routes).put (route.template config)
        (operationBehind config lexicon routes route) := by
  rw [draftOf_append]
  unfold ApiDraft.addRoute
  rw [if_neg (by simp [visible])]
  rfl

/-- The draft has the paths of the visible routes in the order of their first routes, and at each place
the operation of the last route there, under some id. -/
structure Placed (config : Config) (lexicon : Lexicon) (routes : List RouteDescriptor)
    (draft : ApiDraft) : Prop where
  templates : Table.keys draft.api.byPath =
    ((visibleRoutes routes).map fun route => route.template config).eraseDups
  paths : (Table.keys draft.api.byPath).Nodup
  methods : ∀ template, (Table.keys (draft.api.at template)).Nodup
  last : ∀ template method operation, Table.get? (draft.api.at template) method = some operation →
    ∃ before route, LastAt config routes (template, method) before route ∧
      ∃ id, operation = { operationBehind config lexicon before route with operationId := some id }
  present : ∀ route ∈ visibleRoutes routes,
    route.method ∈ Table.keys (draft.api.at (route.template config))

theorem placed_empty (config : Config) (lexicon : Lexicon) :
    Placed config lexicon [] { api := emptyApi config } where
  templates := rfl
  paths := List.nodup_nil
  methods _ := List.nodup_nil
  last template method operation found := by cases found
  present route member := by cases member

/-- A hidden route leaves a draft as it is. -/
theorem Placed.skip (placed : Placed config lexicon routes draft) (hidden : route.hidden = true) :
    Placed config lexicon (routes ++ [route]) draft := by
  have same : visibleRoutes (routes ++ [route]) = visibleRoutes routes := by
    rw [visibleRoutes_append, if_pos hidden]
  refine ⟨by rw [same]; exact placed.templates, placed.paths, placed.methods, ?_,
    by rw [same]; exact placed.present⟩
  intro template method operation found
  obtain ⟨before, last, here, made⟩ := placed.last template method operation found
  exact ⟨before, last, here.append fun shown => by simp [hidden] at shown, made⟩

/-- The operation of one more visible route is put at its place. -/
theorem Placed.put (placed : Placed config lexicon routes draft) (visible : route.hidden = false)
    {operation : Operation} (made : operation = operationBehind config lexicon routes route) :
    Placed config lexicon (routes ++ [route]) (draft.put (route.template config) operation) := by
  have shown : visibleRoutes (routes ++ [route]) = visibleRoutes routes ++ [route] := by
    rw [visibleRoutes_append, if_neg (by simp [visible])]
  have method : operation.method = route.method := made ▸ (operationBehind_frame config lexicon routes route).1
  obtain ⟨id, put⟩ : ∃ id, (draft.put (route.template config) operation).api =
      draft.api.putOperation (route.template config) { operation with operationId := some id } := ⟨_, rfl⟩
  constructor
  case templates =>
    rw [put, Api.byPath_putOperation, shown, List.map_append]
    exact Table.keys_insert_eraseDups placed.templates _ _
  case paths =>
    rw [put, Api.byPath_putOperation]
    exact Table.nodup_keys_insert placed.paths _ _
  case methods =>
    intro template
    rw [put, Api.at_putOperation]
    split
    · exact Table.nodup_keys_insert (placed.methods _) _ _
    · exact placed.methods template
  case last =>
    intro template other found? found
    have place : (route.template config, operation.method) = route.place config := by rw [method]; rfl
    rw [put, Api.get?_putOperation] at found
    dsimp only at found
    rw [place] at found
    split at found
    · next here =>
      cases found
      exact ⟨routes, route, here ▸ lastAt_self visible, id, made ▸ rfl⟩
    · next apart =>
      obtain ⟨early, last, stands, other⟩ := placed.last template other found? found
      exact ⟨early, last, stands.append fun _ => apart, other⟩
  case present =>
    intro one member
    rw [shown] at member
    rw [put, Api.at_putOperation]
    rcases List.mem_append.mp member with early | late
    · have known := placed.present one early
      split
      · next same =>
        rw [← same] at known
        exact Table.mem_keys_insert.mpr (.inr known)
      · exact known
    · obtain rfl := List.mem_singleton.mp late
      rw [if_pos rfl]
      exact Table.mem_keys_insert.mpr (.inl method.symm)

theorem draftOf_placed (config : Config) (lexicon : Lexicon) (routes : List RouteDescriptor) :
    Placed config lexicon routes (draftOf config lexicon routes) := by
  induction routes using List.reverseRecOn with
  | nil => exact placed_empty config lexicon
  | append_singleton before route ih =>
    cases hidden : route.hidden with
    | true =>
      rw [draftOf_append_of_hidden hidden]
      exact ih.skip hidden
    | false =>
      rw [draftOf_append_of_visible hidden]
      exact ih.put hidden rfl

/-- A build that constructs the operation of a route stays coherent. -/
theorem RouteDescriptor.build_coherent {progress : Progress} (coherent : progress.Coherent catalog)
    (config : Config) (route : RouteDescriptor) :
    ((route.buildOperation config { catalog }).run progress).2.Coherent catalog := by
  have resolves : Lockstep.Resolves catalog (fun _ => Itself (Schema.All fun _ => True))
      fun _ progress progress' => progress = progress' ∧ progress.Coherent catalog := by
    rintro token _ progress _ ⟨rfl, here⟩
    obtain ⟨history, answer, next, ran, derived⟩ := resolve_derived here token
    refine ⟨answer, next, answer, next, ran, ran, ⟨rfl, fun _ _ => trivial⟩, rfl, ?_⟩
    exact coherent_of_run derived.run here
  have steps := buildOperation_lockstep catalog (trivial_objectLaw.siteLaw route) config
  obtain ⟨operation, next, _, _, ran, -, -, -, behind⟩ :=
    @Lockstep.run _ _ _ _ _ _ _ _ _ resolves steps [] progress progress ⟨rfl, coherent⟩
  rw [ran]
  exact behind

theorem progressOf_coherent (config : Config) (catalog : Catalog) (routes : List RouteDescriptor) :
    (progressOf config { catalog } routes).Coherent catalog := by
  have each : ∀ route ∈ visibleRoutes routes, ∀ (_ : List TypeToken) (progress : Progress),
      progress.Coherent catalog → ∃ operation next,
        (route.buildOperation config { catalog }).run progress = (operation, next) ∧ True ∧
          next.Coherent catalog :=
    fun route _ _ progress here => ⟨_, _, rfl, trivial, route.build_coherent here config⟩
  obtain ⟨built, next, ran, -, -, coherent⟩ := @addRoutes_run catalog config
    (fun _ progress => progress.Coherent catalog) (fun _ _ => True) routes each
    { api := emptyApi config } {} Progress.coherent_empty
  have last : progressOf config { catalog } routes = next := congrArg Prod.snd ran
  exact last ▸ coherent

/-- What an item of an interface collects: one operation for each method that a visible route declares on
its path, the one that is built of the last such route. Apart from its id it is what any build constructs
of that route, up to stubs that stand for definitions. -/
structure PathItem.Collects (config : Config) (catalog : Catalog) (routes : List RouteDescriptor)
    (item : PathItem) : Prop where
  methods : (Table.keys item.operations).Nodup
  method_iff : ∀ method, method ∈ Table.keys item.operations ↔
    ∃ route ∈ visibleRoutes routes, route.place config = (item.template, method)
  last : ∀ method operation, (method, operation) ∈ item.operations →
    ∃ before route, LastAt config routes (item.template, method) before route ∧
      (∃ id, operation =
        { operationBehind config { catalog } before route with operationId := some id }) ∧
      (route.Unmixed catalog → ∀ progress, progress.Coherent catalog →
        Operation.Related Alike Alike ((route.buildOperation config { catalog }).run progress).1
          { operation with operationId := route.operationId })

/-- An id that is given to the operation of a route hides nothing else of it. -/
theorem operationBehind_alike (unmixed : route.Unmixed catalog) (config : Config)
    (before : List RouteDescriptor) (id : String) {progress : Progress}
    (coherent : progress.Coherent catalog) :
    Operation.Related Alike Alike ((route.buildOperation config { catalog }).run progress).1
      { ({ operationBehind config { catalog } before route with operationId := some id } : Operation) with
        operationId := route.operationId } := by
  have own : (operationBehind config { catalog } before route).operationId = route.operationId :=
    (operationBehind_frame config { catalog } before route).2
  have same : { ({ operationBehind config { catalog } before route with operationId := some id } :
      Operation) with operationId := route.operationId } =
        operationBehind config { catalog } before route := by
    rw [← own]
  rw [same]
  exact route.build_alike_of_coherent unmixed coherent (progressOf_coherent config catalog before)

/-- The operations of a listed path are those that stand on it. -/
theorem Placed.at_eq (placed : Placed config lexicon routes draft) {item : PathItem}
    (listed : item ∈ draft.api.paths) : draft.api.at item.template = item.operations := by
  have entry : (item.template, item.operations) ∈ draft.api.byPath := List.mem_map_of_mem listed
  unfold Api.at
  rw [Table.get?_of_mem placed.paths entry, Option.getD_some]

theorem Placed.get?_of_mem (placed : Placed config lexicon routes draft) {item : PathItem}
    (listed : item ∈ draft.api.paths) {method : Method} {operation : Operation}
    (held : (method, operation) ∈ item.operations) :
    Table.get? (draft.api.at item.template) method = some operation := by
  have distinct := placed.methods item.template
  rw [placed.at_eq listed] at distinct ⊢
  exact Table.get?_of_mem distinct held

/-- Every visible route has an item with its template. -/
theorem Placed.exists_item (placed : Placed config lexicon routes draft)
    (visible : route ∈ visibleRoutes routes) :
    ∃ item ∈ draft.api.paths, item.template = route.template config := by
  have known : route.template config ∈ Table.keys draft.api.byPath := by
    rw [placed.templates]
    exact List.mem_eraseDups.mpr (List.mem_map_of_mem visible)
  obtain ⟨entry, stands, here⟩ := List.mem_map.mp known
  obtain ⟨item, listed, rfl⟩ := List.mem_map.mp stands
  exact ⟨item, listed, here⟩

theorem Placed.collects (placed : Placed config { catalog } routes draft) {item : PathItem}
    (listed : item ∈ draft.api.paths) : item.Collects config catalog routes := by
  constructor
  case methods =>
    rw [← placed.at_eq listed]
    exact placed.methods item.template
  case method_iff =>
    intro method
    constructor
    · intro member
      obtain ⟨⟨_, operation⟩, held, rfl⟩ := List.mem_map.mp member
      obtain ⟨before, route, last, -⟩ := placed.last _ _ _ (placed.get?_of_mem listed held)
      exact ⟨route, last.mem_visibleRoutes, last.here⟩
    · rintro ⟨route, visible, here⟩
      obtain ⟨sameTemplate, rfl⟩ := Prod.mk.inj here
      have present := placed.present route visible
      rwa [sameTemplate, placed.at_eq listed] at present
  case last =>
    intro method operation held
    obtain ⟨before, route, last, id, rfl⟩ := placed.last _ _ _ (placed.get?_of_mem listed held)
    exact ⟨before, route, last, ⟨id, rfl⟩, fun unmixed progress coherent =>
      operationBehind_alike unmixed config before id coherent⟩

/-- The text of an item of an interface: its operations under the keys of their methods. -/
def Export.itemText (dialect : Dialect) (item : PathItem) : Json :=
  .object (item.operations.map fun entry => (entry.1.key, Export.operationText dialect entry.2))

theorem Api.keys_byPath (api : Api) : Table.keys api.byPath = api.paths.map PathItem.template :=
  List.map_map

/-- No path stands twice. -/
theorem Placed.nodup_templates (placed : Placed config lexicon routes draft) :
    (draft.api.paths.map PathItem.template).Nodup :=
  draft.api.keys_byPath ▸ placed.paths

/-- What is made of the paths stands under different templates. -/
theorem Placed.nodup_keys_items {β : Type} (placed : Placed config lexicon routes draft)
    (text : PathItem → β) :
    (Table.keys (draft.api.paths.map fun item => (item.template, text item))).Nodup := by
  rw [Table.keys_map]
  exact placed.nodup_templates

/-- A document of a built interface has an item for each of its paths. -/
theorem Export.field?_paths_items {dialect : Dialect} {text : Json}
    (exported : document dialect (buildApi config { catalog } routes) = .ok text) :
    text.field? "paths" = some (.object ((buildApi config { catalog } routes).paths.map fun item =>
      (item.template, itemText dialect item))) := by
  have placed := draftOf_placed config { catalog } routes
  obtain ⟨visits, last, -, -, rfl⟩ := document_text exported
  rw [field?_paths, pathTexts_eq_ofEntries, Table.ofEntries_of_nodup]
  · rw [Table.mapValues_map]
    refine congrArg (fun fields => some (Json.object fields)) (List.map_congr_left fun item listed => ?_)
    exact Prod.ext rfl (congrArg Json.object (operationTexts_nil (placed.collects listed).methods))
  · rw [Table.keys_mapValues]
    exact placed.nodup_keys_items id

/-- No path of a built interface stands twice, and the paths are those of the visible routes in the order
of their first routes. Each collects the operations of the last routes at its places. A document of the
interface, which there is unless definitions collide, has an item for each path and an operation for each
of its methods. -/
theorem buildApi_paths (config : Config) (catalog : Catalog) (routes : List RouteDescriptor) :
    ((buildApi config { catalog } routes).paths.map PathItem.template).Nodup ∧
      (buildApi config { catalog } routes).paths.map PathItem.template =
        ((visibleRoutes routes).map fun route => route.template config).eraseDups ∧
      (∀ item ∈ (buildApi config { catalog } routes).paths, item.Collects config catalog routes) ∧
      ∀ dialect, ((buildApi config { catalog } routes).Separate →
          ∃ text, Export.document dialect (buildApi config { catalog } routes) = .ok text) ∧
        ∀ text, Export.document dialect (buildApi config { catalog } routes) = .ok text →
          text.field? "paths" = some (.object ((buildApi config { catalog } routes).paths.map fun item =>
            (item.template, Export.itemText dialect item))) := by
  have placed := draftOf_placed config { catalog } routes
  refine ⟨placed.nodup_templates, (Api.keys_byPath _).symm.trans placed.templates,
    fun item listed => placed.collects listed, fun dialect => ⟨fun separate => ?_, fun text exported => ?_⟩⟩
  · exact (Export.document_of_known (buildApi_known config catalog routes) dialect).mpr separate
  · exact Export.field?_paths_items exported

end ApiDoc
