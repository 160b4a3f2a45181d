import ApiDoc.Proofs.Build.Places
import ApiDoc.Proofs.Build.Reachable

/-! # Interfaces of reordered routes

Routes that are built in another order meet another build: where one order answers with the whole
schema of an entity, another one answers with a stub. The interfaces still differ in nothing but the
order of their paths, methods, tags and definitions, and in schemas that no use tells apart
(`buildApi_reordered`).
-/

namespace ApiDoc

open Schema

variable {catalog : Catalog} {config : Config} {routes routes' : List RouteDescriptor}

/-- Where the operation of a route will stand. -/
def RouteDescriptor.place (config : Config) (route : RouteDescriptor) : String × Method :=
  (route.template config, route.method)

/-- The visible routes have places of their own, and ids of their own that they declare. -/
structure Distinguished (config : Config) (routes : List RouteDescriptor) : Prop where
  places : ((visibleRoutes routes).map (RouteDescriptor.place config)).Nodup
  named : ∀ route ∈ visibleRoutes routes, ∃ id, route.operationId = some id
  ids : ((visibleRoutes routes).map RouteDescriptor.operationId).Nodup

theorem visibleRoutes_perm (permuted : routes.Perm routes') :
    (visibleRoutes routes).Perm (visibleRoutes routes') := permuted.filter _

theorem forall_visible_of_perm {holds : RouteDescriptor → Prop} (permuted : routes.Perm routes')
    (each : ∀ route ∈ visibleRoutes routes, holds route) : ∀ route ∈ visibleRoutes routes', holds route :=
  fun route visible => each route ((visibleRoutes_perm permuted).mem_iff.mpr visible)

theorem Distinguished.of_perm (distinguished : Distinguished config routes)
    (permuted : routes.Perm routes') : Distinguished config routes' := by
  have visible := visibleRoutes_perm permuted
  refine ⟨?_, forall_visible_of_perm permuted distinguished.named, ?_⟩
  · exact (visible.map _).nodup_iff.mp distinguished.places
  · exact (visible.map _).nodup_iff.mp distinguished.ids

/-- Visible routes with one place are one route. -/
theorem Distinguished.eq_of_place (distinguished : Distinguished config routes)
    {route other : RouteDescriptor} (here : route ∈ visibleRoutes routes)
    (there : other ∈ visibleRoutes routes) (same : route.place config = other.place config) :
    route = other :=
  List.inj_on_of_nodup_map distinguished.places here there same

/-- How an interface was built from routes: a steady build made an operation of each visible one, and
put it where it belongs. -/
structure Gathered (catalog : Catalog) (config : Config) (routes : List RouteDescriptor)
    (built : List (RouteDescriptor × Operation)) (draft : ApiDraft) (progress : Progress) : Prop where
  sources : built.map Prod.fst = visibleRoutes routes
  made : ∀ entry ∈ built, entry.1.Built catalog config entry.2
  gathers : Gathers config built draft
  steady : Steady catalog progress
  eq : buildApi config { catalog } routes = { draft.api with
    tags := draft.tags.map describedTag
    definitions := progress.definitions }

section
variable {route : RouteDescriptor} {operation : Operation}

theorem RouteDescriptor.Built.frame (made : route.Built catalog config operation) :
    operation.method = route.method ∧ operation.operationId = route.operationId := by
  obtain ⟨progress, next, -, ran⟩ := made
  have frame := @buildOperation_frame route config { catalog } progress
  rw [ran] at frame
  exact frame

/-- An operation stands where that of its route will stand. -/
theorem RouteDescriptor.Built.place_eq (made : route.Built catalog config operation) :
    ApiDoc.place config (route, operation) = route.place config := Prod.ext rfl made.frame.1

end

/-- Whatever the order of the routes, their interface is gathered from a steady build. -/
theorem buildApi_gathered (forward : catalog.MergesForward)
    (unmixed : ∀ route ∈ visibleRoutes routes, route.Unmixed catalog)
    (distinguished : Distinguished config routes) :
    ∃ built draft progress, Gathered catalog config routes built draft progress := by
  have each : ∀ route ∈ visibleRoutes routes, ∀ (_ : List TypeToken) progress, Steady catalog progress →
      ∃ operation next, (route.buildOperation config { catalog }).run progress = (operation, next) ∧
        route.Built catalog config operation ∧ Steady catalog next :=
    fun route visible _ _ steady => RouteDescriptor.built_of_steady forward (unmixed route visible) steady
  obtain ⟨built, next, ran, sources, made, steady⟩ :=
    @addRoutes_run _ _ (fun _ => Steady catalog) _ routes each { api := emptyApi config } _ steady_empty
  have places : built.map (place config) = (visibleRoutes routes).map (RouteDescriptor.place config) := by
    rw [← sources, List.map_map]
    exact List.map_congr_left fun entry member => (made entry member).place_eq
  have ids : (built.map fun entry => entry.2.operationId) =
      (visibleRoutes routes).map RouteDescriptor.operationId := by
    rw [← sources, List.map_map]
    exact List.map_congr_left fun entry member => (made entry member).frame.2
  have named : ∀ entry ∈ built, ∃ id, entry.2.operationId = some id := by
    intro entry member
    rw [(made entry member).frame.2]
    exact distinguished.named entry.1 (sources ▸ List.mem_map_of_mem member)
  have gathers : Gathers config built (({ api := emptyApi config } : ApiDraft).putAll config built) :=
    (gathers_empty config).putAll named (places ▸ distinguished.places) (ids ▸ distinguished.ids)
  refine ⟨built, _, next, sources, made, gathers, steady, ?_⟩
  unfold buildApi
  rw [ran]

variable {built built' : List (RouteDescriptor × Operation)} {draft draft' : ApiDraft}
  {progress progress' : Progress}

/-- What stands under a place was made of the visible route that has this place. -/
theorem Gathered.operation_iff (gathered : Gathered catalog config routes built draft progress)
    (template : String) (method : Method) (operation : Operation) :
    Table.get? (draft.api.at template) method = some operation ↔
      ∃ route, (route, operation) ∈ built ∧ route.place config = (template, method) := by
  rw [gathered.gathers.operation_iff]
  constructor
  · rintro ⟨entry, member, here, rfl⟩
    exact ⟨entry.1, member, (gathered.made entry member).place_eq.symm.trans here⟩
  · rintro ⟨route, member, here⟩
    exact ⟨(route, operation), member, (gathered.made (route, operation) member).place_eq.trans here, rfl⟩

/-- The methods on a path are those of the visible routes that have this path. -/
theorem Gathered.method_iff (gathered : Gathered catalog config routes built draft progress)
    (template : String) (method : Method) : method ∈ Table.keys (draft.api.at template) ↔
      ∃ route ∈ visibleRoutes routes, route.place config = (template, method) := by
  rw [← Table.contains_iff_mem_keys, Table.contains, Option.isSome_iff_exists, ← gathered.sources]
  simp only [gathered.operation_iff, List.mem_map, Prod.exists, exists_and_right, exists_eq_right]
  constructor
  · rintro ⟨operation, route, member, here⟩
    exact ⟨route, ⟨operation, member⟩, here⟩
  · rintro ⟨route, ⟨operation, member⟩, here⟩
    exact ⟨operation, route, member, here⟩

/-- The paths are those of the visible routes. -/
theorem Gathered.path_iff (gathered : Gathered catalog config routes built draft progress)
    (template : String) : template ∈ Table.keys draft.api.byPath ↔
      ∃ route ∈ visibleRoutes routes, route.template config = template := by
  constructor
  · intro listed
    obtain ⟨⟨method, operation⟩, rest, filled⟩ :=
      List.exists_cons_of_ne_nil (gathered.gathers.filled template listed)
    have onPath : method ∈ Table.keys (draft.api.at template) := by
      rw [filled]
      exact List.mem_cons_self
    obtain ⟨route, visible, here⟩ := (gathered.method_iff template method).mp onPath
    unfold RouteDescriptor.place at here
    exact ⟨route, visible, (Prod.mk.inj here).1⟩
  · rintro ⟨route, visible, rfl⟩
    have onPath := (gathered.method_iff (route.template config) route.method).mpr ⟨route, visible, rfl⟩
    by_contra absent
    unfold Api.at at onPath
    rw [Table.get?_eq_none_iff.mpr absent] at onPath
    cases onPath

/-- The interfaces differ in nothing but the order of their paths, methods, tags and definitions, and
in schemas that no use tells apart. -/
structure Api.Reordered (first second : Api) : Prop where
  tags : first.tags.Perm second.tags
  paths : Table.Reordered (Table.Reordered (Operation.Related Alike Alike)) first.byPath second.byPath
  definitions : Table.Reordered AlikeParts first.definitions second.definitions
  frame : second = { first with
    tags := second.tags
    paths := second.paths
    definitions := second.definitions }

/-- No path of the interface, no method on a path and no definition stands twice. -/
structure Api.Distinct (api : Api) : Prop where
  paths : (Table.keys api.byPath).Nodup
  methods : ∀ entry ∈ api.byPath, (Table.keys entry.2).Nodup
  definitions : (Table.keys api.definitions).Nodup

/-- The operations of a listed path are those that stand on it. -/
theorem Gathered.at_eq (gathered : Gathered catalog config routes built draft progress)
    {template : String} {operations : Table Method Operation}
    (listed : (template, operations) ∈ draft.api.byPath) : draft.api.at template = operations := by
  unfold Api.at
  rw [Table.get?_of_mem gathered.gathers.paths listed, Option.getD_some]

theorem Gathered.distinct (gathered : Gathered catalog config routes built draft progress) :
    (buildApi config { catalog } routes).Distinct := by
  rw [gathered.eq]
  refine ⟨gathered.gathers.paths, ?_, gathered.steady.distinct⟩
  rintro ⟨template, operations⟩ listed
  have distinct := gathered.gathers.methods template
  rwa [gathered.at_eq listed] at distinct

section
variable (forward : catalog.MergesForward)
  (unmixed : ∀ route ∈ visibleRoutes routes, route.Unmixed catalog)
  (distinguished : Distinguished config routes) (permuted : routes.Perm routes')
  (here : Gathered catalog config routes built draft progress)
  (there : Gathered catalog config routes' built' draft' progress')
include forward unmixed

/-- Operations of one visible route look the same. -/
theorem related_of_made {route : RouteDescriptor} (visible : route ∈ visibleRoutes routes)
    {operation operation' : Operation} (made : route.Built catalog config operation)
    (made' : route.Built catalog config operation') :
    Operation.Related Alike Alike operation operation' :=
  (made.related forward (unmixed route visible) made').alike

include permuted here there

/-- The other interface has the tags of a visible route, too. -/
theorem Gathered.mem_tags {tag : String} (tagged : tag ∈ draft.tags) : tag ∈ draft'.tags := by
  obtain ⟨entry, member, carries⟩ := (here.gathers.tags_iff tag).mp tagged
  have visible : entry.1 ∈ visibleRoutes routes := here.sources ▸ List.mem_map_of_mem member
  have visible' : entry.1 ∈ built'.map Prod.fst :=
    there.sources ▸ (visibleRoutes_perm permuted).mem_iff.mp visible
  obtain ⟨entry', member', same⟩ := List.mem_map.mp visible'
  have made' : entry.1.Built catalog config entry'.2 := same ▸ there.made entry' member'
  have related := related_of_made forward unmixed visible (here.made entry member) made'
  have sameTags : entry'.2.tags = entry.2.tags := by rw [related.frame]
  exact (there.gathers.tags_iff tag).mpr ⟨entry', member', sameTags ▸ carries⟩

/-- Both interfaces have the same tags. -/
theorem Gathered.tags_perm : draft.tags.Perm draft'.tags := by
  have unmixed' : ∀ route ∈ visibleRoutes routes', route.Unmixed catalog :=
    forall_visible_of_perm permuted unmixed
  refine (List.perm_ext_iff_of_nodup here.gathers.tagsDistinct there.gathers.tagsDistinct).mpr fun tag => ?_
  exact ⟨here.mem_tags forward unmixed permuted there, there.mem_tags forward unmixed' permuted.symm here⟩

omit forward unmixed in
/-- Both interfaces define the entities that are reached from visible routes. -/
theorem Gathered.definitions_reordered :
    Table.Reordered AlikeParts progress.definitions progress'.definitions := by
  refine Table.reordered_of_lookups here.steady.distinct there.steady.distinct (fun name => ?_)
    fun name first second => here.steady.alikeParts there.steady
  have left := mem_keys_definitions_iff config catalog routes name
  have right := mem_keys_definitions_iff config catalog routes' name
  rw [here.eq] at left
  rw [there.eq] at right
  refine left.trans (Iff.trans ?_ right.symm)
  unfold ReachedFrom
  exact exists_congr fun route => and_congr_left' permuted.mem_iff

include distinguished

/-- On each path both interfaces have operations for the same methods that look the same. -/
theorem Gathered.operations_reordered (template : String) :
    Table.Reordered (Operation.Related Alike Alike) (draft.api.at template) (draft'.api.at template) := by
  have visible := visibleRoutes_perm permuted
  have distinct := here.gathers.methods template
  have distinct' := there.gathers.methods template
  refine Table.reordered_of_lookups distinct distinct' (fun method => ?_) ?_
  · rw [here.method_iff, there.method_iff]
    exact exists_congr fun route => and_congr_left' visible.mem_iff
  · intro method first second inFirst inSecond
    obtain ⟨route, member, place⟩ :=
      (here.operation_iff template method first).mp (Table.get?_of_mem distinct inFirst)
    obtain ⟨route', member', place'⟩ :=
      (there.operation_iff template method second).mp (Table.get?_of_mem distinct' inSecond)
    have shown : route ∈ visibleRoutes routes := here.sources ▸ List.mem_map_of_mem member
    have shown' : route' ∈ visibleRoutes routes' := there.sources ▸ List.mem_map_of_mem member'
    -- A place belongs to one route, so both operations are made of the same one.
    obtain rfl := distinguished.eq_of_place shown (visible.mem_iff.mpr shown') (place.trans place'.symm)
    have made := here.made (route, first) member
    have made' := there.made (route, second) member'
    exact related_of_made forward unmixed shown made made'

theorem Gathered.paths_reordered :
    Table.Reordered (Table.Reordered (Operation.Related Alike Alike)) draft.api.byPath
      draft'.api.byPath := by
  refine Table.reordered_of_lookups here.gathers.paths there.gathers.paths (fun template => ?_) ?_
  · rw [here.path_iff, there.path_iff]
    exact exists_congr fun route => and_congr_left' (visibleRoutes_perm permuted).mem_iff
  · intro template first second inFirst inSecond
    rw [← here.at_eq inFirst, ← there.at_eq inSecond]
    exact here.operations_reordered forward unmixed distinguished permuted there template

end

/-- Routes in another order make an interface that differs in nothing but orders, and in schemas that
no use tells apart. -/
theorem buildApi_reordered (forward : catalog.MergesForward)
    (unmixed : ∀ route ∈ visibleRoutes routes, route.Unmixed catalog)
    (distinguished : Distinguished config routes) (permuted : routes.Perm routes') :
    (buildApi config { catalog } routes).Reordered (buildApi config { catalog } routes') ∧
      (buildApi config { catalog } routes).Distinct ∧ (buildApi config { catalog } routes').Distinct := by
  have unmixed' : ∀ route ∈ visibleRoutes routes', route.Unmixed catalog :=
    forall_visible_of_perm permuted unmixed
  obtain ⟨built, draft, progress, here⟩ := buildApi_gathered forward unmixed distinguished
  obtain ⟨built', draft', progress', there⟩ :=
    buildApi_gathered forward unmixed' (distinguished.of_perm permuted)
  refine ⟨?_, here.distinct, there.distinct⟩
  rw [here.eq, there.eq]
  constructor
  · exact (here.tags_perm forward unmixed permuted there).map _
  · exact here.paths_reordered forward unmixed distinguished permuted there
  · exact here.definitions_reordered permuted there
  · dsimp only
    rw [here.gathers.frame, there.gathers.frame]

end ApiDoc
