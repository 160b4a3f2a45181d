import ApiDoc.Proofs.Build.Operations
import ApiDoc.Proofs.Build.Placing
import ApiDoc.Proofs.Export.Sites

/-! # What routes build

The interface that routes build is the work of one sequence of calls, which resolves the tokens of
the visible routes in turn: its definitions are those of that sequence, and each of its operations
was built from a visible route (`buildApi_definitions`, `buildApi_operations`). So a law of schemas
that holds of the answers of the sequence holds wherever the interface uses schemas
(`buildApi_sites`).
-/

namespace ApiDoc

variable {catalog : Catalog} {config : Config} {routes : List RouteDescriptor}

def visibleRoutes (routes : List RouteDescriptor) : List RouteDescriptor :=
  routes.filter fun route => !route.hidden

theorem mem_visibleRoutes {route : RouteDescriptor} :
    route ∈ visibleRoutes routes ↔ route ∈ routes ∧ route.hidden = false := by
  simp [visibleRoutes]

/-- The tokens that routes use, in the order in which they are resolved. -/
def routeTokens (routes : List RouteDescriptor) : List TypeToken :=
  (visibleRoutes routes).flatMap RouteDescriptor.tokens

def routeCalls (routes : List RouteDescriptor) : List Call := (routeTokens routes).map .resolve

/-- A draft with operations that were built from routes. -/
def ApiDraft.putAll (config : Config) (draft : ApiDraft) (built : List (RouteDescriptor × Operation)) :
    ApiDraft :=
  built.foldl (fun draft entry => draft.put (entry.1.template config) entry.2) draft

/-- Routes are built in turn if each one keeps an invariant, which speaks of the tokens that are still
to be resolved. -/
theorem addRoutes_run {invariant : List TypeToken → Progress → Prop}
    {holds : RouteDescriptor → Operation → Prop} (routes : List RouteDescriptor)
    (each : ∀ route ∈ visibleRoutes routes, ∀ rest progress, invariant (route.tokens ++ rest) progress →
      ∃ operation next, (route.buildOperation config { catalog }).run progress = (operation, next) ∧
        holds route operation ∧ invariant rest next)
    (draft : ApiDraft) {progress : Progress} (here : invariant (routeTokens routes) progress) :
    ∃ built next, (routes.foldlM (ApiDraft.addRoute config { catalog }) draft).run progress =
        (draft.putAll config built, next) ∧
      built.map Prod.fst = visibleRoutes routes ∧ (∀ entry ∈ built, holds entry.1 entry.2) ∧
        invariant [] next := by
  induction routes generalizing draft progress with
  | nil => exact ⟨[], progress, rfl, rfl, fun entry member => (by cases member), here⟩
  | cons route rest ih =>
    rw [List.foldlM_cons]
    by_cases hidden : route.hidden = true
    · have skipped : visibleRoutes (route :: rest) = visibleRoutes rest := by
        simp [visibleRoutes, hidden]
      have same : (draft.addRoute config { catalog } route).run progress = (draft, progress) := by
        unfold ApiDraft.addRoute
        rw [if_pos hidden, pure_run]
      unfold routeTokens at here
      rw [skipped] at each here ⊢
      rw [run_bind_of_run same]
      exact ih each draft here
    · have shown : visibleRoutes (route :: rest) = route :: visibleRoutes rest := by
        simp [visibleRoutes, hidden]
      unfold routeTokens at here
      rw [shown] at each here ⊢
      rw [List.flatMap_cons] at here
      obtain ⟨operation, middle, ran, first, between⟩ := each route List.mem_cons_self _ progress here
      have put : (draft.addRoute config { catalog } route).run progress =
          (draft.put (route.template config) operation, middle) := by
        unfold ApiDraft.addRoute
        rw [if_neg hidden, run_bind_of_run ran, pure_run]
      obtain ⟨built, next, ranRest, routesOf, others, behind⟩ :=
        ih (fun other member => each other (List.mem_cons_of_mem _ member))
          (draft.put (route.template config) operation) between
      refine ⟨(route, operation) :: built, next, ?_, by rw [List.map_cons, routesOf], ?_, behind⟩
      · rw [run_bind_of_run put, ranRest]
        rfl
      · intro entry member
        rcases List.mem_cons.mp member with rfl | member
        · exact first
        · exact others entry member

theorem Api.mem_of_mem_modifyPathIn {template : String} {change : PathItem → PathItem}
    {items : List PathItem} {item : PathItem} (member : item ∈ modifyPathIn template change items) :
    item ∈ items ∨ ∃ old, (old ∈ items ∨ old = { template }) ∧ item = change old := by
  induction items with
  | nil =>
    obtain rfl := List.mem_singleton.mp member
    exact .inr ⟨_, .inr rfl, rfl⟩
  | cons head rest ih =>
    rw [modifyPathIn] at member
    split at member
    · rcases List.mem_cons.mp member with rfl | member
      · exact .inr ⟨head, .inl List.mem_cons_self, rfl⟩
      · exact .inl (List.mem_cons_of_mem _ member)
    · rcases List.mem_cons.mp member with rfl | member
      · exact .inl List.mem_cons_self
      · rcases ih member with old | ⟨old, from_, same⟩
        · exact .inl (List.mem_cons_of_mem _ old)
        · exact .inr ⟨old, from_.imp_left (List.mem_cons_of_mem _), same⟩

theorem Api.mem_operations {api : Api} {operation : Operation} :
    operation ∈ api.operations ↔
      ∃ item ∈ api.paths, ∃ method, (method, operation) ∈ item.operations := by
  simp [Api.operations, Table.values]

/-- Putting an operation on a path brings in no other. -/
theorem Api.mem_of_mem_putOperation {api : Api} {template : String} {operation other : Operation}
    (member : other ∈ (api.putOperation template operation).operations) :
    other = operation ∨ other ∈ api.operations := by
  obtain ⟨item, listed, method, inside⟩ := mem_operations.mp member
  rcases mem_of_mem_modifyPathIn listed with old | ⟨old, source, rfl⟩
  · exact .inr (mem_operations.mpr ⟨item, old, method, inside⟩)
  · rcases Table.mem_of_mem_insert inside with same | present
    · cases same
      exact .inl rfl
    · rcases source with old' | rfl
      · exact .inr (mem_operations.mpr ⟨old, old', method, present⟩)
      · cases present

/-- The operations of a draft are those that were put into it, under ids of their own. -/
theorem ApiDraft.mem_of_mem_putAll {draft : ApiDraft} {built : List (RouteDescriptor × Operation)}
    {operation : Operation} (member : operation ∈ (draft.putAll config built).api.operations) :
    (∃ entry ∈ built, ∃ id, operation = { entry.2 with operationId := id }) ∨
      operation ∈ draft.api.operations := by
  induction built generalizing draft with
  | nil => exact .inr member
  | cons entry rest ih =>
    rcases ih member with ⟨other, later, id, rfl⟩ | early
    · exact .inl ⟨other, List.mem_cons_of_mem _ later, id, rfl⟩
    · rcases Api.mem_of_mem_putOperation early with rfl | old
      · exact .inl ⟨entry, List.mem_cons_self, _, rfl⟩
      · exact .inr old

theorem Api.mem_sites {api : Api} {site : Schema} :
    site ∈ api.sites ↔ ∃ operation ∈ api.operations, site ∈ operation.sites := by
  simp only [Api.sites, PathItem.sites, Api.operations, List.mem_flatMap]
  constructor
  · rintro ⟨item, listed, operation, inside, within⟩
    exact ⟨operation, ⟨item, listed, inside⟩, within⟩
  · rintro ⟨operation, ⟨item, listed, inside⟩, within⟩
    exact ⟨item, listed, operation, inside, within⟩

/-- The build is on its way to `final`: what is left answers tokens with what it should. -/
structure OnTheWay (catalog : Catalog) (answered : TypeToken → Schema → Prop) (final : Progress)
    (rest : List TypeToken) (progress : Progress) : Prop where
  coherent : progress.Coherent catalog
  ends : ∃ answers, ((rest.map Call.resolve).mapM (Call.build catalog)).run progress = (answers, final) ∧
    List.Forall₂ answered rest answers

theorem OnTheWay.resolve {answered : TypeToken → Schema → Prop} {final progress : Progress}
    {token : TypeToken} {rest : List TypeToken}
    (here : OnTheWay catalog answered final (token :: rest) progress) :
    ∃ answer next, (Lexicon.resolve { catalog } token).run progress = (answer, next) ∧
      answered token answer ∧ OnTheWay catalog answered final rest next := by
  obtain ⟨coherent, answers, ran, right⟩ := here
  obtain ⟨history, answer, next, resolved, derived⟩ := resolve_derived coherent token
  have behind := coherent_of_run derived.run coherent
  obtain ⟨later, others, last, ranRest, -⟩ := session_derived (rest.map .resolve) behind
  have first : (Call.build catalog (.resolve token)).run progress = (answer, next) := resolved
  rw [List.map_cons, List.mapM_cons, run_bind_of_run first, run_bind_of_run ranRest, pure_run] at ran
  cases ran
  cases right with
  | cons atHead inRest => exact ⟨answer, next, resolved, atHead, behind, others, ranRest, inRest⟩

/-- A build that is on its way, in lockstep with itself. -/
theorem resolves_onTheWay (catalog : Catalog) (answered : TypeToken → Schema → Prop) (final : Progress) :
    Lockstep.Resolves catalog (fun token => Itself (answered token))
      fun rest progress progress' =>
        progress = progress' ∧ OnTheWay catalog answered final rest progress := by
  rintro token rest progress _ ⟨rfl, here⟩
  obtain ⟨answer, next, ran, right, behind⟩ := here.resolve
  exact ⟨answer, next, answer, next, ran, ran, ⟨rfl, right⟩, rfl, behind⟩

theorem onTheWay_session {answered : TypeToken → Schema → Prop} (tokens : List TypeToken)
    (right : List.Forall₂ answered tokens (session catalog (tokens.map .resolve)).1) :
    OnTheWay catalog answered (session catalog (tokens.map .resolve)).2 tokens {} :=
  ⟨Progress.coherent_empty, _, rfl, right⟩

section
variable {answered : TypeToken → Schema → Prop}
  {leaf : Option TypeToken → Schema → Schema → Prop}
  {inside : RouteDescriptor → Table String ParamSpec → Schema → Schema → Prop}
  {body : RouteDescriptor → Schema → Schema → Prop}

/-- If the answers of the calls that routes make are as they should be, the definitions of the
interface are those of the calls, and each operation was built from a visible route, by its law. -/
theorem buildApi_operations (config : Config)
    (laws : ∀ route ∈ visibleRoutes routes,
      SiteLaw route (fun token => Itself (answered token)) leaf (inside route) (body route))
    (right : List.Forall₂ answered (routeTokens routes) (session catalog (routeCalls routes)).1) :
    (buildApi config { catalog } routes).definitions =
        (session catalog (routeCalls routes)).2.definitions ∧
      ∀ operation ∈ (buildApi config { catalog } routes).operations,
        ∃ route ∈ visibleRoutes routes, ∃ built built',
          Operation.Related (Site leaf) (body route) built built' ∧
            ∃ id, operation = { built with operationId := id } := by
  have resolves := resolves_onTheWay catalog answered (session catalog (routeCalls routes)).2
  have each : ∀ route ∈ visibleRoutes routes, ∀ rest progress,
      OnTheWay catalog answered (session catalog (routeCalls routes)).2 (route.tokens ++ rest) progress →
        ∃ operation next, (route.buildOperation config { catalog }).run progress = (operation, next) ∧
          (∃ other, Operation.Related (Site leaf) (body route) operation other) ∧
            OnTheWay catalog answered (session catalog (routeCalls routes)).2 rest next := by
    intro route visible rest progress here
    have steps := RouteDescriptor.buildOperation_lockstep catalog (laws route visible) config
    obtain ⟨operation, next, other, next', ran, -, related, rfl, behind⟩ := steps.run resolves ⟨rfl, here⟩
    exact ⟨operation, next, ran, ⟨other, related⟩, behind⟩
  obtain ⟨built, next, ran, routesOf, related, behind⟩ :=
    addRoutes_run routes each { api := emptyApi config } (onTheWay_session (routeTokens routes) right)
  obtain ⟨-, answers, ended, -⟩ := behind
  have last : next = (session catalog (routeCalls routes)).2 := congrArg Prod.snd ended
  unfold buildApi
  rw [ran]
  refine ⟨by rw [last], fun operation member => ?_⟩
  rcases ApiDraft.mem_of_mem_putAll member with ⟨entry, listed, id, rfl⟩ | initial
  · obtain ⟨other, related⟩ := related entry listed
    have visible : entry.1 ∈ visibleRoutes routes := routesOf ▸ List.mem_map_of_mem listed
    exact ⟨entry.1, visible, entry.2, other, related, id, rfl⟩
  · cases initial

end

section
variable {site body : Schema → Schema → Prop} {schema : Schema}

theorem Response.Related.of_mem_sites {response response' : Response}
    (related : response.Related site response') (member : schema ∈ response.sites) :
    ∃ other, site schema other := by
  rcases List.mem_append.mp member with answer | header
  · obtain ⟨other, -, here⟩ := exists_of_eq_some related.schema (Option.mem_toList.mp answer)
    exact ⟨other, here⟩
  · obtain ⟨one, listed, rfl⟩ := List.mem_map.mp header
    obtain ⟨other, -, here⟩ := exists_of_mem_left related.headers.values listed
    exact ⟨_, here.2⟩

def Operation.outerSites (operation : Operation) : List Schema :=
  operation.parameters.map Parameter.schema ++
    (Table.values operation.responses).flatMap Response.sites

def Operation.bodySites (operation : Operation) : List Schema :=
  operation.requestBody.elim [] fun body => body.content.map MediaType.schema

theorem Operation.mem_sites {operation : Operation} :
    schema ∈ operation.sites ↔ schema ∈ operation.outerSites ∨ schema ∈ operation.bodySites := by
  simp only [Operation.sites, outerSites, bodySites, List.mem_append]
  constructor
  · rintro (parameter | inBody | answered)
    · exact .inl (.inl parameter)
    · exact .inr inBody
    · exact .inl (.inr answered)
  · rintro ((parameter | answered) | inBody)
    · exact .inl parameter
    · exact .inr (.inr answered)
    · exact .inr (.inl inBody)

theorem Operation.Related.of_mem_outerSites {operation operation' : Operation}
    (related : operation.Related site body operation') (member : schema ∈ operation.outerSites) :
    ∃ other, site schema other := by
  rcases List.mem_append.mp member with parameter | answered
  · obtain ⟨one, listed, rfl⟩ := List.mem_map.mp parameter
    obtain ⟨other, -, here⟩ := exists_of_mem_left related.parameters listed
    exact ⟨_, here.2⟩
  · obtain ⟨response, listed, inside⟩ := List.mem_flatMap.mp answered
    obtain ⟨other, -, here⟩ := exists_of_mem_left related.responses.values listed
    exact here.of_mem_sites inside

theorem Operation.Related.of_mem_bodySites {operation operation' : Operation}
    (related : operation.Related site body operation') (member : schema ∈ operation.bodySites) :
    ∃ other, body schema other := by
  unfold bodySites at member
  cases present : operation.requestBody with
  | none =>
    rw [present] at member
    cases member
  | some request =>
    rw [present] at member
    obtain ⟨request', -, here⟩ := exists_of_eq_some related.requestBody present
    obtain ⟨media, listed, rfl⟩ := List.mem_map.mp member
    obtain ⟨other, -, there⟩ := exists_of_mem_left here.content listed
    exact ⟨_, there.2⟩

end

/-- The answers of calls that resolve tokens belong to the tokens. -/
theorem Session.forall₂_tokens {good : Schema → Prop} {tokens : List TypeToken} {progress next : Progress}
    {history : List VisitEvent} {answers : List Schema}
    (derived : Session catalog (tokens.map .resolve) progress history answers next)
    (coherent : progress.Coherent catalog) (right : ∀ answer ∈ answers, good answer) :
    List.Forall₂ (fun _ => good) tokens answers := by
  have matched : List.Forall₂ (fun _ _ => True) (tokens.map Call.resolve) answers :=
    derived.forall₂ coherent fun _ _ _ _ _ _ _ _ => trivial
  rw [List.forall₂_map_left_iff] at matched
  refine List.forall₂_iff_zip.mpr ⟨matched.length_eq, fun {token answer} member => ?_⟩
  exact right answer (List.of_mem_zip member).2

theorem forall₂_of_session {good : Schema → Prop} {tokens : List TypeToken}
    (right : ∀ answer ∈ (session catalog (tokens.map .resolve)).1, good answer) :
    List.Forall₂ (fun _ => good) tokens (session catalog (tokens.map .resolve)).1 := by
  obtain ⟨history, derived⟩ := session_history catalog (tokens.map .resolve)
  exact derived.forall₂_tokens Progress.coherent_empty right

/-- A property that objects keep whatever they are given holds of all nodes that an interface uses
if it holds of the answers of the calls that the routes make. -/
theorem buildApi_sites {holds : Schema → Prop} (law : ObjectLaw holds) (config : Config)
    (right : ∀ answer ∈ (session catalog (routeCalls routes)).1, answer.All holds) :
    ∀ site ∈ (buildApi config { catalog } routes).sites, site.All holds := by
  obtain ⟨-, operations⟩ := buildApi_operations config (fun route _ => law.siteLaw route)
    (forall₂_of_session right)
  intro site member
  obtain ⟨operation, listed, within⟩ := Api.mem_sites.mp member
  obtain ⟨route, -, built, other, related, id, rfl⟩ := operations operation listed
  rcases Operation.mem_sites.mp within with outer | inBody
  · obtain ⟨_, _, _, here⟩ := related.of_mem_outerSites outer
    exact here
  · obtain ⟨_, _, _, here⟩ := related.of_mem_bodySites inBody
    exact here

/-- The definitions of an interface are those of the calls that its routes make. -/
theorem buildApi_definitions (config : Config) (catalog : Catalog) (routes : List RouteDescriptor) :
    (buildApi config { catalog } routes).definitions =
      (session catalog (routeCalls routes)).2.definitions :=
  (buildApi_operations config (fun route _ => trivial_objectLaw.siteLaw route)
    (forall₂_of_session fun _ _ _ _ => trivial)).1

end ApiDoc
