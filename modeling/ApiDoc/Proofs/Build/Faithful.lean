import ApiDoc.Proofs.Build.Clear
import ApiDoc.Proofs.Build.Interface
import ApiDoc.Proofs.Build.Placing
import ApiDoc.Proofs.Type.Faithful

/-! # Named nodes of a built interface

Wherever an interface uses a schema with a canonical name that is no stub, the definition of that
name says the same of its value, so that a reference can stand for it. The exception are request
bodies with a parameter that is nested in one whose type mentions an entity: its property is added
to the copy of the entity and not to the definition, and a reference loses it (`body_unfaithful`). Bodies of
routes without such parameters are faithful, and all else is faithful in any case
(`buildApi_faithful`).
-/

namespace ApiDoc

open Schema

variable {catalog : Catalog} {definitions : Table String Schema} {route : RouteDescriptor}
  {routes : List RouteDescriptor}

/-- In a route with nested names, no visible parameter is nested in one whose type mentions an
entity. -/
def RouteDescriptor.KeepsEntities (catalog : Catalog) (route : RouteDescriptor) : Prop :=
  route.params.keys.any Route.isNested = true →
    ∀ outer ∈ route.visibleParams, MentionsEntity catalog outer.2.type →
      ∀ inner ∈ route.visibleParams, Route.segmentNames outer.1 <+: Route.segmentNames inner.1 →
        Route.segmentNames inner.1 = Route.segmentNames outer.1

/-- A node is faithful, and has a name only if the declared type mentions an entity. -/
def FaithfulNode (catalog : Catalog) (definitions : Table String Schema)
    (declared : Option TypeToken) (node : Schema) : Prop :=
  node.FaithfulTo definitions ∧ ∀ name, node.canonicalName = some name → MentionsEntity catalog declared

theorem faithfulNode_law (catalog : Catalog) (definitions : Table String Schema)
    (declared : Option TypeToken) : NodeLaw (FaithfulNode catalog definitions declared) :=
  (faithful_law definitions).and (names_law fun _ => MentionsEntity catalog declared)

namespace Route

variable {container : Schema}

/-- A node without a name stays faithful whatever it is given. -/
theorem receives_of_unnamed (unnamed : container.canonicalName = none) :
    Receives (FaithfulTo definitions) container :=
  fun _ _ _ _ => faithful_of_unnamed unnamed

theorem faithful_withItems (faithful : container.FaithfulTo definitions) (items : Schema) :
    ({ container with items := some items } : Schema).FaithfulTo definitions := faithful

/-- Where no holder of a nested parameter has a name, all nodes on the way are faithful whatever they
are given. -/
theorem open_of_clearTo (segments : List NameSegment) (all : container.All (FaithfulTo definitions))
    (clear : ClearTo container (segments.map (·.name)).dropLast) :
    Open (FaithfulTo definitions) container segments := by
  induction segments generalizing container with
  | nil => trivial
  | cons segment rest ih =>
    refine ⟨receives_of_unnamed clear.unnamed, fun property found => ?_⟩
    have inProperty : property.All (FaithfulTo definitions) :=
      all.properties _ (Table.mem_of_get? found)
    cases rest with
    | nil =>
      exact ⟨fun _ => trivial, fun _ => ⟨faithful_withItems inProperty.root, fun _ _ _ => trivial⟩⟩
    | cons next rest =>
      have through : Through property ((next :: rest).map (·.name)).dropLast :=
        clear.2 property found
      refine ⟨fun _ => ih inProperty through.1, fun _ => ⟨faithful_withItems inProperty.root, ?_⟩⟩
      exact fun items present _ => ih (inProperty.items items present) (through.2 items present)

end Route

/-- A body is faithful, and clear for the parameters that are still to be placed in it. -/
structure FaithfulBody (definitions : Table String Schema) (route : RouteDescriptor)
    (done : Table String ParamSpec) (body : Schema) : Prop where
  faithful : body.All (FaithfulTo definitions)
  clear : ∀ later, (done ++ [later]).Sublist route.visibleParams →
    Route.ClearTo body (Route.segmentNames later.1).dropLast

theorem FaithfulBody.start : FaithfulBody definitions route [] .object where
  faithful := (faithful_law definitions).object
  clear _ _ := Route.clearTo_of_nameless namesIn_object _

theorem prefix_of_prefix_dropLast {first second : List String} (before : first <+: second.dropLast) :
    first <+: second ∧ (second ≠ [] → first ≠ second) := by
  refine ⟨before.trans (List.dropLast_prefix second), ?_⟩
  rintro some rfl
  have shorter := before.length_le
  rw [List.length_dropLast] at shorter
  have := List.length_pos_of_ne_nil some
  omega

theorem segmentNames_ne_nil (name : String) : Route.segmentNames name ≠ [] := by
  obtain ⟨isArray, rest, split⟩ := Route.splitNested_cons name
  simp [Route.segmentNames, split]

/-- A body stays faithful when a parameter is placed in it, if no other is nested in it by accident. -/
theorem FaithfulBody.insertNested {done : Table String ParamSpec} {placed source : String × ParamSpec}
    {body leaf : Schema} (keeps : route.KeepsEntities catalog)
    (nested : route.params.keys.any Route.isNested = true)
    (here : FaithfulBody definitions route done body)
    (within : (done ++ [placed]).Sublist route.visibleParams) (known : source ∈ route.visibleParams)
    (sameNames : Route.segmentNames source.1 = Route.segmentNames placed.1)
    (there : leaf.All (FaithfulNode catalog definitions source.2.type)) (required : Bool) :
    FaithfulBody definitions route (done ++ [placed])
      (Route.insertNested body (Route.splitNested placed.1) leaf required) where
  faithful := by
    have fresh : Route.ReceivesFresh (FaithfulTo definitions) :=
      fun _ => Route.receives_of_unnamed rfl
    have way := Route.open_of_clearTo (Route.splitNested placed.1) here.faithful (here.clear placed within)
    exact Route.insertNested_all (faithful_law definitions) fresh _ here.faithful
      (there.imp fun _ => And.left) way required
  clear later sublist := by
    have before : (done ++ [later]).Sublist route.visibleParams := by
      refine List.Sublist.trans ?_ sublist
      exact (List.sublist_append_left done [placed]).append (List.Sublist.refl [later])
    refine Route.insertNested_clearTo _ required (here.clear later before) ?_
    by_cases mentions : MentionsEntity catalog source.2.type
    · right
      intro along
      obtain ⟨outside, proper⟩ := prefix_of_prefix_dropLast along
      have listed : later ∈ route.visibleParams := sublist.subset (by simp)
      have same := keeps nested source known mentions later listed (sameNames ▸ outside)
      exact proper (segmentNames_ne_nil later.1) (same.trans sameNames).symm
    · exact .inl (there.imp fun _ node name named => mentions (node.2 name named))

/-- A body without a name, which has a property if the route keeps entities. -/
def BodyKept (catalog : Catalog) (route : RouteDescriptor) (holds : Schema → Prop) (body : Schema) :
    Prop :=
  body.canonicalName = none ∧ (route.KeepsEntities catalog → holds body)

/-- That schemas are faithful is a law of every route, except for the bodies of those that do not keep
entities. -/
theorem faithful_siteLaw (catalog : Catalog) (definitions : Table String Schema)
    (route : RouteDescriptor) :
    SiteLaw route (fun token => Itself (Schema.All (FaithfulNode catalog definitions (some token))))
      (fun declared => Itself (Schema.All (FaithfulNode catalog definitions declared)))
      (fun done => Itself (BodyKept catalog route (FaithfulBody definitions route done)))
      (Itself (BodyKept catalog route (Schema.All (FaithfulTo definitions)))) where
  toLeafLaw := NodeLaw.leafLaw (faithfulNode_law catalog definitions)
  start := ⟨rfl, rfl, fun _ => .start⟩
  insertNested := by
    rintro done placed source body _ leaf _ required nested ⟨rfl, unnamed, here⟩ within known sameNames
      ⟨rfl, there⟩
    obtain ⟨properties, names, frame⟩ :=
      Route.insertNested_frame body (Route.splitNested placed.1) leaf required
    refine ⟨rfl, by rw [frame]; exact unnamed, fun keeps => ?_⟩
    exact (here keeps).insertNested keeps nested within known sameNames there required
  whole := by
    rintro done body _ ⟨rfl, unnamed, here⟩
    exact ⟨rfl, unnamed, fun keeps => (here keeps).faithful⟩
  addProperty := by
    rintro _ body _ leaf _ name required ⟨rfl, unnamed, here⟩ ⟨rfl, there⟩
    refine ⟨rfl, unnamed, fun keeps => (here keeps).addProperty (there.imp fun _ => And.left) ?_⟩
    exact faithful_of_unnamed unnamed
  agree := by rintro body _ ⟨rfl, -⟩; exact ⟨rfl, rfl, rfl⟩

/-- What a type is answered with is faithful, and has names only if the type mentions an entity. -/
theorem session_faithful (catalog : Catalog) (tokens : List TypeToken) :
    (session catalog (tokens.map .resolve)).2.Faithful ∧
      List.Forall₂ (fun token (answer : Schema) => answer.All
          (FaithfulNode catalog (session catalog (tokens.map .resolve)).2.definitions (some token)))
        tokens (session catalog (tokens.map .resolve)).1 := by
  obtain ⟨history, derived⟩ := session_history catalog (tokens.map .resolve)
  have empty : Progress.Coherent catalog {} := Progress.coherent_empty
  obtain ⟨faithful, definitions⟩ := derived.faithful empty fun entry member => by cases member
  have named : List.Forall₂ (fun (call : Call) (answer : Schema) =>
      answer.NamesIn fun _ => call.task.MentionsEntity catalog) (tokens.map .resolve)
      (session catalog (tokens.map .resolve)).1 := by
    refine derived.forall₂ empty fun call _ progress _ answer _ coherent derived => ?_
    by_cases mentions : call.task.MentionsEntity catalog
    · exact fun node _ name _ => mentions
    · have plain : call.task.NamesIn fun _ => False := by cases call <;> trivial
      refine (derived.nameless coherent mentions plain ?_ ?_).imp fun _ => False.elim
      · cases call <;> simp [Call.task]
      · cases call <;> simp [Call.task]
  rw [List.forall₂_map_left_iff] at named
  refine ⟨definitions, List.forall₂_iff_zip.mpr ⟨named.length_eq, fun {token answer} member => ?_⟩⟩
  intro node occurs
  refine ⟨faithful answer (List.of_mem_zip member).2 node occurs, fun name known => ?_⟩
  exact mentionsEntity_some.mpr ((List.forall₂_iff_zip.mp named).2 member node occurs name known)

/-- All named nodes in the definitions of an interface, in its parameters and in its responses are
faithful to the definitions; so are those in its request bodies, if all visible routes keep
entities. -/
theorem buildApi_faithful (config : Config) (catalog : Catalog) (routes : List RouteDescriptor) :
    let api := buildApi config { catalog } routes
    (∀ entry ∈ api.definitions, entry.2.All (FaithfulTo api.definitions)) ∧
      (∀ operation ∈ api.operations, ∀ site ∈ operation.outerSites, site.All (FaithfulTo api.definitions)) ∧
        ((∀ route ∈ routes, route.hidden = false → route.KeepsEntities catalog) →
          api.All (FaithfulTo api.definitions)) := by
  intro api
  obtain ⟨settled, answers⟩ := session_faithful catalog (routeTokens routes)
  have same : api.definitions = _ := buildApi_definitions config catalog routes
  have laws := faithful_siteLaw catalog (session catalog (routeCalls routes)).2.definitions
  obtain ⟨-, operations⟩ := buildApi_operations config (fun route _ => laws route) answers
  have definitions : ∀ entry ∈ api.definitions, entry.2.All (FaithfulTo api.definitions) := by
    rw [same]
    exact settled
  have outer : ∀ operation ∈ api.operations, ∀ site ∈ operation.outerSites,
      site.All (FaithfulTo api.definitions) := by
    intro operation listed site member
    obtain ⟨route, -, built, other, related, id, rfl⟩ := operations operation listed
    obtain ⟨_, _, _, here⟩ := related.of_mem_outerSites member
    rw [same]
    exact here.imp fun _ => And.left
  refine ⟨definitions, outer, fun keeps => ⟨fun site member => ?_, definitions⟩⟩
  obtain ⟨operation, listed, within⟩ := Api.mem_sites.mp member
  rcases Operation.mem_sites.mp within with outside | inBody
  · exact outer operation listed site outside
  · obtain ⟨route, visible, built, other, related, id, rfl⟩ := operations operation listed
    obtain ⟨_, _, -, here⟩ := related.of_mem_bodySites inBody
    obtain ⟨known, shows⟩ := mem_visibleRoutes.mp visible
    rw [same]
    exact here (keeps route known shows)

def addresses : Catalog :=
  [("Address", { name := "Address", fields := [{ name := "zip", type := some (.named "String") }] })]

/-- A route that takes a person with a name and an address in its request body. -/
def personRoutes : List RouteDescriptor :=
  [{ path := "/people"
     method := .post
     params := [("person[address]", {
         type := some (.named "Address")
         documentation := { location := some "body" } }),
       ("person[name]", {
         type := some (.named "String")
         documentation := { location := some "body" } })] }]

theorem personRoutes_keep : ∀ route ∈ personRoutes, route.hidden = false →
    route.KeepsEntities addresses := by
  intro route listed _ _ outer outerShown mentions inner innerShown before
  obtain rfl := List.mem_singleton.mp listed
  have outerListed := (RouteDescriptor.mem_visibleParams.mp outerShown).1
  have innerListed := (RouteDescriptor.mem_visibleParams.mp innerShown).1
  simp only [List.mem_cons, List.not_mem_nil, or_false] at outerListed innerListed
  obtain rfl | rfl := outerListed
  · obtain rfl | rfl := innerListed
    · rfl
    · exact absurd before (by decide)
  · obtain ⟨token, typed, entity, known, names⟩ := mentions
    cases typed
    cases names
    exact absurd known (by decide)

/-- All named nodes are faithful in an interface that takes persons, and one of them is the address of the
person in the request body. -/
theorem buildApi_faithful_persons :
    (∀ route ∈ personRoutes, route.hidden = false → route.KeepsEntities addresses) ∧
      (buildApi {} { catalog := addresses } personRoutes).All
        (FaithfulTo (buildApi {} { catalog := addresses } personRoutes).definitions) ∧
      ∃ operation ∈ (buildApi {} { catalog := addresses } personRoutes).operations,
        ∃ body ∈ operation.bodySites, ∃ node, Occurs node body ∧
          node.canonicalName = some "Address" ∧ node.isStub = false := by
  refine ⟨personRoutes_keep, (buildApi_faithful {} addresses personRoutes).2.2 personRoutes_keep, ?_⟩
  refine ⟨_, List.mem_cons_self, _, List.mem_cons_self, _,
    .property List.mem_cons_self (.property List.mem_cons_self .self), ?_⟩
  exact ⟨rfl, rfl⟩

/-- A route that takes an address, and a city that is nested in it. -/
def addressRoutes : List RouteDescriptor :=
  [{ path := "/people"
     method := .post
     params := [("address", {
         type := some (.named "Address")
         documentation := { location := some "body" } }),
       ("address[city]", { type := some (.named "String") })] }]

/-- A request body that holds a named node with a property that its definition lacks. -/
theorem body_unfaithful :
    ∃ operation ∈ (buildApi {} { catalog := addresses } addressRoutes).operations,
      ∃ body ∈ operation.bodySites, ∃ node, Occurs node body ∧
        node.canonicalName = some "Address" ∧ node.isStub = false ∧
          Table.keys node.properties = ["zip", "city"] ∧
            ∃ definition, (buildApi {} { catalog := addresses } addressRoutes).definitions.get? "Address" =
              some definition ∧ Table.keys definition.properties = ["zip"] := by
  refine ⟨_, List.mem_cons_self, _, List.mem_cons_self, _, .property List.mem_cons_self .self, ?_⟩
  exact ⟨rfl, rfl, rfl, _, rfl, rfl⟩

end ApiDoc
