import ApiDoc.Proofs.Build.Reachable
import ApiDoc.Proofs.Build.Tags
import ApiDoc.Proofs.Export.Exchange

/-! # Routes that are declared again

A route that is declared again at its place takes the place of itself: its operation stays where it
stands, and the id that it releases is the one that it gets again, whatever numbers other routes hold.
The types that it uses are known by then, so that it is built of stubs where the first one was built of
whole schemas, but no use tells these apart, and nothing is defined anew (`buildApi_redeclared`).
-/

namespace ApiDoc

open Schema

namespace OperationId

variable {taken taken' : String → Prop} {wanted id other : String}

theorem Allots.unique (here : Allots taken wanted id) (there : Allots taken wanted other) : id = other := by
  cases here with
  | free absent =>
    cases there with
    | free => rfl
    | numbered present => exact absurd present absent
  | @numbered n present low free below =>
    cases there with
    | free absent => exact absurd present absent
    | @numbered m _ low' free' below' =>
      rcases Nat.lt_trichotomy n m with less | rfl | more
      · exact absurd (below' n low less) free
      · rfl
      · exact absurd (below m low' more) free'

/-- An id is still allotted when more ids are taken, unless it is one of them. -/
theorem Allots.of_more (allots : Allots taken wanted id) (more : ∀ other, taken other → taken' other)
    (free : ¬taken' id) : Allots taken' wanted id := by
  cases allots with
  | free => exact .free free
  | numbered present low _ below =>
    exact .numbered (more _ present) low free fun m above less => more _ (below m above less)

end OperationId

variable {catalog : Catalog} {config : Config} {lexicon : Lexicon} {route other : RouteDescriptor}
  {routes again : List RouteDescriptor} {draft : ApiDraft}

def RouteDescriptor.wantedId (config : Config) (route : RouteDescriptor) : String :=
  route.operationId.getD (OperationId.derive route.method (route.template config))

namespace ApiDraft

/-- At the place of the route stands an operation, under the id that would be allotted to it beside all
other operations of the draft. -/
def AllottedTo (draft : ApiDraft) (config : Config) (route : RouteDescriptor) : Prop :=
  ∃ operation id, Table.get? (draft.api.at (route.template config)) route.method = some operation ∧
    operation.operationId = some id ∧
      OperationId.Allots (draft.Taken (route.template config) route.method) (route.wantedId config) id

/-- An operation that is put at a free place has the id that is allotted there, and all other operations
keep theirs. -/
theorem AllottedTo.put (numbered : draft.Numbered)
    (free : Table.get? (draft.api.at (route.template config)) route.method = none) {operation : Operation}
    (frame : operation.method = route.method ∧ operation.operationId = route.operationId) :
    (draft.put (route.template config) operation).AllottedTo config route ∧
      ∀ other : RouteDescriptor, other.place config ≠ route.place config → draft.AllottedTo config other →
        (draft.put (route.template config) operation).AllottedTo config other := by
  obtain ⟨-, id, put, allots⟩ := numbered.put (route.template config) operation _
  have kept : ∀ known ∈ draft.ids, known ∈ (draft.put (route.template config) operation).ids := by
    intro known member
    have unreleased : draft.Taken (route.template config) operation.method known := by
      refine ⟨member, fun old found => ?_⟩
      rw [frame.1, free] at found
      cases found
    exact NameSet.mem_add.mpr (.inl ((numbered.mem_releasedIds known).mpr unreleased))
  generalize draft.put (route.template config) operation = behind at put kept ⊢
  rw [frame.1, frame.2] at allots
  have atPlace (template : String) (method : Method) : Table.get? (behind.api.at template) method =
      if route.place config = (template, method) then some { operation with operationId := some id }
      else Table.get? (draft.api.at template) method := by
    rw [put, Api.get?_putOperation]
    dsimp only
    rw [frame.1]
    rfl
  constructor
  · have here := (atPlace (route.template config) route.method).trans (if_pos rfl)
    refine ⟨_, id, here, rfl, allots.of_more (fun known taken => ⟨kept known taken.1, ?_⟩) ?_⟩
    · rintro old found named
      rw [here] at found
      cases found
      exact allots.not_taken (Option.some.inj named ▸ taken)
    · exact fun taken => taken.2 _ here rfl
  · rintro other apart ⟨old, id', stands, named, allotted⟩
    have there := (atPlace (other.template config) other.method).trans (if_neg (Ne.symm apart))
    refine ⟨old, id', there.trans stands, named, allotted.of_more (fun known taken => ?_) ?_⟩
    · refine ⟨kept known taken.1, fun one found => taken.2 one (there.symm.trans found)⟩
    · exact fun taken => taken.2 old (there.trans stands) named

end ApiDraft

theorem visibleRoutes_append_list (routes again : List RouteDescriptor) :
    visibleRoutes (routes ++ again) = visibleRoutes routes ++ visibleRoutes again := List.filter_append ..

/-- If no two visible routes have one place, each operation of a draft has the id that would be allotted
to it beside all other ones. -/
theorem draftOf_allotted (config : Config) (lexicon : Lexicon)
    (distinct : ((visibleRoutes routes).map (RouteDescriptor.place config)).Nodup) :
    ∀ route ∈ visibleRoutes routes, (draftOf config lexicon routes).AllottedTo config route := by
  induction routes using List.reverseRecOn with
  | nil => exact fun route visible => by cases visible
  | append_singleton before route ih =>
    rw [visibleRoutes_append] at distinct ⊢
    cases hidden : route.hidden with
    | true =>
      rw [hidden, if_pos rfl] at distinct
      rw [draftOf_append_of_hidden hidden]
      exact ih distinct
    | false =>
      rw [hidden, if_neg Bool.false_ne_true, List.map_append, List.map_singleton] at distinct
      rw [draftOf_append_of_visible hidden]
      obtain ⟨early, -, apart⟩ := List.nodup_append.mp distinct
      have elsewhere : ∀ other ∈ visibleRoutes before, other.place config ≠ route.place config :=
        fun other visible => apart _ (List.mem_map_of_mem visible) _ List.mem_cons_self
      have free : Table.get? ((draftOf config lexicon before).api.at (route.template config))
          route.method = none := by
        refine Option.eq_none_iff_forall_ne_some.mpr fun operation found => ?_
        obtain ⟨_, other, last, -⟩ := (draftOf_placed config lexicon before).last _ _ _ found
        exact elsewhere other last.mem_visibleRoutes last.here
      obtain ⟨atPlace, others⟩ := ApiDraft.AllottedTo.put (draftOf_numbered config lexicon before _) free
        (operationBehind_frame config lexicon before route)
      intro other visible
      rcases List.mem_append.mp visible with member | member
      · exact others other (elsewhere other member) (ih early other member)
      · obtain rfl := List.mem_singleton.mp member
        exact atPlace

section
variable {site : Schema → Schema → Prop} {api api' : Api}

theorem Operation.Related.named {operation operation' : Operation}
    (related : operation.Related site site operation') (id : Option String) :
    ({ operation with operationId := id } : Operation).Related site site
      { operation' with operationId := id } where
  frame := by rw [related.frame]
  parameters := related.parameters
  requestBody := related.requestBody
  responses := related.responses

theorem Operation.Related.operationId_eq {operation operation' : Operation}
    (related : operation.Related site site operation') : operation'.operationId = operation.operationId := by
  rw [related.frame]

/-- On each path stand related operations for the same methods. -/
theorem Api.at_related (related : List.Forall₂ (PathItem.Related site) api.paths api'.paths)
    (template : String) : Table.Related (fun _ => Operation.Related site site) (api.at template)
      (api'.at template) := by
  have byPath : Table.Related (fun _ => Table.Related fun _ => Operation.Related site site) api.byPath
      api'.byPath := List.rel_map (fun _ _ here => ⟨here.template, here.operations⟩) related
  unfold «at»
  rcases byPath.get? template with ⟨none, none'⟩ | ⟨operations, operations', here, there, stand⟩
  · rw [none, none']
    exact .nil
  · rw [here, there]
    exact stand

theorem Api.operations_related (related : List.Forall₂ (PathItem.Related site) api.paths api'.paths) :
    List.Forall₂ (Operation.Related site site) api.operations api'.operations :=
  List.rel_flatMap related fun _ _ here => here.operations.values

/-- An operation that is related to the one at a place may be put there again. -/
theorem Api.putOperation_related {template : String} {old operation : Operation}
    (related : List.Forall₂ (PathItem.Related site) api.paths api'.paths)
    (stands : Table.get? (api.at template) operation.method = some old)
    (same : old.Related site site operation) :
    List.Forall₂ (PathItem.Related site) api.paths (api'.putOperation template operation).paths := by
  unfold putOperation modifyPath
  unfold «at» byPath at stands
  dsimp only
  generalize api.paths = items at related stands
  generalize api'.paths = items' at related
  induction related with
  | nil => cases stands
  | @cons item item' _ _ here others ih =>
    rw [List.map_cons, Table.get?] at stands
    rw [modifyPathIn, ← here.template]
    split at stands
    · next atHead =>
      rw [if_pos atHead]
      exact .cons ⟨rfl, here.operations.insert_right stands same⟩ others
    · next apart =>
      rw [if_neg apart]
      exact .cons here (ih stands)

end

/-- Drafts whose interfaces agree in everything but schemas that no use tells apart. -/
structure ApiDraft.SameUses (first second : ApiDraft) : Prop where
  frame : second.api = { first.api with paths := second.api.paths }
  paths : List.Forall₂ (PathItem.Related Alike) first.api.paths second.api.paths

namespace ApiDraft.SameUses

variable {first second : ApiDraft}

theorem taken_iff (same : first.SameUses second) (numbered : first.Numbered)
    (numbered' : second.Numbered) (template : String) (method : Method) (id : String) :
    second.Taken template method id ↔ first.Taken template method id := by
  have operations := Api.operations_related same.paths
  have reserved : id ∈ second.ids ↔ id ∈ first.ids := by
    rw [numbered.ids_iff, numbered'.ids_iff]
    constructor
    · rintro ⟨operation', listed', named⟩
      obtain ⟨operation, listed, related⟩ := exists_of_mem_right operations listed'
      exact ⟨operation, listed, related.operationId_eq ▸ named⟩
    · rintro ⟨operation, listed, named⟩
      obtain ⟨operation', listed', related⟩ := exists_of_mem_left operations listed
      exact ⟨operation', listed', related.operationId_eq.trans named⟩
  unfold Taken
  rw [reserved]
  rcases (Api.at_related same.paths template).get? method with ⟨none, none'⟩ | ⟨old, old', here, there, related⟩
  · simp [none, none']
  · simp [here, there, related.operationId_eq]

/-- A route that is built again is put where it stands, under the id that it has. -/
theorem put (same : first.SameUses second) (numbered : first.Numbered) (numbered' : second.Numbered)
    (allotted : first.AllottedTo config route) {operation : Operation}
    (frame : operation.method = route.method ∧ operation.operationId = route.operationId)
    (alike : ∀ old id, Table.get? (first.api.at (route.template config)) route.method = some old →
      old.operationId = some id →
        old.Related Alike Alike { operation with operationId := some id }) :
    first.SameUses (second.put (route.template config) operation) := by
  obtain ⟨old, id, stands, named, allots⟩ := allotted
  obtain ⟨-, id', put, allots'⟩ := numbered'.put (route.template config) operation _
  have taken : second.Taken (route.template config) route.method =
      first.Taken (route.template config) route.method :=
    funext fun known => propext (same.taken_iff numbered numbered' _ _ known)
  rw [frame.1, frame.2, taken] at allots'
  obtain rfl := allots.unique allots'
  constructor
  · rw [put, same.frame]
    rfl
  · rw [put]
    exact Api.putOperation_related same.paths (frame.1 ▸ stands) (alike old id stands named)

end ApiDraft.SameUses

/-- Routes that are declared again mention no other tags. -/
theorem draftOf_tags_redeclared (known : ∀ route ∈ visibleRoutes again, route ∈ visibleRoutes routes)
    (config : Config) (lexicon : Lexicon) :
    (draftOf config lexicon (routes ++ again)).tags = (draftOf config lexicon routes).tags := by
  have mentioned : ((visibleRoutes again).flatMap (RouteDescriptor.shownTags config)).removeAll
      ((visibleRoutes routes).flatMap (RouteDescriptor.shownTags config)) = [] := by
    refine List.filter_eq_nil_iff.mpr fun tag member => ?_
    obtain ⟨route, visible, shown⟩ := List.mem_flatMap.mp member
    have early := List.mem_flatMap.mpr ⟨route, known route visible, shown⟩
    simpa using early
  rw [draftOf_tags, draftOf_tags, visibleRoutes_append_list, List.flatMap_append, List.eraseDups_append,
    mentioned, List.eraseDups_nil, List.append_nil]

/-- Routes that are declared again define nothing. -/
theorem definitions_redeclared (known : ∀ route ∈ visibleRoutes again, route ∈ visibleRoutes routes)
    (config : Config) (catalog : Catalog) :
    (buildApi config { catalog } (routes ++ again)).definitions =
      (buildApi config { catalog } routes).definitions := by
  symm
  refine Table.eq_of_prefix ?_ (nodup_keys_definitions config catalog _) fun name member => ?_
  · have calls : routeCalls (routes ++ again) = routeCalls routes ++ routeCalls again := by
      unfold routeCalls routeTokens
      rw [visibleRoutes_append_list, List.flatMap_append, List.map_append]
    rw [buildApi_definitions, buildApi_definitions, calls]
    exact session_definitions_prefix catalog _ _
  · obtain ⟨route, listed, shows, used⟩ := (mem_keys_definitions_iff config catalog _ name).mp member
    refine (mem_keys_definitions_iff config catalog routes name).mpr ⟨route, ?_, shows, used⟩
    rcases List.mem_append.mp listed with early | late
    · exact early
    · exact (mem_visibleRoutes.mp (known route (mem_visibleRoutes.mpr ⟨late, shows⟩))).1

section
variable (distinct : ((visibleRoutes routes).map (RouteDescriptor.place config)).Nodup)
  (unmixed : ∀ route ∈ visibleRoutes routes, route.Unmixed catalog)
  (known : ∀ route ∈ visibleRoutes again, route ∈ visibleRoutes routes)
include distinct unmixed

/-- Whatever was introspected, a visible route makes an operation that looks like the one at its
place. -/
theorem operation_alike (visible : route ∈ visibleRoutes routes) {progress : Progress}
    (coherent : progress.Coherent catalog) {old : Operation} {id : String}
    (stands : Table.get? ((draftOf config { catalog } routes).api.at (route.template config))
      route.method = some old) (named : old.operationId = some id) :
    old.Related Alike Alike
      { ((route.buildOperation config { catalog }).run progress).1 with operationId := some id } := by
  obtain ⟨before, other, last, _, rfl⟩ := (draftOf_placed config { catalog } routes).last _ _ _ stands
  obtain ⟨_, here⟩ := exists_lastAt distinct visible
  obtain rfl : other = route := last.unique here
  have alike : Operation.Related Alike Alike (operationBehind config { catalog } before other)
      ((other.buildOperation config { catalog }).run progress).1 :=
    other.build_alike_of_coherent (unmixed other visible) (progressOf_coherent config catalog before) coherent
  rw [← named]
  exact alike.named _

include known

theorem draftOf_redeclared :
    (draftOf config { catalog } routes).SameUses (draftOf config { catalog } (routes ++ again)) := by
  induction again using List.reverseRecOn with
  | nil =>
    rw [List.append_nil]
    exact ⟨rfl, List.forall₂_same.mpr fun item _ => .refl .refl item⟩
  | append_singleton before route ih =>
    have same := ih fun other visible => known other (by
      rw [visibleRoutes_append_list]
      exact List.mem_append_left _ visible)
    rw [← List.append_assoc]
    cases hidden : route.hidden with
    | true => rwa [draftOf_append_of_hidden hidden]
    | false =>
      have visible : route ∈ visibleRoutes routes :=
        known route (mem_visibleRoutes.mpr ⟨by simp, hidden⟩)
      rw [draftOf_append_of_visible hidden]
      exact same.put (draftOf_numbered config _ routes _) (draftOf_numbered config _ _ _)
        (draftOf_allotted config { catalog } distinct route visible)
        (operationBehind_frame config { catalog } _ route) fun old id stands named =>
          operation_alike distinct unmixed visible (progressOf_coherent config catalog _) stands named

/-- Routes that are declared again change nothing of an interface but schemas that no use tells apart, if
no two visible routes have one place and no parameter is nested in another one whose type mentions an
entity. -/
theorem buildApi_redeclared : (buildApi config { catalog } routes).Exchanged Alike AlikeParts
    (buildApi config { catalog } (routes ++ again)) := by
  have drafts := draftOf_redeclared distinct unmixed known
  have tags := draftOf_tags_redeclared known config { catalog }
  have definitions := definitions_redeclared known config catalog
  refine ⟨?_, drafts.paths, definitions ▸ .refl (fun _ => .refl) _⟩
  rw [buildApi_eq, buildApi_eq config _ routes, drafts.frame, tags]

end

end ApiDoc
