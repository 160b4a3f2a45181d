import ApiDoc.Proofs.Build.Flat
import ApiDoc.Proofs.Build.Shape

/-! # What becomes of each parameter

Every parameter of a route that neither is hidden nor has a hidden root travels somewhere (`Travels`): with
its root, if the route has nested names and something stands for the root, and otherwise where it says
itself. There it is documented, whatever types, resolvers and entities there are: in the body, or among the
parameters of the operation (`buildParams_accounts`). A nested one of the body may miss its place only if
another parameter of the body writes the way to it differently, and something of its root is there even
then.
-/

namespace ApiDoc

namespace Route

open Schema Publication

variable {lexicon : Lexicon} {names : Names} {params done : Table String ParamSpec} {roots : Roots}
  {entry other : String × ParamSpec} {draft : Draft}

/-- The locations that a parameter travels at in some build. -/
inductive Travels (lexicon : Lexicon) (names : Names) (params : Table String ParamSpec)
    (entry : String × ParamSpec) : Location → Prop
  | withRoot {root : ParamSpec} {schema : Schema} : params.keys.any isNested = true →
      rootParam? params (rootName entry.1) = some root → Yields lexicon root schema →
      Travels lexicon names params entry (locate names (rootName entry.1) root schema)
  | alone {schema : Schema} :
      (params.keys.any isNested = true → rootParam? params (rootName entry.1) = none) →
      Yields lexicon entry.2 schema → Travels lexicon names params entry (locate names entry.1 entry.2 schema)

/-- Roots that are noted say where a parameter inside them travels. -/
theorem NotedBy.travels (noted : NotedBy (Yields lexicon) names params roots)
    (nested : params.keys.any isNested = true) {schema : Schema} (yields : Yields lexicon entry.2 schema) :
    Travels lexicon names params entry (locationInside names roots entry schema) := by
  unfold locationInside
  cases stands : rootParam? params (rootName entry.1) with
  | none =>
    rw [noted.unknown _ stands]
    exact .alone (fun _ => stands) yields
  | some root =>
    obtain ⟨rootSchema, rootYields, found⟩ := noted.visible _ root stands
    rw [found]
    exact .withRoot nested stands rootYields

/-- A root that is noted travels at the location that is noted for it. -/
theorem NotedBy.travels_of_single (noted : NotedBy (Yields lexicon) names params roots)
    (nested : params.keys.any isNested = true) (member : entry ∈ params) (through : LetThrough roots entry)
    (single : (splitNested entry.1).length = 1) :
    ∃ location schema, Table.get? roots.visible (rootName entry.1) = some (location, schema) ∧
      Travels lexicon names params entry location := by
  obtain ⟨root, stands⟩ := rootParam?_isSome member through.shown single
  obtain ⟨schema, yields, found⟩ := noted.visible _ root stands
  exact ⟨_, schema, found, .withRoot nested stands yields⟩

def Occupied (draft : Draft) (slot : Location × String) : Prop :=
  ∃ parameter, Table.get? draft.bucket slot = some parameter ∧ parameter.slot = slot

theorem occupied_put (draft : Draft) (parameter : Parameter) :
    Occupied (draft.put parameter) parameter.slot := by
  refine ⟨parameter, ?_, rfl⟩
  unfold Draft.put Parameter.slot
  rw [Table.get?_insert, if_pos rfl]

theorem Occupied.put {slot : Location × String} (occupied : Occupied draft slot) (parameter : Parameter) :
    Occupied (draft.put parameter) slot := by
  by_cases own : parameter.slot = slot
  · exact own ▸ occupied_put draft parameter
  · obtain ⟨earlier, found, here⟩ := occupied
    exact ⟨earlier, (Table.get?_insert ..).trans ((if_neg own).trans found), here⟩

theorem Occupied.placeNested {slot : Location × String} (occupied : Occupied draft slot) (name : String)
    (segments : List NameSegment) (spec : ParamSpec) (location : Location) (schema : Schema) :
    Occupied (placeNested names draft name segments spec location schema) slot := by
  unfold Route.placeNested
  split
  · exact occupied
  · exact occupied.put _

/-- Another parameter of the body writes the way that segments go differently. -/
def WrittenApart (lexicon : Lexicon) (names : Names) (params : Table String ParamSpec)
    (segments : List NameSegment) : Prop :=
  ∃ other ∈ shownParams params, Travels lexicon names params other .body ∧
    writeAlike (splitNested other.1) segments = false

/-- Segments stand in a draft at a location: in the body they have their place, unless their way is written
differently, and the place of their root in any case, and elsewhere a parameter with these names has its
slot. -/
inductive StandsAt (lexicon : Lexicon) (names : Names) (params : Table String ParamSpec)
    (segments : List NameSegment) (draft : Draft) : Location → Prop
  | body : HasPlace draft.body (segments.take 1) →
      HasPlace draft.body segments ∨ WrittenApart lexicon names params segments →
      StandsAt lexicon names params segments draft .body
  | outside {location : Location} {source : String × ParamSpec} : location ≠ .body → source ∈ params →
      segmentNames source.1 = segments.map (·.name) → Occupied draft (location, names.published source.1) →
      StandsAt lexicon names params segments draft location

/-- Segments that write their ways alike tear no place. -/
theorem not_tears_of_writeAlike {container : Schema} {segments earlier : List NameSegment}
    (alike : writeAlike segments earlier = true) : ¬Tears container segments earlier := by
  induction segments generalizing container earlier with
  | nil => exact id
  | cons segment rest ih =>
    rcases rest with _ | ⟨next, rest⟩
    · exact id
    rcases earlier with _ | ⟨segment', _ | ⟨next', rest'⟩⟩
    · exact id
    · exact id
    rintro ⟨same, property, -, ⟨array, object, -⟩ | deeper⟩
    · simp [writeAlike, same, array, object] at alike
    · have inside : writeAlike (next :: rest) (next' :: rest') = true := by
        simp only [writeAlike, same, bne_self_eq_false, Bool.false_or, Bool.and_eq_true] at alike
        exact alike.2
      exact ih inside deeper

/-- Nothing tears the places of roots. -/
theorem not_tears_take_one (container : Schema) (segments earlier : List NameSegment) :
    ¬Tears container segments (earlier.take 1) := by
  rcases earlier with _ | ⟨root, rest⟩
  · rcases segments with _ | ⟨_, _ | _⟩ <;> exact id
  · exact not_tears_root container segments root

theorem HasPlace.take_one {container : Schema} {segments : List NameSegment}
    (place : HasPlace container segments) : HasPlace container (segments.take 1) := by
  rcases segments with _ | ⟨root, rest⟩
  · trivial
  · obtain ⟨property, found, -⟩ := place
    exact ⟨property, found, .inl rfl⟩

/-- Segments stand where a parameter that has them is placed. -/
theorem standsAt_placeNested (member : entry ∈ params) (draft : Draft) (location : Location)
    (schema : Schema) : StandsAt lexicon names params (splitNested entry.1)
      (placeNested names draft entry.1 (splitNested entry.1) entry.2 location schema) location := by
  by_cases inBody : location = .body
  · subst inBody
    have place := hasPlace_placeNested names draft entry.1 entry.2 schema
    exact .body place.take_one (.inl place)
  · refine .outside inBody member rfl ?_
    unfold placeNested
    rw [if_neg inBody]
    exact occupied_put draft (parameterOf names entry.1 location entry.2 schema)

/-- What stands in a draft stays there where further parameters are placed. -/
theorem StandsAt.placeNested {segments : List NameSegment} {location travelled : Location}
    (here : StandsAt lexicon names params segments draft location) (shown : other ∈ shownParams params)
    (travels : Travels lexicon names params other travelled) (schema : Schema) :
    StandsAt lexicon names params segments
      (placeNested names draft other.1 (splitNested other.1) other.2 travelled schema) location := by
  cases here with
  | outside outside member named occupied => exact .outside outside member named (occupied.placeNested ..)
  | body root place =>
    refine .body (root.placeNested (fun _ => not_tears_take_one _ _ _) _ _) ?_
    by_cases apart : travelled = .body ∧ writeAlike (splitNested other.1) segments = false
    · exact .inr ⟨other, shown, apart.1 ▸ travels, apart.2⟩
    · refine place.imp_left fun place => place.placeNested (fun inBody => ?_) _ _
      exact not_tears_of_writeAlike (Bool.not_eq_false _ ▸ fun unlike => apart ⟨inBody, unlike⟩)

/-- A root stands where it does however it is written. -/
theorem StandsAt.rewritten {name : String} {isArray : Bool} {location : Location}
    (here : StandsAt lexicon names params [⟨name, isArray⟩] draft location) (isArray' : Bool) :
    StandsAt lexicon names params [⟨name, isArray'⟩] draft location := by
  cases here with
  | outside outside member named occupied => exact .outside outside member named occupied
  | body root _ =>
    obtain ⟨property, found, -⟩ := root
    have place : HasPlace draft.body [⟨name, isArray'⟩] := ⟨property, found, .inl rfl⟩
    exact .body place (.inl place)

/-- A parameter with one segment stands where its root does. -/
theorem standsAt_root {name : String} {location : Location} (single : (splitNested name).length = 1) :
    StandsAt lexicon names params (splitNested name) draft location ↔
      StandsAt lexicon names params [⟨rootName name, false⟩] draft location := by
  obtain ⟨isArray, rest, segments⟩ := splitNested_cons name
  rw [segments, List.length_cons] at single
  obtain rfl := List.length_eq_zero_iff.mp (Nat.succ.inj single)
  rw [segments]
  exact ⟨fun here => here.rewritten false, fun here => here.rewritten isArray⟩

/-- Behind some of the parameters each of them that is shown stands where it travels, and so does a root
that is no longer waiting. -/
structure Accounts (lexicon : Lexicon) (names : Names) (params : Table String ParamSpec) (roots : Roots)
    (done : Table String ParamSpec) (state : Draft × Table String (Location × Schema)) : Prop where
  waiting : ∀ root ∈ state.2, root ∈ roots.visible
  roots : ∀ root location schema, Table.get? roots.visible root = some (location, schema) →
    Table.get? state.2 root = none → StandsAt lexicon names params [⟨root, false⟩] state.1 location
  shown : ∀ entry ∈ done, isShown params entry = true → ∃ location,
    Travels lexicon names params entry location ∧
      StandsAt lexicon names params (splitNested entry.1) state.1 location

namespace Accounts

variable {pending pending' : Table String (Location × Schema)}

/-- A parameter that is passed over is hidden, or another one stands for it. -/
theorem skip (here : Accounts lexicon names params roots done (draft, pending))
    (own : isShown params entry = true → ∃ location, Travels lexicon names params entry location ∧
      StandsAt lexicon names params (splitNested entry.1) draft location) :
    Accounts lexicon names params roots (done ++ [entry]) (draft, pending) := by
  refine ⟨here.waiting, here.roots, fun other member shown => ?_⟩
  rcases List.mem_append.mp member with early | last
  · exact here.shown other early shown
  · obtain rfl := List.mem_singleton.mp last
    exact own shown

/-- A parameter that is placed stands where it travels, and leaves what stood before. -/
theorem place (here : Accounts lexicon names params roots done (draft, pending))
    (shown : entry ∈ shownParams params) {location : Location} (schema : Schema)
    (travels : Travels lexicon names params entry location) (waiting : pending' ⊆ pending)
    (atRoot : ∀ root known, Table.get? roots.visible root = some known → Table.get? pending' root = none →
      Table.get? pending root = none ∨
        (splitNested entry.1).length = 1 ∧ rootName entry.1 = root ∧ known.1 = location) :
    Accounts lexicon names params roots (done ++ [entry])
      (placeNested names draft entry.1 (splitNested entry.1) entry.2 location schema, pending') := by
  have own : StandsAt lexicon names params (splitNested entry.1)
      (placeNested names draft entry.1 (splitNested entry.1) entry.2 location schema) location :=
    standsAt_placeNested (mem_shownParams.mp shown).1 draft location schema
  refine ⟨fun root member => here.waiting root (waiting member), fun root between rootSchema known gone => ?_,
    fun other member shows => ?_⟩
  · rcases atRoot root _ known gone with before | ⟨single, rfl, rfl⟩
    · exact (here.roots root _ _ known before).placeNested shown travels schema
    · exact (standsAt_root single).mp own
  · rcases List.mem_append.mp member with early | last
    · obtain ⟨between, leads, stands⟩ := here.shown other early shows
      exact ⟨between, leads, stands.placeNested shown travels schema⟩
    · obtain rfl := List.mem_singleton.mp last
      exact ⟨location, travels, own⟩

end Accounts

theorem addNested_accounts (nested : params.keys.any isNested = true)
    (noted : NotedBy (Yields lexicon) names params roots) (member : entry ∈ params)
    {state : Draft × Table String (Location × Schema)}
    (here : Accounts lexicon names params roots done state) :
    Always (Accounts lexicon names params roots (done ++ [entry]))
      (addNested lexicon names roots state entry.1 entry.2) := by
  obtain ⟨draft, pending⟩ := state
  have shown (through : LetThrough roots entry) : entry ∈ shownParams params :=
    List.mem_filter.mpr ⟨member, (letThrough_iff noted.hidden).mp through⟩
  refine (addNested_adds lexicon names roots (draft, pending) entry).imp fun next adds => ?_
  cases adds with
  | hidden unshown =>
    exact here.skip fun shows => absurd ((letThrough_iff noted.hidden).mpr shows) unshown
  | stoodFor through single done =>
    obtain ⟨location, schema, known, travels⟩ := noted.travels_of_single nested member through single
    exact here.skip fun _ => ⟨location, travels, (standsAt_root single).mpr (here.roots _ _ _ known done)⟩
  | @root location schema through single waits =>
    obtain ⟨noticed, _, known, travels⟩ := noted.travels_of_single nested member through single
    -- What waits for a root is what was noted for it, and each root was noted once.
    have listed := here.waiting _ (Table.mem_of_get? waits)
    have same : noticed = location :=
      congrArg Prod.fst (Option.some.inj (known.symm.trans (Table.get?_of_mem noted.distinct listed)))
    subst same
    refine here.place (shown through) schema travels (fun _ => Table.mem_of_mem_erase) ?_
    intro root rootKnown inRoots gone
    by_cases own : rootName entry.1 = root
    · subst own
      exact .inr ⟨single, rfl, congrArg Prod.fst (Option.some.inj (inRoots.symm.trans known))⟩
    · exact .inl ((Table.get?_erase_of_ne pending own).symm.trans gone)
  | inside through several yields =>
    exact here.place (shown through) _ (noted.travels nested yields) (List.Subset.refl _)
      fun _ _ _ gone => .inl gone

/-- Each parameter of a route with nested names that is shown stands where it travels. -/
theorem addAllNested_accounts (nested : params.keys.any isNested = true) (draft : Draft) :
    Always (fun next => ∀ entry ∈ params, isShown params entry = true → ∃ location,
        Travels lexicon names params entry location ∧
          StandsAt lexicon names params (splitNested entry.1) next location)
      (addAllNested lexicon names params draft) := by
  refine (noteRoots_notedBy (paramSchema_yields lexicon) names params).bind fun roots noted => ?_
  have start : Accounts lexicon names params roots [] (draft, roots.visible) := by
    refine ⟨fun root member => member, fun root location schema known gone => ?_, fun entry member => ?_⟩
    · cases known.symm.trans gone
    · cases member
  have behind : Always (Accounts lexicon names params roots params)
      (params.foldlM (fun state entry => addNested lexicon names roots state entry.1 entry.2)
        (draft, roots.visible)) :=
    Always.foldlM_split (Accounts lexicon names params roots)
      (fun _ entry _ _ split here => addNested_accounts nested noted (by simp [split]) here)
      (List.nil_append params).symm start
  exact behind.bind fun state here => .pure here.shown

/-- A parameter stands in a draft of a route without nested names: as a property of the body, or in its
slot. -/
inductive StandsFlat (names : Names) (entry : String × ParamSpec) (draft : Draft) : Location → Prop
  | body : entry.1 ∈ Table.keys draft.body.properties → StandsFlat names entry draft .body
  | outside {location : Location} : location ≠ .body →
      Occupied draft (location, names.published entry.1) → StandsFlat names entry draft location

theorem standsFlat_publishFlat (names : Names) (draft : Draft) (publication : Publication) :
    StandsFlat names publication.entry (publishFlat names draft publication) publication.location := by
  unfold publishFlat
  split
  · next inBody =>
    rw [inBody]
    exact .body (Table.mem_keys_insert.mpr (.inl rfl))
  · next outside => exact .outside outside (occupied_put draft (publication.parameter names))

theorem StandsFlat.publishFlat {location : Location} (here : StandsFlat names entry draft location)
    (publication : Publication) :
    StandsFlat names entry (publishFlat names draft publication) location := by
  unfold Publication.publishFlat
  cases here with
  | body listed =>
    split
    · exact .body (Table.mem_keys_insert.mpr (.inr listed))
    · exact .body listed
  | outside outside occupied =>
    split
    · exact .outside outside occupied
    · exact .outside outside (occupied.put _)

theorem StandsFlat.foldl_publishFlat {location : Location} (here : StandsFlat names entry draft location)
    (published : List Publication) :
    StandsFlat names entry (published.foldl (Publication.publishFlat names) draft) location := by
  induction published generalizing draft with
  | nil => exact here
  | cons publication rest ih => exact ih (here.publishFlat publication)

theorem standsFlat_foldl {published : List Publication} {publication : Publication}
    (member : publication ∈ published) (draft : Draft) :
    StandsFlat names publication.entry (published.foldl (publishFlat names) draft) publication.location := by
  obtain ⟨before, after, rfl⟩ := List.append_of_mem member
  rw [List.foldl_append, List.foldl_cons]
  exact (standsFlat_publishFlat names _ publication).foldl_publishFlat after

/-- Each parameter of a route without nested names that is not hidden stands where it travels. -/
theorem addAllFlat_accounts (flat : params.keys.any isNested = false) (draft : Draft) :
    Always (fun next => ∀ entry ∈ params, entry.2.documentation.hidden = false → ∃ location,
        Travels lexicon names params entry location ∧ StandsFlat names entry next location)
      (addAllFlat lexicon names params draft) := by
  have each (entry : String × ParamSpec) : Always (fun publication =>
      PublishedAs names entry publication ∧ Yields lexicon entry.2 publication.schema)
      (publicationIn lexicon names entry) :=
    (paramSchema_yields lexicon entry.2).bind fun schema yields => .pure ⟨⟨rfl, rfl⟩, yields⟩
  have resolved := Always.forall₂_mapM each (params.filter fun entry => !entry.2.documentation.hidden)
  rw [addAllFlat_eq]
  refine resolved.bind fun published each => .pure fun entry member shown => ?_
  have listed : entry ∈ params.filter fun entry => !entry.2.documentation.hidden := by
    simpa [shown] using member
  obtain ⟨publication, among, ⟨rfl, located⟩, yields⟩ := exists_of_mem_left each listed
  refine ⟨publication.location, located ▸ .alone (fun nested => ?_) yields, standsFlat_foldl among draft⟩
  cases nested.symm.trans flat

/-- What is built of a route documents one of its parameters at a location. -/
inductive DocumentedAt (lexicon : Lexicon) (names : Names) (params : Table String ParamSpec)
    (entry : String × ParamSpec) (built : Option Schema × List Parameter) : Location → Prop
  | property {body : Schema} : params.keys.any isNested = false → built.1 = some body →
      entry.1 ∈ Table.keys body.properties → DocumentedAt lexicon names params entry built .body
  | nested {body : Schema} : params.keys.any isNested = true → built.1 = some body →
      rootName entry.1 ∈ Table.keys body.properties →
      (∃ property, body.reach (segmentNames entry.1) = some property) ∨
        WrittenApart lexicon names params (splitNested entry.1) →
      DocumentedAt lexicon names params entry built .body
  | outside {location : Location} {source : String × ParamSpec} : location ≠ .body → source ∈ params →
      segmentNames source.1 = segmentNames entry.1 →
      (location, names.published source.1) ∈ built.2.map Parameter.slot →
      DocumentedAt lexicon names params entry built location

/-- A body with a property is the one that a draft ends in. -/
theorem finish_eq_some {name : String} (listed : name ∈ Table.keys draft.body.properties) :
    (draft.finish names).1 = some draft.body := by
  refine if_neg fun empty => ?_
  rw [List.isEmpty_iff.mp empty] at listed
  cases listed

theorem Occupied.finish {slot : Location × String} (occupied : Occupied draft slot) (names : Names) :
    slot ∈ (draft.finish names).2.map Parameter.slot := by
  obtain ⟨parameter, found, rfl⟩ := occupied
  exact List.mem_map_of_mem (List.mem_append_right _ (List.mem_map_of_mem (Table.mem_of_get? found)))

theorem StandsFlat.documentedAt {location : Location} (here : StandsFlat names entry draft location)
    (flat : params.keys.any isNested = false) (member : entry ∈ params) :
    DocumentedAt lexicon names params entry (draft.finish names) location := by
  cases here with
  | body listed => exact .property flat (finish_eq_some listed) listed
  | outside outside occupied => exact .outside outside member rfl (occupied.finish names)

theorem StandsAt.documentedAt {location : Location}
    (here : StandsAt lexicon names params (splitNested entry.1) draft location)
    (nested : params.keys.any isNested = true)
    (only : ∀ body, (draft.finish names).1 = some body → body.OnlyProperties) :
    DocumentedAt lexicon names params entry (draft.finish names) location := by
  cases here with
  | outside outside member named occupied => exact .outside outside member named (occupied.finish names)
  | body root place =>
    obtain ⟨isArray, rest, segments⟩ := splitNested_cons entry.1
    rw [segments] at root
    obtain ⟨property, found, -⟩ := root
    have listed := Table.mem_keys_of_get? found
    obtain ⟨properties, required, same⟩ := only _ (finish_eq_some listed)
    refine .nested nested (finish_eq_some listed) listed (place.imp_left fun place => ?_)
    exact place.reach (congrArg Schema.type same)

/-- Each parameter of a route that is not hidden, and whose root is not, is documented where its root says
or where it says itself. -/
theorem buildParams_accounts (lexicon : Lexicon) (aliases : Table String String) (route : RouteDescriptor) :
    Always (fun built => ∀ entry ∈ route.params, entry.2.documentation.hidden = false →
        (route.params.keys.any isNested = true → rootName entry.1 ∉ hiddenRoots route.params) →
          ∃ location, Travels lexicon ⟨pathVariables route.path, aliases⟩ route.params entry location ∧
            DocumentedAt lexicon ⟨pathVariables route.path, aliases⟩ route.params entry built location)
      (buildParams lexicon aliases route) := by
  let names : Names := ⟨pathVariables route.path, aliases⟩
  have accounts : Always (fun built => (∀ body, built.1 = some body → body.OnlyProperties) →
      ∀ entry ∈ route.params, entry.2.documentation.hidden = false →
        (route.params.keys.any isNested = true → rootName entry.1 ∉ hiddenRoots route.params) →
          ∃ location, Travels lexicon names route.params entry location ∧
            DocumentedAt lexicon names route.params entry built location)
      (buildParams lexicon aliases route) := by
    refine .after fun draft => ?_
    split
    · next nested =>
      refine (addAllNested_accounts nested draft).bind fun next accounts => .pure ?_
      intro only entry member shown rootShown
      have listed := mem_shownParams.mpr ⟨member, shown, rootShown nested⟩
      obtain ⟨location, travels, stands⟩ := accounts entry member (List.mem_filter.mp listed).2
      exact ⟨location, travels, stands.documentedAt nested only⟩
    · next unnested =>
      have flat := Bool.eq_false_iff.mpr unnested
      refine (addAllFlat_accounts flat draft).bind fun next accounts => .pure ?_
      intro _ entry member shown _
      obtain ⟨location, travels, stands⟩ := accounts entry member shown
      exact ⟨location, travels, stands.documentedAt flat member⟩
  -- The body of a route is an object, so that names lead through it.
  intro progress
  exact accounts progress fun body made => ((buildParams_regular aliases route progress).1 body made).2

end Route

end ApiDoc
