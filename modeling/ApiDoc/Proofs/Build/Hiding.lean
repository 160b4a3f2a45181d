import ApiDoc.Proofs.Build.Nesting
import ApiDoc.Proofs.Build.Reachable
import ApiDoc.Proofs.Build.Slots

/-! # Hidden parameters

A route with nested names publishes some of its parameters: none that is hidden, and none whose root is
hidden (`shownParams`). What it is built to is made of these publications and of nothing else. Everything
in the body stands on the way of a published parameter or inside it (`Publication.reach_bodyOf`), and
everything outside the body is published, a header, or a path variable that is filled in (`Source`). So a
root that is hidden takes all that is nested in it along (`buildParams_hides`). A group inside a root does
not: what is nested in it is published although it is hidden (`hidden_group_shows_members`).
-/

namespace ApiDoc

namespace Route

open Schema

variable {lexicon : Lexicon} {names : Names} {container property : Schema} {params : Table String ParamSpec}

/-- Whether a parameter is shown: it is not hidden, and its root is not. -/
def isShown (params : Table String ParamSpec) (entry : String × ParamSpec) : Bool :=
  !(entry.2.documentation.hidden || (hiddenRoots params).contains (rootName entry.1))

def shownParams (params : Table String ParamSpec) : Table String ParamSpec := params.filter (isShown params)

theorem mem_shownParams {entry : String × ParamSpec} : entry ∈ shownParams params ↔
    entry ∈ params ∧ entry.2.documentation.hidden = false ∧ rootName entry.1 ∉ hiddenRoots params := by
  simp [shownParams, isShown]

/-- A parameter that is published with a schema at a location. -/
structure Publication where
  entry : String × ParamSpec
  location : Location
  schema : Schema

namespace Publication

def path (publication : Publication) : List String := segmentNames publication.entry.1

/-- The parameter where it is published outside the body. -/
def parameter (names : Names) (publication : Publication) : Parameter :=
  parameterOf names publication.entry.1 publication.location publication.entry.2 publication.schema

/-- Puts the parameter at its place in a body. -/
def place (container : Schema) (publication : Publication) : Schema :=
  insertNested container (splitNested publication.entry.1)
    (publication.schema.describe publication.entry.2.description) publication.entry.2.isRequired

def publish (names : Names) (draft : Draft) (publication : Publication) : Draft :=
  placeNested names draft publication.entry.1 (splitNested publication.entry.1) publication.entry.2
    publication.location publication.schema

def inBody (published : List Publication) : List Publication := published.filter (·.location = .body)

def bodyOf (published : List Publication) : Schema := (inBody published).foldl place .object

theorem body_foldl_publish (published : List Publication) (draft : Draft) :
    (published.foldl (publish names) draft).body = (inBody published).foldl place draft.body := by
  induction published generalizing draft with
  | nil => rfl
  | cons publication rest ih =>
    rw [List.foldl_cons, ih, inBody, inBody, List.filter_cons]
    unfold publish placeNested
    by_cases here : publication.location = .body
    · rw [if_pos here, if_pos (decide_eq_true here), List.foldl_cons]
      rfl
    · rw [if_neg here, if_neg (by simp [here])]
      rfl

theorem mem_bucket_foldl_publish {published : List Publication} {draft : Draft}
    {entry : (Location × String) × Parameter}
    (member : entry ∈ (published.foldl (publish names) draft).bucket) :
    entry ∈ draft.bucket ∨
      ∃ publication ∈ published, publication.location ≠ .body ∧ entry.2 = publication.parameter names := by
  induction published generalizing draft with
  | nil => exact .inl member
  | cons publication rest ih =>
    rcases ih member with early | ⟨other, listed, apart, same⟩
    · unfold publish placeNested at early
      split at early
      · exact .inl early
      · next apart =>
        rcases Table.mem_of_mem_insert early with rfl | old
        · exact .inr ⟨publication, List.mem_cons_self, apart, rfl⟩
        · exact .inl old
    · exact .inr ⟨other, List.mem_cons_of_mem _ listed, apart, same⟩

end Publication

open Publication

theorem letThrough_iff {roots : Roots} (known : roots.hidden = hiddenRoots params)
    {entry : String × ParamSpec} : LetThrough roots entry ↔ isShown params entry = true := by
  simp only [isShown, Bool.not_eq_true', Bool.or_eq_false_iff, List.contains_eq_mem,
    decide_eq_false_iff_not, ← known]
  exact ⟨fun through => ⟨through.shown, through.rootShown⟩, fun ⟨shown, rootShown⟩ => ⟨shown, rootShown⟩⟩

/-- A parameter is published only if it is shown. -/
theorem addNested_publishes {roots : Roots} (known : roots.hidden = hiddenRoots params)
    (state : Draft × Table String (Location × Schema)) (entry : String × ParamSpec) :
    Always (fun next => next.1 = state.1 ∨ isShown params entry = true ∧
        ∃ location schema, next.1 = publish names state.1 ⟨entry, location, schema⟩)
      (addNested lexicon names roots state entry.1 entry.2) := by
  refine (addNested_adds lexicon names roots state entry).imp fun next adds => ?_
  cases adds with
  | hidden | stoodFor => exact .inl rfl
  | root through => exact .inr ⟨(letThrough_iff known).mp through, _, _, rfl⟩
  | inside through => exact .inr ⟨(letThrough_iff known).mp through, _, _, rfl⟩

/-- The parameters of a route with nested names are published one after the other, and only those that are
shown. -/
theorem addAllNested_publishes (params : Table String ParamSpec) (draft : Draft) :
    Always (fun next => ∃ published : List Publication,
        (published.map (·.entry)).Sublist (shownParams params) ∧ next = published.foldl (publish names) draft)
      (addAllNested lexicon names params draft) := by
  refine (noteRoots_notedBy (paramSchema_yields lexicon) names params).bind fun roots noted => ?_
  have drafts : Always (fun state => ∃ published : List Publication,
        (published.map (·.entry)).Sublist (shownParams params) ∧
          state.1 = published.foldl (publish names) draft)
      (params.foldlM (fun state entry => addNested lexicon names roots state entry.1 entry.2)
        (draft, roots.visible)) := by
    refine Always.foldlM_split (fun done (state : Draft × Table String (Location × Schema)) =>
      ∃ published : List Publication, (published.map (·.entry)).Sublist (done.filter (isShown params)) ∧
        state.1 = published.foldl (publish names) draft) ?step (List.nil_append params).symm
          ?start
    case start => exact ⟨[], .slnil, rfl⟩
    intro done entry rest state _ here progress
    obtain ⟨published, listed, same⟩ := here
    rcases addNested_publishes noted.hidden state entry progress with kept | ⟨shown, location, schema, placed⟩
    · refine ⟨published, ?_, kept.trans same⟩
      rw [List.filter_append]
      exact listed.trans (List.sublist_append_left _ _)
    · refine ⟨published ++ [⟨entry, location, schema⟩], ?_, ?_⟩
      · rw [List.map_append, List.filter_append, List.filter_cons_of_pos shown]
        exact listed.append (List.Sublist.refl [entry])
      · rw [List.foldl_append, ← same]
        exact placed
  exact drafts.bind fun state here => .pure here

/-- Where a parameter outside the body comes from. -/
inductive Source (names : Names) (headers : Table String HeaderSpec) (published : List Publication) :
    Parameter → Prop
  | header {name : String} {spec : HeaderSpec} (schema : Schema) : (name, spec) ∈ headers →
      Source names headers published
        { name, location := .header, required := spec.required, schema, description := spec.description }
  | filledIn {pathVariable : String} : pathVariable ∈ names.pathVariables →
      Source names headers published (filledIn (names.published pathVariable))
  | declared {publication : Publication} : publication ∈ published → publication.location ≠ .body →
      Source names headers published (publication.parameter names)

/-- Headers leave the body empty. -/
theorem addHeaders_source (names : Names) (headers : Table String HeaderSpec) :
    Always (fun draft => draft.body = .object ∧ ∀ entry ∈ draft.bucket, Source names headers [] entry.2)
      (headers.foldlM (fun draft entry => addHeader lexicon draft entry.1 entry.2) {}) := by
  refine Always.foldlM_split (fun _ (draft : Draft) => draft.body = .object ∧
    ∀ entry ∈ draft.bucket, Source names headers [] entry.2) ?_ (List.nil_append headers).symm
      ⟨rfl, fun entry member => by cases member⟩
  intro done header rest draft split here
  refine .after fun schema => .pure ⟨here.1, fun entry member => ?_⟩
  rcases Table.mem_of_mem_insert member with rfl | old
  · exact .header schema (by simp [split])
  · exact here.2 entry old

theorem Source.mono {headers : Table String HeaderSpec} {published : List Publication}
    {parameter : Parameter} (source : Source names headers [] parameter) :
    Source names headers published parameter := by
  cases source with
  | header schema listed => exact .header schema listed
  | filledIn listed => exact .filledIn listed
  | declared listed _ => cases listed

/-- Publications end in the body that they make, and in parameters that come from them, from headers or
from the path. -/
theorem finish_publishes {draft : Draft} {headers : Table String HeaderSpec} (empty : draft.body = .object)
    (sources : ∀ entry ∈ draft.bucket, Source names headers [] entry.2) (published : List Publication) :
    let built := (published.foldl (publish names) draft).finish names
    (∀ body, built.1 = some body → body = bodyOf published) ∧
      ∀ parameter ∈ built.2, Source names headers published parameter := by
  refine ⟨fun body made => ?_, fun parameter member => ?_⟩
  · unfold Draft.finish at made
    dsimp only at made
    split at made
    · cases made
    · rw [body_foldl_publish, empty] at made
      exact (Option.some.inj made).symm
  · rcases List.mem_append.mp member with missing | listed
    · rw [undeclared_eq_map] at missing
      obtain ⟨name, chosen, rfl⟩ := List.mem_map.mp missing
      obtain ⟨pathVariable, written, rfl⟩ := List.mem_map.mp (List.mem_filter.mp chosen).1
      exact .filledIn written
    · obtain ⟨entry, inBucket, rfl⟩ := List.mem_map.mp listed
      rcases mem_bucket_foldl_publish inBucket with early | ⟨publication, here, apart, same⟩
      · exact (sources entry early).mono
      · exact same ▸ .declared here apart

/-- Where names lead depends only on the holder. -/
theorem reach_cons_of_holder_eq {schema schema' : Schema} (same : schema.holder = schema'.holder)
    (name : String) (rest : List String) : schema.reach (name :: rest) = schema'.reach (name :: rest) := by
  rw [Schema.reach, Schema.reach, same]

/-- A holder is the one of the property, or is made for what is placed in it. -/
theorem nestHolder_eq (isArray : Bool) (property : Schema) : nestHolder isArray property = property.holder ∨
    ∃ description, nestHolder isArray property = Schema.object.describe description := by
  unfold nestHolder
  by_cases array : property.isType .array = true
  · have same : asHolder isArray property = property := if_pos array
    rw [same, if_pos array]
    unfold itemsHolder
    split
    · next items present =>
      split
      · exact .inl (holder_of_array (isType_iff.mp array) present).symm
      · exact .inr ⟨none, rfl⟩
    · exact .inr ⟨none, rfl⟩
  · unfold asHolder
    rw [if_neg array]
    cases isArray with
    | true => exact .inr ⟨none, rfl⟩
    | false =>
      rw [if_neg Bool.false_ne_true]
      by_cases object : property.isType .object = true
      · rw [if_pos object, if_neg array]
        exact .inl (holder_of_object (isType_iff.mp object)).symm
      · rw [if_neg object]
        exact .inr ⟨property.description, rfl⟩

/-- A holder has nothing that the property does not have. -/
theorem reach_of_reach_nestHolder {isArray : Bool} {name : String} {rest : List String} {reached : Schema}
    (found : (nestHolder isArray property).reach (name :: rest) = some reached) :
    property.reach (name :: rest) = some reached := by
  rcases nestHolder_eq isArray property with same | ⟨description, made⟩
  · have own : property.holder.holder = property.holder := by
      rw [← same]
      exact holder_of_object (nestHolder_type isArray property)
    rw [same] at found
    rwa [reach_cons_of_holder_eq own] at found
  · rw [made] at found
    cases found

/-- What is found in a container behind a parameter that was placed in it was there before, or stands on
the way of the parameter or inside it. -/
theorem reach_insertNested (object : container.type = some .object) (segments : List NameSegment)
    (leaf : Schema) (required : Bool) {path : List String} (nonempty : path ≠ []) {reached : Schema}
    (found : (insertNested container segments leaf required).reach path = some reached) :
    (∃ earlier, container.reach path = some earlier) ∨
      path <+: segments.map (·.name) ∨ segments.map (·.name) <+: path := by
  obtain ⟨name, rest, rfl⟩ := List.exists_cons_of_ne_nil nonempty
  induction segments generalizing container name rest with
  | nil => exact .inl ⟨reached, found⟩
  | cons segment segments ih =>
    rw [reach_of_object (by rw [insertNested_type, object])] at found
    rw [reach_of_object object]
    by_cases here : segment.name = name
    · subst here
      cases segments with
      | nil => exact .inr (.inr (List.prefix_append [segment.name] rest))
      | cons next segments =>
        cases rest with
        | nil => exact .inr (.inl (List.prefix_append [segment.name] _))
        | cons name rest =>
          rw [insertNested_cons, Table.get?_insert, if_pos rfl, Option.bind_some] at found
          have inside := nestHolder_type segment.isArray
            ((Table.get? container.properties segment.name).getD .object)
          rw [reach_cons_of_holder_eq ((holder_withHolder _ _ (by rw [insertNested_type, inside])).trans
            (holder_of_object (by rw [insertNested_type, inside])).symm)] at found
          rcases ih inside name rest (List.cons_ne_nil _ _) found with ⟨earlier, before⟩ | onWay
          · have before := reach_of_reach_nestHolder before
            cases present : Table.get? container.properties segment.name with
            | none =>
              rw [present] at before
              cases before
            | some property =>
              rw [present, Option.getD_some] at before
              exact .inl ⟨earlier, before⟩
          · rw [List.map_cons, List.prefix_cons_inj, List.prefix_cons_inj]
            exact .inr onWay
    · rw [get?_insertNested_of_ne container here] at found
      exact .inl ⟨reached, found⟩

theorem Publication.reach_foldl_place (object : container.type = some .object) (placed : List Publication)
    {path : List String} (nonempty : path ≠ []) {reached : Schema}
    (found : (placed.foldl place container).reach path = some reached) :
    (∃ earlier, container.reach path = some earlier) ∨
      ∃ publication ∈ placed, path <+: publication.path ∨ publication.path <+: path := by
  induction placed generalizing container with
  | nil => exact .inl ⟨reached, found⟩
  | cons publication rest ih =>
    have kept : (place container publication).type = some .object := by
      rw [place, insertNested_type, object]
    rcases ih kept found with ⟨between, behind⟩ | ⟨other, listed, onWay⟩
    · refine (reach_insertNested object _ _ _ nonempty behind).imp_right fun onWay => ?_
      exact ⟨publication, List.mem_cons_self, onWay⟩
    · exact .inr ⟨other, List.mem_cons_of_mem _ listed, onWay⟩

/-- Everything in the body stands on the way of a publication of the body or inside it. -/
theorem Publication.reach_bodyOf (published : List Publication) {path : List String} (nonempty : path ≠ [])
    {reached : Schema} (found : (bodyOf published).reach path = some reached) :
    ∃ publication ∈ inBody published, path <+: publication.path ∨ publication.path <+: path := by
  refine (reach_foldl_place rfl _ nonempty found).resolve_left ?_
  rintro ⟨earlier, nothing⟩
  obtain ⟨name, rest, rfl⟩ := List.exists_cons_of_ne_nil nonempty
  cases nothing

theorem rootName_eq_of_onWay {name other : String} (single : (splitNested name).length = 1)
    (onWay : segmentNames name <+: segmentNames other) : rootName other = rootName name := by
  obtain ⟨isArray, rest, segments⟩ := splitNested_cons other
  rw [segmentNames_eq_singleton single, segmentNames, segments, List.map_cons] at onWay
  exact (List.cons_prefix_cons.mp onWay).1.symm

theorem prefix_of_single {name other : String} (single : (splitNested name).length = 1)
    (onWay : segmentNames other <+: segmentNames name) : segmentNames name <+: segmentNames other := by
  obtain ⟨isArray, rest, segments⟩ := splitNested_cons other
  rw [segmentNames_eq_singleton single] at onWay ⊢
  rw [segmentNames, segments, List.map_cons] at onWay ⊢
  rw [(List.cons_prefix_cons.mp onWay).1]
  exact List.prefix_append [rootName name] _

/-- A route with nested names is built to the body that some shown parameters make, and to parameters that
come from them, from headers or from the path. -/
theorem buildParams_publishes (lexicon : Lexicon) (aliases : Table String String) (route : RouteDescriptor)
    (nested : route.params.keys.any isNested = true) :
    Always (fun built => ∃ published : List Publication,
      (published.map (·.entry)).Sublist (shownParams route.params) ∧
        (∀ body, built.1 = some body → body = bodyOf published) ∧
          ∀ parameter ∈ built.2,
            Source ⟨pathVariables route.path, aliases⟩ route.headers published parameter)
      (buildParams lexicon aliases route) := by
  let names : Names := ⟨pathVariables route.path, aliases⟩
  refine (addHeaders_source names route.headers).bind fun draft headers => ?_
  rw [if_pos nested]
  refine (addAllNested_publishes route.params draft).bind fun _ done => .pure ?_
  obtain ⟨published, listed, rfl⟩ := done
  exact ⟨published, listed, finish_publishes headers.1 headers.2 published⟩

/-- What is built of a route with nested names is made of publications of parameters that are shown: the
body of nothing else, so that everything in it stands on the way of one of them or inside it, and each
parameter outside the body of one of them, of a header or of a path variable. No hidden parameter is among
them, and if it has one segment nothing that is nested in it is either, nor is there anything in the body
at its place. -/
theorem buildParams_hides (lexicon : Lexicon) (aliases : Table String String) (route : RouteDescriptor)
    (nested : route.params.keys.any isNested = true) (progress : Progress) :
    let built := ((buildParams lexicon aliases route).run progress).1
    ∃ published : List Publication, (published.map (·.entry)).Sublist (shownParams route.params) ∧
      (∀ body, built.1 = some body → body = bodyOf published ∧
        ∀ path reached, path ≠ [] → body.reach path = some reached →
          ∃ publication ∈ inBody published, path <+: publication.path ∨ publication.path <+: path) ∧
      (∀ parameter ∈ built.2,
        Source ⟨pathVariables route.path, aliases⟩ route.headers published parameter) ∧
      ∀ hidden ∈ route.params, hidden.2.documentation.hidden = true →
        (∀ publication ∈ published, publication.entry ≠ hidden) ∧
          ((splitNested hidden.1).length = 1 →
            (∀ publication ∈ published, ¬segmentNames hidden.1 <+: publication.path) ∧
              ∀ body, built.1 = some body → body.reach (segmentNames hidden.1) = none) := by
  obtain ⟨published, listed, made, sources⟩ := buildParams_publishes lexicon aliases route nested progress
  have reached (body : Schema) (here : ((buildParams lexicon aliases route).run progress).1.1 = some body)
      (path : List String) (reached : Schema) (nonempty : path ≠ []) (found : body.reach path = some reached) :
      ∃ publication ∈ inBody published, path <+: publication.path ∨ publication.path <+: path :=
    reach_bodyOf published nonempty (made body here ▸ found)
  have shown (publication : Publication) (member : publication ∈ published) :
      publication.entry ∈ shownParams route.params := listed.subset (List.mem_map_of_mem member)
  refine ⟨published, listed, fun body here => ⟨made body here, reached body here⟩, sources, ?_⟩
  intro hidden member hides
  refine ⟨?_, fun single => ?_⟩
  · rintro publication among rfl
    have visible := (mem_shownParams.mp (shown publication among)).2.1
    rw [hides] at visible
    cases visible
  · have outside (publication : Publication) (among : publication ∈ published) :
        ¬segmentNames hidden.1 <+: publication.path := by
      intro onWay
      refine (mem_shownParams.mp (shown publication among)).2.2 ?_
      rw [rootName_eq_of_onWay single onWay]
      exact mem_hiddenRoots.mpr ⟨hidden, member, single, hides, rfl⟩
    refine ⟨outside, fun body here => Option.eq_none_iff_forall_not_mem.mpr fun property found => ?_⟩
    have nonempty : segmentNames hidden.1 ≠ [] := by
      rw [segmentNames_eq_singleton single]
      exact List.cons_ne_nil _ _
    obtain ⟨publication, inside, onWay⟩ := reached body here _ property nonempty found
    have among := (List.mem_filter.mp inside).1
    exact outside publication among (onWay.elim id (prefix_of_single single))

def hiddenParam : ParamSpec := { documentation := { location := some "body", hidden := true } }

def secretRoute : RouteDescriptor where
  path := "/users"
  method := .post
  params := [("user[address][zip]", bodyParam), ("user", hiddenParam), ("note[text]", bodyParam)]

theorem buildParams_hides_secret : secretRoute.params.keys.any isNested = true ∧
    ∃ body, ((buildParams {} [] secretRoute).run {}).1.1 = some body ∧ body.reach ["user"] = none := by
  have nested : secretRoute.params.keys.any isNested = true := by decide
  obtain ⟨published, -, -, -, hides⟩ := buildParams_hides {} [] secretRoute nested {}
  obtain ⟨body, here⟩ : ∃ body, ((buildParams {} [] secretRoute).run {}).1.1 = some body := ⟨_, rfl⟩
  have listed : ("user", hiddenParam) ∈ secretRoute.params := by simp [secretRoute]
  obtain ⟨-, root⟩ := hides ("user", hiddenParam) listed rfl
  exact ⟨nested, body, here, (root (by decide)).2 body here⟩

/-- A route with a hidden group inside a root that is shown. -/
def groupRoute : RouteDescriptor where
  path := "/users"
  method := .post
  params := [("user[name]", bodyParam), ("user[address]", hiddenParam), ("user[address][zip]", bodyParam)]

/-- What is nested in a hidden group is published with the group, although nothing else makes the place of
the group. -/
theorem hidden_group_shows_members : ¬∀ (lexicon : Lexicon) (aliases : Table String String)
    (route : RouteDescriptor), route.params.keys.any isNested = true → ∀ progress : Progress,
      ∀ hidden ∈ route.params, hidden.2.documentation.hidden = true →
        (∀ entry ∈ route.params, segmentNames entry.1 <+: segmentNames hidden.1 → entry.1 = hidden.1) →
          ∀ body, ((buildParams lexicon aliases route).run progress).1.1 = some body →
            body.reach (segmentNames hidden.1) = none := by
  intro hides
  have listed : ("user[address]", hiddenParam) ∈ groupRoute.params := by simp [groupRoute]
  have alone : ∀ entry ∈ groupRoute.params, segmentNames entry.1 <+: segmentNames "user[address]" →
      entry.1 = "user[address]" := by decide
  obtain ⟨body, made⟩ : ∃ body, ((buildParams {} [] groupRoute).run {}).1.1 = some body := ⟨_, rfl⟩
  have nothing := hides {} [] groupRoute (by decide) {} _ listed rfl alone body made
  have group : (((buildParams {} [] groupRoute).run {}).1.1.bind fun body =>
      body.reach (segmentNames "user[address]")).isSome = true := rfl
  rw [made, Option.bind_some, nothing] at group
  cases group

end Route

end ApiDoc
