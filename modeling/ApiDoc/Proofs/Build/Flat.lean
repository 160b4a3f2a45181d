import ApiDoc.Proofs.Build.Hiding

/-! # Routes without nested names

A route without nested names publishes its parameters that are not hidden one by one, in the order of
their declaration and each with what its own type resolves to (`addAllFlat_eq`). A publication of the body
makes a property of it, and of the headers and the publications outside the body the last one in each slot
is kept, at the place of the first one. Together with the path variables that nobody declares this is all
that is built of the route (`buildParams_documents`).
-/

namespace ApiDoc

namespace Route

open Schema Publication

variable {lexicon : Lexicon} {names : Names} {params : Table String ParamSpec} {draft : Draft}
  {published : List Publication}

/-- A loop whose steps resolve an item and use the outcome resolves all items and uses the outcomes. -/
theorem foldlM_eq_mapM {α β ι : Type} {step : α → ι → Build α} {resolve : ι → Build β} {use : α → β → α}
    (same : ∀ value item, step value item = do return use value (← resolve item)) (items : List ι)
    (initial : α) : items.foldlM step initial = do return (← items.mapM resolve).foldl use initial := by
  induction items generalizing initial with
  | nil => simp
  | cons item rest ih => simp [same, ih]

def headerOf (name : String) (header : HeaderSpec) (schema : Schema) : Parameter :=
  { name, location := .header, required := header.required, schema, description := header.description }

def resolveHeaders (lexicon : Lexicon) (headers : Table String HeaderSpec) : Build (List Parameter) :=
  headers.mapM fun entry => return headerOf entry.1 entry.2 (← lexicon.resolveDeclared entry.2.type)

theorem addHeaders_eq (lexicon : Lexicon) (headers : Table String HeaderSpec) (draft : Draft) :
    headers.foldlM (fun draft entry => addHeader lexicon draft entry.1 entry.2) draft =
      do return (← resolveHeaders lexicon headers).foldl Draft.put draft := by
  refine foldlM_eq_mapM (fun draft entry => ?_) headers draft
  simp [addHeader, headerOf]

/-- Resolves a parameter and finds its location. -/
def publicationIn (lexicon : Lexicon) (names : Names) (entry : String × ParamSpec) : Build Publication := do
  let schema ← paramSchema lexicon entry.2
  return ⟨entry, locate names entry.1 entry.2 schema, schema⟩

def resolveVisible (lexicon : Lexicon) (names : Names) (params : Table String ParamSpec) :
    Build (List Publication) :=
  (params.filter fun entry => !entry.2.documentation.hidden).mapM (publicationIn lexicon names)

/-- Whether a publication is the one of a parameter, at the location that the parameter resolves to. -/
def PublishedAs (names : Names) (entry : String × ParamSpec) (publication : Publication) : Prop :=
  publication.entry = entry ∧ publication.location = locate names entry.1 entry.2 publication.schema

theorem resolveVisible_publishedAs (lexicon : Lexicon) (names : Names) (params : Table String ParamSpec) :
    Always (List.Forall₂ (PublishedAs names) (params.filter fun entry => !entry.2.documentation.hidden))
      (resolveVisible lexicon names params) :=
  .forall₂_mapM (fun _ => .after fun _ => .pure ⟨rfl, rfl⟩) _

theorem entries_of_publishedAs {entries : Table String ParamSpec}
    (each : List.Forall₂ (PublishedAs names) entries published) : published.map (·.entry) = entries := by
  induction each with
  | nil => rfl
  | cons here _ ih => rw [List.map_cons, here.1, ih]

/-- Publications of visible parameters have the names of these. -/
theorem sublist_of_publishedAs
    (each : List.Forall₂ (PublishedAs names) (params.filter fun entry => !entry.2.documentation.hidden)
      published) : (published.map (·.entry.1)).Sublist (Table.keys params) := by
  have names : published.map (·.entry.1) =
      (params.filter fun entry => !entry.2.documentation.hidden).map Prod.fst := by
    rw [← entries_of_publishedAs each, List.map_map]
    rfl
  rw [names]
  exact List.filter_sublist.map _

namespace Publication

def property (publication : Publication) : String × Schema :=
  (publication.entry.1, publication.schema.describe publication.entry.2.description)

def addTo (container : Schema) (publication : Publication) : Schema :=
  container.addProperty publication.property.1 publication.property.2 publication.entry.2.isRequired

def publishFlat (names : Names) (draft : Draft) (publication : Publication) : Draft :=
  if publication.location = .body then { draft with body := addTo draft.body publication }
  else draft.put (publication.parameter names)

def outside (names : Names) (published : List Publication) : List Parameter :=
  (published.filter (·.location ≠ .body)).map (·.parameter names)

def flatBody (published : List Publication) : Schema :=
  { Schema.object with
    properties := (inBody published).map property
    required := ((inBody published).filter (·.entry.2.isRequired)).map (·.entry.1) }

end Publication

/-- The parameters of a route without nested names are resolved in turn and then published in turn. -/
theorem addAllFlat_eq (lexicon : Lexicon) (names : Names) (params : Table String ParamSpec) (draft : Draft) :
    addAllFlat lexicon names params draft =
      do return (← resolveVisible lexicon names params).foldl (publishFlat names) draft := by
  have step (draft : Draft) (entry : String × ParamSpec) : addFlat lexicon names draft entry.1 entry.2 =
      if (!entry.2.documentation.hidden) = true
      then do return publishFlat names draft (← publicationIn lexicon names entry) else pure draft := by
    unfold addFlat publicationIn publishFlat
    cases entry.2.documentation.hidden with
    | true => rfl
    | false =>
      simp only [Bool.false_eq_true, if_false, Bool.not_false, if_true, bind_assoc, pure_bind]
      refine congrArg (paramSchema lexicon entry.2 >>= ·) (funext fun schema => ?_)
      split <;> rfl
  unfold addAllFlat resolveVisible
  rw [← foldlM_eq_mapM fun _ _ => rfl, List.foldlM_filter]
  simp only [step]

def bySlot (parameters : List Parameter) : Table (Location × String) Parameter :=
  parameters.map fun parameter => (parameter.slot, parameter)

theorem keys_bySlot (parameters : List Parameter) :
    Table.keys (bySlot parameters) = parameters.map Parameter.slot := List.map_map

/-- Every publication outside the body is put under its slot, whatever the others do to the body. -/
theorem bucket_foldl_of_step {step : Draft → Publication → Draft}
    (steps : ∀ draft publication, (step draft publication).bucket =
      if publication.location = .body then draft.bucket else (draft.put (publication.parameter names)).bucket)
    (published : List Publication) (draft : Draft) :
    (published.foldl step draft).bucket = Table.extend draft.bucket (bySlot (outside names published)) := by
  induction published generalizing draft with
  | nil => rfl
  | cons publication rest ih =>
    rw [List.foldl_cons, ih, steps]
    unfold outside bySlot
    by_cases here : publication.location = .body
    · rw [if_pos here, List.filter_cons_of_neg (by simp [here])]
    · rw [if_neg here, List.filter_cons_of_pos (by simp [here])]
      rfl

theorem bucket_foldl_publishFlat (published : List Publication) (draft : Draft) :
    (published.foldl (publishFlat names) draft).bucket =
      Table.extend draft.bucket (bySlot (outside names published)) := by
  refine bucket_foldl_of_step (fun draft publication => ?_) published draft
  unfold publishFlat
  split <;> rfl

theorem bucket_foldl_put (parameters : List Parameter) (draft : Draft) :
    (parameters.foldl Draft.put draft).bucket =
      Table.extend draft.bucket (bySlot parameters) := by
  induction parameters generalizing draft with
  | nil => rfl
  | cons parameter rest ih =>
    rw [List.foldl_cons, ih]
    rfl

theorem body_foldl_put (parameters : List Parameter) (draft : Draft) :
    (parameters.foldl Draft.put draft).body = draft.body := by
  induction parameters generalizing draft with
  | nil => rfl
  | cons parameter rest ih => exact ih (draft.put parameter)

theorem body_foldl_publishFlat (published : List Publication) (draft : Draft) :
    (published.foldl (publishFlat names) draft).body = (inBody published).foldl addTo draft.body := by
  induction published generalizing draft with
  | nil => rfl
  | cons publication rest ih =>
    rw [List.foldl_cons, ih]
    unfold publishFlat inBody
    by_cases here : publication.location = .body
    · rw [if_pos here, List.filter_cons_of_pos (by simp [here]), List.foldl_cons]
    · rw [if_neg here, List.filter_cons_of_neg (by simp [here])]
      rfl

theorem addTo_of_not_mem {container : Schema} {publication : Publication}
    (absent : publication.entry.1 ∉ Table.keys container.properties)
    (known : container.required ⊆ Table.keys container.properties) :
    addTo container publication =
      { container with
        properties := container.properties ++ [property publication]
        required := container.required ++
          if publication.entry.2.isRequired then [publication.entry.1] else [] } := by
  have optional : publication.entry.1 ∉ container.required := fun member => absent (known member)
  unfold addTo Schema.addProperty
  have written : Table.insert container.properties (property publication).1 (property publication).2 =
      container.properties ++ [property publication] := Table.insert_of_not_mem absent _
  rw [written]
  congr 1
  split
  · exact if_neg optional
  · exact (List.erase_of_not_mem optional).trans (List.append_nil _).symm

/-- Properties with new names are added behind the others. -/
theorem foldl_addTo {container : Schema} {added : List Publication}
    (distinct : (Table.keys container.properties ++ added.map (·.entry.1)).Nodup)
    (known : container.required ⊆ Table.keys container.properties) :
    added.foldl addTo container =
      { container with
        properties := container.properties ++ added.map property
        required := container.required ++ (added.filter (·.entry.2.isRequired)).map (·.entry.1) } := by
  induction added generalizing container with
  | nil =>
    cases container
    simp
  | cons publication rest ih =>
    have absent : publication.entry.1 ∉ Table.keys container.properties := fun present =>
      (List.nodup_append.mp distinct).2.2 _ present _ List.mem_cons_self rfl
    have keys : Table.keys (container.properties ++ [property publication]) =
        Table.keys container.properties ++ [publication.entry.1] := by simp [Table.keys, property]
    rw [List.foldl_cons, addTo_of_not_mem absent known, ih]
    · simp only [List.append_assoc, List.map_cons, List.filter_cons, List.singleton_append]
      split <;> simp
    · rw [keys, List.append_assoc]
      exact distinct
    · rw [keys]
      refine List.append_subset.mpr ⟨fun name member => List.mem_append_left _ (known member), ?_⟩
      split
      · exact List.subset_append_right _ _
      · exact List.nil_subset _

/-- Publications of parameters with different names make the body that has a property of each. -/
theorem foldl_addTo_object (distinct : (published.map (·.entry.1)).Nodup) :
    (inBody published).foldl addTo .object = flatBody published := by
  have within : ((inBody published).map (·.entry.1)).Nodup := distinct.sublist (List.filter_sublist.map _)
  exact foldl_addTo (by simpa [Schema.object, Table.keys] using within) (List.nil_subset _)

/-- Of some parameters the last one in each slot, at the place of the first one in it. -/
structure KeepsLast (all kept : List Parameter) : Prop where
  slots : kept.map Parameter.slot = (all.map Parameter.slot).eraseDups
  last : ∀ parameter ∈ kept, ∃ before after, all = before ++ parameter :: after ∧
    parameter.slot ∉ after.map Parameter.slot

/-- Putting parameters under their slots keeps the last one in each. -/
theorem keepsLast_ofEntries (all : List Parameter) :
    KeepsLast all (Table.ofEntries (bySlot all)).values := by
  have keyed : ∀ entry ∈ Table.ofEntries (bySlot all), entry.1 = entry.2.slot := by
    intro entry member
    obtain ⟨parameter, -, rfl⟩ := List.mem_map.mp (Table.mem_of_mem_ofEntries member)
    rfl
  constructor
  case slots =>
    rw [← keys_bySlot all, ← Table.keys_ofEntries]
    unfold Table.values Table.keys
    rw [List.map_map]
    exact List.map_congr_left fun entry member => (keyed entry member).symm
  case last =>
    intro parameter member
    obtain ⟨entry, listed, rfl⟩ := List.mem_map.mp member
    obtain ⟨before, after, split, last⟩ := Table.last_of_mem_ofEntries listed
    obtain ⟨before, behind, rfl, -, rest⟩ := List.map_eq_append_iff.mp split
    obtain ⟨parameter, after, rfl, rfl, rfl⟩ := List.map_eq_cons_iff.mp rest
    refine ⟨before, after, rfl, fun later => last ?_⟩
    exact (keys_bySlot after).symm ▸ later

/-- In the slot of each parameter the last one is kept. -/
theorem KeepsLast.exists_last {all kept : List Parameter} {parameter : Parameter}
    (keeps : KeepsLast all kept) (member : parameter ∈ all) :
    ∃ other ∈ kept, other.slot = parameter.slot ∧ ∃ before after, all = before ++ other :: after ∧
      other.slot ∉ after.map Parameter.slot := by
  have taken : parameter.slot ∈ kept.map Parameter.slot := by
    rw [keeps.slots, List.mem_eraseDups]
    exact List.mem_map_of_mem member
  obtain ⟨other, listed, same⟩ := List.mem_map.mp taken
  exact ⟨other, listed, same, keeps.last other listed⟩

/-- The last parameter in a slot is kept. -/
theorem KeepsLast.mem_of_last {all kept before after : List Parameter} {parameter : Parameter}
    (keeps : KeepsLast all kept) (split : all = before ++ parameter :: after)
    (last : parameter.slot ∉ after.map Parameter.slot) : parameter ∈ kept := by
  have member : parameter ∈ all := by simp [split]
  obtain ⟨other, listed, same, before', after', split', last'⟩ := keeps.exists_last member
  -- Neither of the two stands behind the other, since both are the last in their slot.
  rcases List.append_eq_append_iff.mp (split.symm.trans split') with ⟨between, -, rest⟩ | ⟨between, -, rest⟩
  · cases between with
    | nil => exact (List.cons.inj rest).1 ▸ listed
    | cons first between =>
      refine absurd ?_ last
      rw [(List.cons.inj rest).2]
      simp [same]
  · cases between with
    | nil => exact (List.cons.inj rest).1 ▸ listed
    | cons first between =>
      refine absurd ?_ last'
      rw [(List.cons.inj rest).2]
      simp [same]

/-- A draft whose bucket was filled with parameters in turn ends in what is kept of them, behind the path
variables that none of them declares. -/
theorem finish_keepsLast {all : List Parameter} (bucket : draft.bucket = Table.ofEntries (bySlot all)) :
    ∃ kept, KeepsLast all kept ∧
      (draft.finish names).2 = ((names.pathVariables.map names.published).filter fun name =>
        (Location.path, name) ∉ all.map Parameter.slot).map filledIn ++ kept := by
  refine ⟨draft.bucket.values, bucket ▸ keepsLast_ofEntries all, ?_⟩
  have taken (name : String) : draft.bucket.contains (.path, name) = true ↔
      (Location.path, name) ∈ all.map Parameter.slot := by
    rw [Table.contains_iff_mem_keys, bucket, Table.keys_ofEntries, List.mem_eraseDups, keys_bySlot]
  have free : missing names draft = (names.pathVariables.map names.published).filter fun name =>
      (Location.path, name) ∉ all.map Parameter.slot := by
    refine List.filter_congr fun name _ => Bool.eq_iff_iff.mpr ?_
    rw [Bool.not_eq_true', decide_eq_true_iff, ← taken, Bool.not_eq_true]
  unfold Draft.finish
  rw [undeclared_eq_map, free]

/-- What is built of a route without nested names whose headers and publications are the given ones. -/
structure Documents (names : Names) (route : RouteDescriptor) (headers : List Parameter)
    (published : List Publication) (built : Option Schema × List Parameter) : Prop where
  /-- Every header is there in its place, under its own name. -/
  fromHeaders : List.Forall₂ (fun entry parameter => ∃ schema, parameter = headerOf entry.1 entry.2 schema)
    route.headers headers
  /-- Every parameter that is not hidden is published once, at its location, and no other one is. -/
  fromParams : List.Forall₂ (PublishedAs names) route.visibleParams published
  noBody : built.1 = none ↔ ∀ publication ∈ published, publication.location ≠ .body
  body : ∀ body, built.1 = some body → body = flatBody published
  /-- Path variables that nobody declares come first, and what is kept of all others follows. -/
  parameters : ∃ kept, KeepsLast (headers ++ outside names published) kept ∧
    built.2 = ((names.pathVariables.map names.published).filter fun name =>
      (Location.path, name) ∉ (headers ++ outside names published).map Parameter.slot).map filledIn ++ kept

/-- The headers of a route without nested names are resolved first, and then its parameters. -/
theorem buildParams_eq (lexicon : Lexicon) (aliases : Table String String) {route : RouteDescriptor}
    (unnested : route.params.keys.any isNested = false) :
    buildParams lexicon aliases route = do
      let headers ← resolveHeaders lexicon route.headers
      let published ← resolveVisible lexicon ⟨pathVariables route.path, aliases⟩ route.params
      return (published.foldl (publishFlat ⟨pathVariables route.path, aliases⟩)
        (headers.foldl Draft.put {})).finish ⟨pathVariables route.path, aliases⟩ := by
  have headers := addHeaders_eq lexicon route.headers {}
  unfold buildParams
  simp only [unnested, Bool.false_eq_true, if_false, addAllFlat_eq]
  rw [headers]
  simp

/-- Publications of parameters with different names end in what is documented. -/
theorem documents_of_resolved {route : RouteDescriptor} (distinct : (Table.keys route.params).Nodup)
    {headers : List Parameter}
    (fromHeaders : List.Forall₂ (fun entry parameter => ∃ schema, parameter = headerOf entry.1 entry.2 schema)
      route.headers headers)
    (fromParams : List.Forall₂ (PublishedAs names) route.visibleParams published) :
    Documents names route headers published
      ((published.foldl (publishFlat names) (headers.foldl Draft.put {})).finish names) := by
  let all := headers ++ outside names published
  let draft := published.foldl (publishFlat names) (headers.foldl Draft.put {})
  have ownNames : (published.map (·.entry.1)).Nodup := distinct.sublist (sublist_of_publishedAs fromParams)
  have body : draft.body = flatBody published := by
    rw [body_foldl_publishFlat, body_foldl_put, foldl_addTo_object ownNames]
  have bucket : draft.bucket = Table.ofEntries (bySlot all) := by
    unfold bySlot
    rw [bucket_foldl_publishFlat, bucket_foldl_put, List.map_append]
    exact (List.foldl_append ..).symm
  constructor
  case fromHeaders => exact fromHeaders
  case fromParams => exact fromParams
  case noBody =>
    have none_iff : draft.body.properties.isEmpty = true ↔
        ∀ publication ∈ published, publication.location ≠ .body := by
      rw [body]
      simp [flatBody, inBody]
    rw [← none_iff]
    unfold Draft.finish
    split
    · next empty => exact iff_of_true rfl empty
    · next filled => exact iff_of_false (Option.some_ne_none _) filled
  case body =>
    intro made here
    have same := (Option.ite_none_left_eq_some.mp here).2
    rw [← body]
    exact (Option.some.inj same).symm
  case parameters => exact finish_keepsLast bucket

/-- A route without nested names documents each of its parameters that is not hidden, and no other one:
those of the body as the properties of the body, in the order of their declaration, and the others under
their locations and published names. Of several with one location and name, headers among them, the last
one stands at the place of the first one. Path variables that nobody declares come first, as required
strings. -/
theorem buildParams_documents (lexicon : Lexicon) (aliases : Table String String) {route : RouteDescriptor}
    (distinct : (Table.keys route.params).Nodup) (unnested : route.params.keys.any isNested = false)
    (progress : Progress) :
    let names : Names := ⟨pathVariables route.path, aliases⟩
    let headers := (resolveHeaders lexicon route.headers).run progress
    let published := (resolveVisible lexicon names route.params).run headers.2
    let built := (buildParams lexicon aliases route).run progress
    built.2 = published.2 ∧ Documents names route headers.1 published.1 built.1 := by
  intro names headers published built
  have made : built = ((published.1.foldl (publishFlat names) (headers.1.foldl Draft.put {})).finish names,
      published.2) := by
    unfold built
    rw [buildParams_eq lexicon aliases unnested]
    rfl
  rw [made]
  refine ⟨rfl, documents_of_resolved distinct ?_ ?_⟩
  · exact Always.forall₂_mapM (fun entry => .after fun schema => .pure ⟨schema, rfl⟩) route.headers progress
  · exact resolveVisible_publishedAs lexicon names route.params headers.2

/-- A route that hides a variable of its path and gives one name to several parameters. -/
def shelfRoute : RouteDescriptor where
  path := "/shelves/:shelf/books/:book"
  method := .post
  headers := [("trace", {})]
  params :=
    [("book", { documentation := { hidden := true } }), ("cover", { type := some (.named "File") }),
      ("page", {}), ("trace", { documentation := { location := some "header" } }),
      ("title", { required := some true, documentation := { location := some "body" } }), ("offset", {})]

theorem buildParams_documents_shelf :
    let aliases : Table String String := [("page", "position"), ("offset", "position")]
    let built := (buildParams {} aliases shelfRoute).run {}
    (Table.keys shelfRoute.params).Nodup ∧ shelfRoute.params.keys.any isNested = false ∧
      built.1.1.map (fun body => (Table.keys body.properties, body.required)) =
        some (["cover", "title"], ["title"]) ∧
      built.1.2.map Parameter.slot =
        [(.path, "shelf"), (.path, "book"), (.header, "trace"), (.query, "position")] ∧
      ∃ headers published, Documents ⟨["shelf", "book"], aliases⟩ shelfRoute headers published built.1 := by
  intro aliases built
  have distinct : (Table.keys shelfRoute.params).Nodup := by decide
  have unnested : shelfRoute.params.keys.any isNested = false := by decide
  obtain ⟨-, documents⟩ := buildParams_documents {} aliases distinct unnested {}
  exact ⟨distinct, unnested, rfl, rfl, _, _, documents⟩

end Route

end ApiDoc
