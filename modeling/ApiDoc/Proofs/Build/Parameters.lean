import ApiDoc.Proofs.Build.Laws
import ApiDoc.Proofs.Tables

/-! # The parameters of a route in lockstep

Two builds that add the parameters of one route resolve the same tokens in the same order, those of
`flatTokens` or, if there are nested names, of `rootTokens` and `innerTokens`. By a law of schemas
what they make agrees in everything but the schemas, and those are related
(`buildParams_lockstep`).
-/

namespace ApiDoc

/-- What some declared type makes. -/
def Site (leaf : Option TypeToken → Schema → Schema → Prop) (first second : Schema) : Prop :=
  ∃ declared, leaf declared first second

/-- Parameters that agree in everything but their schemas, which are related. -/
def Parameter.Related (site : Schema → Schema → Prop) (first second : Parameter) : Prop :=
  second = { first with schema := second.schema } ∧ site first.schema second.schema

namespace Route

variable {catalog : Catalog} {route : RouteDescriptor}
  {answers : TypeToken → Schema → Schema → Prop}
  {leaf : Option TypeToken → Schema → Schema → Prop}
  {inside : Table String ParamSpec → Schema → Schema → Prop} {body : Schema → Schema → Prop}
  {names : Names} {draft draft' : Draft} {name : String} {first second : Schema}

/-- Drafts that agree in everything but their schemas, which are related. -/
structure Draft.Related (leaf : Option TypeToken → Schema → Schema → Prop)
    (body : Schema → Schema → Prop) (draft draft' : Draft) : Prop where
  bucket : Table.Related (fun _ => Parameter.Related (Site leaf)) draft.bucket draft'.bucket
  body : body draft.body draft'.body

theorem Draft.Related.put {parameter parameter' : Parameter} (here : draft.Related leaf body draft')
    (there : parameter.Related (Site leaf) parameter') :
    (draft.put parameter).Related leaf body (draft'.put parameter') := by
  have name : parameter'.name = parameter.name := by rw [there.1]
  have location : parameter'.location = parameter.location := by rw [there.1]
  refine ⟨?_, here.body⟩
  unfold Draft.put
  rw [name, location]
  exact here.bucket.insert there

theorem parameterOf_related {declared : Option TypeToken} (related : leaf declared first second)
    (location : Location) (spec : ParamSpec) :
    (parameterOf names name location spec first).Related (Site leaf)
      (parameterOf names name location spec second) :=
  ⟨rfl, declared, related⟩

theorem locate_eq (same : first.isType .file = second.isType .file) (spec : ParamSpec) :
    locate names name spec first = locate names name spec second := by
  unfold locate
  rw [same]

section
variable (law : SiteLaw route answers leaf inside body)
include law

theorem resolveDeclared_lockstep (declared : Option TypeToken) :
    Lockstep catalog answers (leaf declared) declared.toList
      (Lexicon.resolveDeclared { catalog } declared)
      (Lexicon.resolveDeclared { catalog } declared) := by
  cases declared with
  | none => exact .pure law.string
  | some token => exact .token fun _ _ => law.answered

theorem paramSchema_lockstep (spec : ParamSpec) :
    Lockstep catalog answers (leaf spec.type) spec.type.toList (paramSchema { catalog } spec)
      (paramSchema { catalog } spec) :=
  (resolveDeclared_lockstep law spec.type).map fun _ _ here =>
    law.defaulted spec.defaultValue (law.restrict spec.values here)

/-- The tokens that a parameter of a route without nested names uses. -/
def flatTokens (entry : String × ParamSpec) : List TypeToken :=
  if entry.2.documentation.hidden then [] else entry.2.type.toList

theorem addFlat_lockstep (here : draft.Related leaf body draft') (entry : String × ParamSpec) :
    Lockstep catalog answers (Draft.Related leaf body) (flatTokens entry)
      (addFlat { catalog } names draft entry.1 entry.2)
      (addFlat { catalog } names draft' entry.1 entry.2) := by
  unfold addFlat flatTokens
  split
  · exact .pure here
  · refine (paramSchema_lockstep law entry.2).last fun schema schema' there => ?_
    dsimp only
    rw [locate_eq (law.file there)]
    split
    · exact .pure ⟨here.bucket, law.addProperty _ _ here.body (law.describe _ there)⟩
    · exact .pure (here.put (parameterOf_related there _ _))

theorem addAllFlat_lockstep (here : draft.Related leaf body draft') (params : Table String ParamSpec) :
    Lockstep catalog answers (Draft.Related leaf body) (params.flatMap flatTokens)
      (addAllFlat { catalog } names params draft) (addAllFlat { catalog } names params draft') :=
  Lockstep.foldlM_keeps params (fun entry _ _ here => addFlat_lockstep law here entry) here

end

/-- The first segment keeps its name. -/
theorem segmentsFrom_cons (segment : NameSegment) (groups : List (List Char)) :
    ∃ isArray rest, segmentsFrom segment groups = ⟨segment.name, isArray⟩ :: rest := by
  induction groups generalizing segment with
  | nil => exact ⟨segment.isArray, [], rfl⟩
  | cons group groups ih =>
    rw [segmentsFrom]
    split
    · exact ih { segment with isArray := true }
    · exact ⟨segment.isArray, _, rfl⟩

/-- The first segment of a name has the name of the root. -/
theorem splitNested_cons (name : String) :
    ∃ isArray rest, splitNested name = ⟨rootName name, isArray⟩ :: rest :=
  segmentsFrom_cons ⟨rootName name, false⟩ _

theorem segmentNames_eq_singleton (single : (splitNested name).length = 1) :
    segmentNames name = [rootName name] := by
  obtain ⟨isArray, rest, split⟩ := splitNested_cons name
  rw [split, List.length_cons] at single
  rw [segmentNames, split, List.length_eq_zero_iff.mp (Nat.succ.inj single)]
  rfl

/-- The tokens that the first pass over a parameter of a route with nested names uses. -/
def rootTokens (entry : String × ParamSpec) : List TypeToken :=
  if (splitNested entry.1).length = 1 then flatTokens entry else []

def hiddenRoots (params : Table String ParamSpec) : List String :=
  params.flatMap fun entry =>
    if (splitNested entry.1).length = 1 ∧ entry.2.documentation.hidden then [rootName entry.1] else []

/-- The tokens that the second pass over a parameter of a route with nested names uses. -/
def innerTokens (hidden : List String) (entry : String × ParamSpec) : List TypeToken :=
  if (splitNested entry.1).length = 1 ∨ rootName entry.1 ∈ hidden then [] else flatTokens entry

/-- What two builds know of a visible root. -/
def RootRelated (route : RouteDescriptor) (leaf : Option TypeToken → Schema → Schema → Prop)
    (root : String) (first second : Location × Schema) : Prop :=
  first.1 = second.1 ∧ ∃ source ∈ route.visibleParams, segmentNames source.1 = [root] ∧
    leaf source.2.type first.2 second.2

/-- What two builds know of the roots of the parameters in `done`. -/
structure Roots.Related (route : RouteDescriptor)
    (leaf : Option TypeToken → Schema → Schema → Prop) (done : Table String ParamSpec)
    (roots roots' : Roots) : Prop where
  hidden : roots.hidden = hiddenRoots done
  hidden' : roots'.hidden = hiddenRoots done
  visible : Table.Related (RootRelated route leaf) roots.visible roots'.visible

section
variable (law : SiteLaw route answers leaf inside body)
include law

theorem noteRoot_lockstep {roots roots' : Roots} {done : Table String ParamSpec}
    (here : roots.Related route leaf done roots') {entry : String × ParamSpec}
    (member : entry ∈ route.params) :
    Lockstep catalog answers (Roots.Related route leaf (done ++ [entry])) (rootTokens entry)
      (noteRoot { catalog } names roots entry.1 entry.2)
      (noteRoot { catalog } names roots' entry.1 entry.2) := by
  have hidden : hiddenRoots (done ++ [entry]) = hiddenRoots done ++ hiddenRoots [entry] :=
    List.flatMap_append ..
  obtain ⟨isArray, rest, segments⟩ := splitNested_cons entry.1
  unfold noteRoot rootTokens flatTokens
  rw [segments]
  cases rest with
  | cons next rest =>
    have none : hiddenRoots [entry] = [] := by simp [hiddenRoots, segments]
    rw [none, List.append_nil] at hidden
    exact .pure ⟨here.hidden.trans hidden.symm, here.hidden'.trans hidden.symm, here.visible⟩
  | nil =>
    simp only [List.length_singleton, if_true]
    split
    · next hides =>
      have one : hiddenRoots [entry] = [rootName entry.1] := by simp [hiddenRoots, segments, hides]
      rw [one] at hidden
      exact .pure ⟨by rw [hidden, here.hidden], by rw [hidden, here.hidden'], here.visible⟩
    · next shows =>
      have none : hiddenRoots [entry] = [] := by simp [hiddenRoots, shows]
      rw [none, List.append_nil] at hidden
      refine (paramSchema_lockstep law entry.2).last fun schema schema' there => .pure ?_
      refine ⟨here.hidden.trans hidden.symm, here.hidden'.trans hidden.symm, ?_⟩
      refine here.visible.insert ⟨locate_eq (law.file there) entry.2, entry, ?_, ?_, there⟩
      · exact RouteDescriptor.mem_visibleParams.mpr ⟨member, by simpa using shows⟩
      · exact segmentNames_eq_singleton (by rw [segments]; rfl)

/-- Drafts behind the parameters in `done`, of which some were placed in the body. -/
def NestedRelated (leaf : Option TypeToken → Schema → Schema → Prop)
    (inside : Table String ParamSpec → Schema → Schema → Prop) (done : Table String ParamSpec)
    (draft draft' : Draft) : Prop :=
  ∃ placed : Table String ParamSpec, placed.Sublist done ∧
    (∀ entry ∈ placed, entry.2.documentation.hidden = false) ∧
      draft.Related leaf (inside placed) draft'

omit law in
theorem NestedRelated.skip {done : Table String ParamSpec} {entry : String × ParamSpec}
    (here : NestedRelated leaf inside done draft draft') :
    NestedRelated leaf inside (done ++ [entry]) draft draft' := by
  obtain ⟨placed, sublist, shown, related⟩ := here
  exact ⟨placed, sublist.trans (List.sublist_append_left _ _), shown, related⟩

theorem placeNested_related (nested : route.params.keys.any isNested = true)
    {done rest : Table String ParamSpec} {entry source : String × ParamSpec}
    (split : route.params = done ++ entry :: rest)
    (here : NestedRelated leaf inside done draft draft')
    (shows : entry.2.documentation.hidden = false) (known : source ∈ route.visibleParams)
    (sameNames : segmentNames source.1 = segmentNames entry.1)
    (there : leaf source.2.type first second) (location : Location) :
    NestedRelated leaf inside (done ++ [entry])
      (placeNested names draft entry.1 (splitNested entry.1) entry.2 location first)
      (placeNested names draft' entry.1 (splitNested entry.1) entry.2 location second) := by
  unfold placeNested
  split
  · obtain ⟨placed, sublist, shown, related⟩ := here
    have shownAll : ∀ other ∈ placed ++ [entry], other.2.documentation.hidden = false := by
      intro other member
      rcases List.mem_append.mp member with early | last
      · exact shown other early
      · exact List.mem_singleton.mp last ▸ shows
    have within : (placed ++ [entry]).Sublist route.visibleParams := by
      have inParams : (placed ++ [entry]).Sublist route.params := by
        rw [split, List.append_cons done entry rest]
        exact (sublist.append (List.Sublist.refl [entry])).trans (List.sublist_append_left _ _)
      have filtered := inParams.filter fun entry => !entry.2.documentation.hidden
      rwa [List.filter_eq_self.mpr (by simpa using shownAll)] at filtered
    refine ⟨placed ++ [entry], sublist.append (List.Sublist.refl _), shownAll, related.bucket, ?_⟩
    exact law.insertNested _ nested related.body within known sameNames (law.describe _ there)
  · obtain ⟨placed, sublist, shown, related⟩ := here
    refine ⟨placed, sublist.trans (List.sublist_append_left _ _), shown, ?_⟩
    exact related.put (parameterOf_related there _ _)

/-- The drafts of two builds, and the roots that are not added yet. -/
def PendingRelated (route : RouteDescriptor) (leaf : Option TypeToken → Schema → Schema → Prop)
    (inside : Table String ParamSpec → Schema → Schema → Prop) (done : Table String ParamSpec)
    (state state' : Draft × Table String (Location × Schema)) : Prop :=
  NestedRelated leaf inside done state.1 state'.1 ∧
    Table.Related (RootRelated route leaf) state.2 state'.2

theorem addNested_lockstep (nested : route.params.keys.any isNested = true) {roots roots' : Roots}
    (known : roots.Related route leaf route.params roots')
    {done rest : Table String ParamSpec} {entry : String × ParamSpec}
    {state state' : Draft × Table String (Location × Schema)}
    (split : route.params = done ++ entry :: rest)
    (here : PendingRelated route leaf inside done state state') :
    Lockstep catalog answers (PendingRelated route leaf inside (done ++ [entry]))
      (innerTokens (hiddenRoots route.params) entry)
      (addNested { catalog } names roots state entry.1 entry.2)
      (addNested { catalog } names roots' state' entry.1 entry.2) := by
  obtain ⟨draft, pending⟩ := state
  obtain ⟨draft', pending'⟩ := state'
  obtain ⟨drafts, waiting⟩ := here
  dsimp only at drafts waiting
  unfold addNested innerTokens flatTokens
  dsimp only
  rw [known.hidden, known.hidden']
  by_cases hides : entry.2.documentation.hidden = true
  · simp only [hides, Bool.true_or, if_true, ite_self]
    exact .pure ⟨drafts.skip, waiting⟩
  have shows : entry.2.documentation.hidden = false := by simpa using hides
  by_cases covered : rootName entry.1 ∈ hiddenRoots route.params
  · simp only [List.contains_eq_mem, covered, decide_true, Bool.or_true, if_true, or_true]
    exact .pure ⟨drafts.skip, waiting⟩
  by_cases single : (splitNested entry.1).length = 1
  · simp only [shows, List.contains_eq_mem, covered, decide_false, Bool.or_false, Bool.false_eq_true,
      if_false, single, true_or, if_true]
    rcases waiting.get? (rootName entry.1) with ⟨found, found'⟩ | ⟨root, root', found, found', related⟩
    · rw [found, found']
      exact .pure ⟨drafts.skip, waiting⟩
    · obtain ⟨sameLocation, source, listed, sameNames, there⟩ := related
      rw [← segmentNames_eq_singleton single] at sameNames
      rw [found, found']
      refine .pure ⟨?_, waiting.erase _⟩
      rw [← sameLocation]
      exact placeNested_related law nested split drafts shows listed sameNames there root.1
  · simp only [shows, List.contains_eq_mem, covered, decide_false, Bool.or_false, Bool.false_eq_true,
      if_false, single, or_false]
    refine (paramSchema_lockstep law entry.2).last fun schema schema' there => .pure ⟨?_, waiting⟩
    have member : entry ∈ route.params := by simp [split]
    have listed := RouteDescriptor.mem_visibleParams.mpr ⟨member, shows⟩
    rcases known.visible.get? (rootName entry.1) with
      ⟨found, found'⟩ | ⟨root, root', found, found', related⟩
    · simp only [found, found', locate_eq (law.file there)]
      exact placeNested_related law nested split drafts shows listed rfl there _
    · simp only [found, found', ← related.1]
      exact placeNested_related law nested split drafts shows listed rfl there _

theorem addAllNested_lockstep (nested : route.params.keys.any isNested = true)
    (here : draft.Related leaf (inside []) draft') :
    Lockstep catalog answers (Draft.Related leaf body)
      (route.params.flatMap rootTokens ++
        route.params.flatMap (innerTokens (hiddenRoots route.params)))
      (addAllNested { catalog } names route.params draft)
      (addAllNested { catalog } names route.params draft') := by
  have roots : Lockstep catalog answers (Roots.Related route leaf route.params)
      (route.params.flatMap rootTokens)
      (route.params.foldlM (fun roots entry => noteRoot { catalog } names roots entry.1 entry.2)
        ({} : Roots))
      (route.params.foldlM (fun roots entry => noteRoot { catalog } names roots entry.1 entry.2)
        ({} : Roots)) := by
    refine Lockstep.foldlM route.params ?_ ⟨rfl, rfl, .nil⟩
    intro done entry rest roots roots' split here
    exact noteRoot_lockstep law here (by simp [split])
  refine roots.bind fun roots roots' known => ?_
  have states : Lockstep catalog answers (PendingRelated route leaf inside route.params)
      (route.params.flatMap (innerTokens (hiddenRoots route.params)))
      (route.params.foldlM (fun state entry => addNested { catalog } names roots state entry.1 entry.2)
        (draft, roots.visible))
      (route.params.foldlM (fun state entry => addNested { catalog } names roots' state entry.1 entry.2)
        (draft', roots'.visible)) := by
    refine Lockstep.foldlM route.params ?_ ⟨⟨[], .slnil, by simp, here⟩, known.visible⟩
    intro done entry rest state state' split here
    exact addNested_lockstep law nested known split here
  refine states.map fun state state' behind => ?_
  obtain ⟨⟨placed, -, -, related⟩, -⟩ := behind
  exact ⟨related.bucket, law.whole related.body⟩

theorem addHeader_lockstep {bodies : Schema → Schema → Prop}
    (here : draft.Related leaf bodies draft') (entry : String × HeaderSpec) :
    Lockstep catalog answers (Draft.Related leaf bodies) entry.2.type.toList
      (addHeader { catalog } draft entry.1 entry.2) (addHeader { catalog } draft' entry.1 entry.2) :=
  (resolveDeclared_lockstep law entry.2.type).map fun _ _ there => here.put ⟨rfl, _, there⟩

omit law in
theorem undeclared_eq (here : draft.Related leaf body draft') :
    undeclared names draft = undeclared names draft' := by
  unfold undeclared
  simp only [here.bucket.contains]

omit law in
theorem schema_of_mem_undeclared {parameter : Parameter}
    (member : parameter ∈ undeclared names draft) : parameter.schema = .string := by
  obtain ⟨variable_, -, made⟩ := List.mem_filterMap.mp member
  dsimp only at made
  split at made
  · cases made
  · cases made
    rfl

/-- What two builds make of the parameters of a route. -/
structure ParamsRelated (leaf : Option TypeToken → Schema → Schema → Prop)
    (body : Schema → Schema → Prop) (built built' : Option Schema × List Parameter) : Prop where
  body : Option.Rel body built.1 built'.1
  parameters : List.Forall₂ (Parameter.Related (Site leaf)) built.2 built'.2

theorem finish_related (here : draft.Related leaf body draft') :
    ParamsRelated leaf body (draft.finish names) (draft'.finish names) := by
  refine ⟨?_, ?_⟩
  · unfold Draft.finish
    rw [(law.agree here.body).1]
    split
    · exact .none
    · exact .some here.body
  · have missing : List.Forall₂ (Parameter.Related (Site leaf)) (undeclared names draft)
        (undeclared names draft) := by
      refine List.forall₂_same.mpr fun parameter member => ⟨rfl, none, ?_⟩
      rw [schema_of_mem_undeclared member]
      exact law.string
    unfold Draft.finish
    rw [← undeclared_eq here]
    exact List.rel_append missing here.bucket.values

end

/-- The tokens that the parameters of a route use, in the order in which they are resolved. -/
def paramTokens (params : Table String ParamSpec) : List TypeToken :=
  if params.keys.any isNested then
    params.flatMap rootTokens ++ params.flatMap (innerTokens (hiddenRoots params))
  else params.flatMap flatTokens

def headerTokens (headers : Table String HeaderSpec) : List TypeToken :=
  headers.flatMap fun entry => entry.2.type.toList

/-- Two builds make parameters and a request body that agree in everything but their schemas. -/
theorem buildParams_lockstep (law : SiteLaw route answers leaf inside body)
    (aliases : Table String String) :
    Lockstep catalog answers (ParamsRelated leaf body)
      (headerTokens route.headers ++ paramTokens route.params)
      (buildParams { catalog } aliases route) (buildParams { catalog } aliases route) := by
  unfold buildParams paramTokens
  have headers : Lockstep catalog answers (Draft.Related leaf (inside [])) (headerTokens route.headers)
      (route.headers.foldlM (fun draft entry => addHeader { catalog } draft entry.1 entry.2)
        ({} : Draft))
      (route.headers.foldlM (fun draft entry => addHeader { catalog } draft entry.1 entry.2)
        ({} : Draft)) := by
    refine Lockstep.foldlM_keeps route.headers ?_ ⟨.nil, law.start⟩
    intro entry draft draft' here
    exact addHeader_lockstep law here entry
  refine headers.bind fun draft draft' here => ?_
  split
  · next nested => exact (addAllNested_lockstep law nested here).map fun _ _ => finish_related law
  · exact (addAllFlat_lockstep law ⟨here.bucket, law.whole here.body⟩ route.params).map
      fun _ _ => finish_related law

end Route

end ApiDoc
