import Mathlib.Data.List.Pairwise
import ApiDoc.Proofs.Build.Clear
import ApiDoc.Proofs.Build.Operations
import ApiDoc.Proofs.Type.Outlines

/-! # Operations that look the same

Two builds that are steady construct operations of one route that look the same, whatever they have
visited before (`RouteDescriptor.Built.related`). The exception is request bodies where a parameter is
nested in one whose type mentions an entity: it is put into the whole schema of the entity, or else
takes the place of a stub. Routes without such parameters are `Unmixed`.
-/

namespace ApiDoc

open Schema

variable {catalog : Catalog} {route : RouteDescriptor} {config : Config}

namespace Route

variable {container container' leaf leaf' property property' holder holder' : Schema}
  {path : List String}

/-- Nodes without names have children if alike ones do. -/
theorem hasChildren_eq (same : property.AlikeParts property') (clear : Through property []) :
    hasChildren property = hasChildren property' := by
  obtain ⟨properties, items, variants, rfl, inProperties, inItems, -⟩ := alikeParts_iff.mp same
  unfold hasChildren
  dsimp only
  rw [inProperties.isEmpty_eq]
  congr 1
  cases present : property.items with
  | none =>
    rw [present] at inItems
    cases inItems
    rfl
  | some one =>
    rw [present] at inItems
    cases inItems with
    | some alike =>
      rcases alike.cases with same | ⟨-, same⟩
      · have unnamed : one.canonicalName = none := clear.2 one present
        have named := same.named
        simp [unnamed] at named
      · obtain ⟨inside, _, _, rfl, related, -⟩ := alikeParts_iff.mp same
        dsimp only
        rw [related.isEmpty_eq]

theorem asHolder_alikeParts (same : property.AlikeParts property') (isArray : Bool) :
    (asHolder isArray property).AlikeParts (asHolder isArray property') := by
  obtain ⟨properties, items, variants, rfl, parts⟩ := alikeParts_iff.mp same
  have wrapped := (Remark.describe property.description).alikeParts (.refl (Schema.array .object))
  have plain := (Remark.describe property.description).alikeParts (.refl Schema.object)
  unfold asHolder
  change AlikeParts _ (if property.isType .array then _ else if isArray then _ else
    if property.isType .object then _ else _)
  split
  · exact same
  · split
    · exact wrapped
    · split
      · exact same
      · exact plain

theorem itemsHolder_alikeParts (same : holder.AlikeParts holder') (clear : Through holder path) :
    (itemsHolder holder).AlikeParts (itemsHolder holder') := by
  obtain ⟨properties, items, variants, rfl, -, inItems, -⟩ := alikeParts_iff.mp same
  unfold itemsHolder
  dsimp only
  cases present : holder.items with
  | none =>
    rw [present] at inItems
    cases inItems
    exact .refl _
  | some one =>
    rw [present] at inItems
    cases inItems with
    | some alike =>
      rcases alike.cases with same | ⟨-, same⟩
      · have unnamed := (clear.2 one present).unnamed
        have named := same.named
        simp [unnamed] at named
      · obtain ⟨inside, _, _, rfl, parts⟩ := alikeParts_iff.mp same
        dsimp only
        change AlikeParts _ (if one.isType .object then _ else _)
        split
        · exact same
        · exact .refl _

/-- A property that a path leads through has no name, so alike ones have alike parts. -/
theorem Through.alikeParts (through : Through property path) (alike : property.Alike property') :
    property.AlikeParts property' := by
  rcases alike.cases with same | ⟨-, same⟩
  · have named := same.named
    rw [through.1.unnamed] at named
    cases named
  · exact same

theorem placeLeaf_alikeParts (same : container.AlikeParts container') (alike : leaf.Alike leaf')
    (segment : NameSegment) (required : Bool) (clear : ClearTo container [segment.name]) :
    (placeLeaf container segment leaf required).AlikeParts
      (placeLeaf container' segment leaf' required) := by
  have wrapped := alike.arrayIf segment.isArray
  have added := same.addProperty wrapped segment.name required
  unfold placeLeaf
  dsimp only
  rcases same.properties.get? segment.name with ⟨none, none'⟩ | ⟨existing, existing', found, found', there⟩
  · rw [none, none']
    exact added
  · rw [found, found']
    have through : Through existing [] := clear.2 existing found
    have parts := through.alikeParts there
    dsimp only
    rw [← hasChildren_eq parts through]
    split
    · rw [wrapped.description_eq, ← same.required_eq]
      exact same.insertProperty ((Remark.describe _).alike there) _
    · exact added

theorem getD_alikeParts {name : String} {path : List String} (same : container.AlikeParts container')
    (clear : ClearTo container (name :: path)) :
    ((Table.get? container.properties name).getD .object).AlikeParts
      ((Table.get? container'.properties name).getD .object) := by
  rcases same.properties.get? name with ⟨none, none'⟩ | ⟨property, property', found, found', there⟩
  · rw [none, none']
    exact .refl _
  · rw [found, found']
    have through : Through property path := clear.2 property found
    exact through.alikeParts there

/-- Alike parameters are placed in alike bodies, where nothing on the way has a name. -/
theorem insertNested_alikeParts (segments : List NameSegment) (required : Bool)
    (same : container.AlikeParts container') (alike : leaf.Alike leaf')
    (clear : ClearTo container (segments.map (·.name))) :
    (insertNested container segments leaf required).AlikeParts
      (insertNested container' segments leaf' required) := by
  induction segments generalizing container container' with
  | nil => exact same
  | cons segment rest ih =>
    cases rest with
    | nil => exact placeLeaf_alikeParts same alike segment required clear
    | cons next rest =>
      have holder := asHolder_through (clear.through_getD rfl) segment.isArray
      have holders := asHolder_alikeParts (getD_alikeParts same clear) segment.isArray
      have unnamed := holder.1.unnamed
      rw [insertNested, insertNested]
      -- Of the holders only this matters: they are alike, clear and without a name.
      generalize asHolder segment.isArray ((Table.get? container.properties segment.name).getD .object) =
        first at holder holders unnamed ⊢
      generalize asHolder segment.isArray ((Table.get? container'.properties segment.name).getD .object) =
        second at holders ⊢
      rw [← same.required_eq, ← (holders.alike unnamed).isType (by decide : SchemaType.array ≠ .object)]
      refine same.insertProperty ?_ container.required
      split
      · obtain ⟨properties, items, variants, rfl, inProperties, -, inVariants⟩ := alikeParts_iff.mp holders
        have inside := ih (itemsHolder_alikeParts holders holder) (itemsHolder_clearTo holder)
        obtain ⟨_, names, frame⟩ := insertNested_frame (itemsHolder first) (next :: rest) leaf required
        have unnamedItems : (insertNested (itemsHolder first) (next :: rest) leaf required).canonicalName =
            none := by
          rw [frame]
          exact (itemsHolder_clearTo holder).unnamed
        refine AlikeParts.alike (alikeParts_iff.mpr ⟨properties, _, variants, rfl, inProperties, ?_,
          inVariants⟩) unnamed
        exact .some (inside.alike unnamedItems)
      · obtain ⟨_, names, frame⟩ := insertNested_frame first (next :: rest) leaf required
        refine (ih holders holder.1).alike ?_
        rw [frame]
        exact unnamed

end Route

/-- Neither parameter mentions an entity in its type and has segments that lead to the other one, or
through it. -/
def Apart (catalog : Catalog) (first second : String × ParamSpec) : Prop :=
  (MentionsEntity catalog first.2.type →
      ¬Route.segmentNames first.1 <+: Route.segmentNames second.1) ∧
    (MentionsEntity catalog second.2.type →
      ¬Route.segmentNames second.1 <+: Route.segmentNames first.1)

instance : Std.Symm (Apart catalog) := ⟨fun _ _ => And.symm⟩

/-- No visible parameter is placed where another one is whose type mentions an entity, or inside of
it. -/
def RouteDescriptor.Unmixed (catalog : Catalog) (route : RouteDescriptor) : Prop :=
  route.visibleParams.Pairwise (Apart catalog)

/-- The segments of a parameter do not lead to a later one, or through it, if its schema is made from a
type that mentions an entity. -/
theorem RouteDescriptor.Unmixed.not_prefix (unmixed : route.Unmixed catalog)
    {done : Table String ParamSpec} {placed later source : String × ParamSpec}
    (sublist : (done ++ [placed] ++ [later]).Sublist route.visibleParams)
    (known : source ∈ route.visibleParams)
    (sameNames : Route.segmentNames source.1 = Route.segmentNames placed.1)
    (mentions : MentionsEntity catalog source.2.type) :
    ¬Route.segmentNames placed.1 <+: Route.segmentNames later.1 := by
  intro along
  rw [← sameNames] at along
  by_cases same : source = later
  · have pair : Apart catalog placed later := by
      have pairwise := unmixed.sublist sublist
      rw [List.append_assoc] at pairwise
      exact List.rel_of_pairwise_cons (List.pairwise_append.mp pairwise).2.1 List.mem_cons_self
    subst same
    exact pair.2 mentions (sameNames ▸ List.prefix_rfl)
  · have listed : later ∈ route.visibleParams := sublist.subset (by simp)
    have pair : Apart catalog source later := List.Pairwise.forall unmixed known listed same
    exact pair.1 mentions along

/-- Schemas that look the same, the first of which has names only if the declared type mentions an
entity. -/
def AlikeLeaf (catalog : Catalog) (declared : Option TypeToken) (first second : Schema) : Prop :=
  first.Alike second ∧ (¬MentionsEntity catalog declared → first.Nameless)

/-- Bodies with alike parts, of which the first one is clear for the parameters that are still to be
placed. -/
structure AlikeBody (route : RouteDescriptor) (done : Table String ParamSpec) (first second : Schema) :
    Prop where
  parts : first.AlikeParts second
  unnamed : first.canonicalName = none
  clear : ∀ later, (done ++ [later]).Sublist route.visibleParams →
    Route.ClearTo first (Route.segmentNames later.1)

def AlikeWhole (first second : Schema) : Prop := first.AlikeParts second ∧ first.canonicalName = none

theorem AlikeBody.start : AlikeBody route [] .object .object where
  parts := .refl _
  unnamed := rfl
  clear _ _ := Route.clearTo_of_nameless namesIn_object _

theorem AlikeBody.insertNested {done : Table String ParamSpec} {placed source : String × ParamSpec}
    {first second leaf leaf' : Schema} (unmixed : route.Unmixed catalog)
    (here : AlikeBody route done first second)
    (within : (done ++ [placed]).Sublist route.visibleParams) (known : source ∈ route.visibleParams)
    (sameNames : Route.segmentNames source.1 = Route.segmentNames placed.1)
    (there : AlikeLeaf catalog source.2.type leaf leaf') (required : Bool) :
    AlikeBody route (done ++ [placed])
      (Route.insertNested first (Route.splitNested placed.1) leaf required)
      (Route.insertNested second (Route.splitNested placed.1) leaf' required) where
  parts := Route.insertNested_alikeParts _ required here.parts there.1 (here.clear placed within)
  unnamed := by
    obtain ⟨properties, names, frame⟩ :=
      Route.insertNested_frame first (Route.splitNested placed.1) leaf required
    rw [frame]
    exact here.unnamed
  clear later sublist := by
    have before : (done ++ [later]).Sublist route.visibleParams := by
      refine List.Sublist.trans ?_ sublist
      exact (List.sublist_append_left done [placed]).append (List.Sublist.refl [later])
    refine Route.insertNested_clearTo _ required (here.clear later before) ?_
    by_cases mentions : MentionsEntity catalog source.2.type
    · exact .inr (unmixed.not_prefix sublist known sameNames mentions)
    · exact .inl (there.2 mentions)

theorem hasFile_eq {first second : Schema} (same : first.AlikeParts second) :
    hasFile first = hasFile second := by
  have values := same.properties.values
  unfold hasFile
  generalize Table.values first.properties = left at values ⊢
  generalize Table.values second.properties = right at values ⊢
  induction values with
  | nil => rfl
  | cons here _ ih =>
    rw [List.any_cons, List.any_cons, ih, here.isType (by decide : SchemaType.file ≠ .object)]

/-- That schemas look the same is a law of every unmixed route. -/
theorem alike_siteLaw (unmixed : route.Unmixed catalog) :
    SiteLaw route (fun token => AlikeLeaf catalog (some token)) (AlikeLeaf catalog)
      (AlikeBody route) AlikeWhole where
  answered here := here
  string := ⟨.refl _, fun _ => namesIn_string⟩
  arrayIf wanted here := ⟨here.1.arrayIf wanted, fun apart => (here.2 apart).arrayIf wanted⟩
  restrict values here :=
    ⟨here.1.restrict values, fun apart => All.restrict (names_law _).superficial (here.2 apart) values⟩
  defaulted value? here := ⟨(Remark.defaulted value?).alike here.1, fun apart =>
    All.of_face (names_law _).superficial (here.2 apart) rfl rfl rfl rfl⟩
  describe description here := ⟨(Remark.describe description).alike here.1, fun apart =>
    All.describe (names_law _).superficial (here.2 apart) description⟩
  file here := here.1.isType (by decide)
  start := .start
  insertNested required _ here within known sameNames there :=
    here.insertNested unmixed within known sameNames there required
  whole here := ⟨here.parts, here.unnamed⟩
  addProperty name required here there := ⟨here.1.addProperty there.1 name required, here.2⟩
  agree := by
    rintro first second ⟨same, -⟩
    exact ⟨same.properties.isEmpty_eq, hasFile_eq same, by rw [same.required_eq]⟩

/-- Two steady builds answer the types of a route with schemas that look the same. -/
theorem resolves_alike (forward : catalog.MergesForward) :
    Lockstep.Resolves catalog (fun token => AlikeLeaf catalog (some token))
      fun _ progress progress' => Steady catalog progress ∧ Steady catalog progress' := by
  rintro token _ progress progress' ⟨steady, steady'⟩
  obtain ⟨answer, next, answer', next', ran, ran', alike, unnamed, behind, behind'⟩ :=
    resolve_alike forward steady steady' token
  refine ⟨answer, next, answer', next', ran, ran', ⟨alike, fun apart => ?_⟩, behind, behind'⟩
  exact (unnamed fun mentions => apart (mentionsEntity_some.mpr mentions)).1

/-- Two coherent builds answer the types of a route with schemas that look the same. -/
theorem resolves_alike_of_coherent : Lockstep.Resolves catalog (fun token => AlikeLeaf catalog (some token))
      fun _ progress progress' => progress.Coherent catalog ∧ progress'.Coherent catalog := by
  rintro token _ progress progress' ⟨coherent, coherent'⟩
  obtain ⟨answer, next, answer', next', ran, ran', alike, unnamed, behind, behind'⟩ :=
    resolve_alike_of_coherent coherent coherent' token
  refine ⟨answer, next, answer', next', ran, ran', ⟨alike, fun apart => ?_⟩, behind, behind'⟩
  exact unnamed fun mentions => apart (mentionsEntity_some.mpr mentions)

/-- Related operations look the same. -/
theorem Operation.Related.alike {operation operation' : Operation}
    (related : Operation.Related (Site (AlikeLeaf catalog)) AlikeWhole operation operation') :
    Operation.Related Alike Alike operation operation' := by
  refine related.imp ?_ ?_
  · rintro first second ⟨declared, alike, -⟩
    exact alike
  · rintro first second ⟨same, unnamed⟩
    exact same.alike unnamed

/-- The operations that coherent builds construct of one route look the same. -/
theorem RouteDescriptor.build_alike_of_coherent (unmixed : route.Unmixed catalog)
    {progress progress' : Progress} (coherent : progress.Coherent catalog)
    (coherent' : progress'.Coherent catalog) : Operation.Related Alike Alike
      ((route.buildOperation config { catalog }).run progress).1
      ((route.buildOperation config { catalog }).run progress').1 := by
  have steps := buildOperation_lockstep catalog (alike_siteLaw unmixed) config
  obtain ⟨operation, next, operation', next', ran, ran', related, -⟩ :=
    @Lockstep.run _ _ _ _ _ _ _ _ _ resolves_alike_of_coherent steps [] progress progress'
      ⟨coherent, coherent'⟩
  rw [ran, ran']
  exact related.alike

/-- A steady build constructs the operation of the route. -/
def RouteDescriptor.Built (catalog : Catalog) (config : Config) (route : RouteDescriptor)
    (operation : Operation) : Prop :=
  ∃ progress next, Steady catalog progress ∧
    (route.buildOperation config { catalog }).run progress = (operation, next)

/-- Two steady builds construct operations of the route that look the same, and stay steady. -/
theorem RouteDescriptor.build_alike (forward : catalog.MergesForward) (unmixed : route.Unmixed catalog)
    {progress progress' : Progress} (steady : Steady catalog progress)
    (steady' : Steady catalog progress') :
    ∃ operation next operation' next',
      (route.buildOperation config { catalog }).run progress = (operation, next) ∧
        (route.buildOperation config { catalog }).run progress' = (operation', next') ∧
          Operation.Related (Site (AlikeLeaf catalog)) AlikeWhole operation operation' ∧
            Steady catalog next ∧ Steady catalog next' :=
  have steps := buildOperation_lockstep catalog (alike_siteLaw unmixed) config
  @Lockstep.run _ _ _ _ _ _ _ _ _ (resolves_alike forward) steps [] progress progress' ⟨steady, steady'⟩

theorem RouteDescriptor.built_of_steady (forward : catalog.MergesForward) (unmixed : route.Unmixed catalog)
    {progress : Progress} (steady : Steady catalog progress) : ∃ operation next,
      (route.buildOperation config { catalog }).run progress = (operation, next) ∧
        route.Built catalog config operation ∧ Steady catalog next := by
  obtain ⟨operation, next, _, _, ran, -, -, behind, -⟩ := build_alike forward unmixed steady steady
  exact ⟨operation, next, ran, ⟨progress, next, steady, ran⟩, behind⟩

/-- All operations that steady builds construct of a route look the same. -/
theorem RouteDescriptor.Built.related (forward : catalog.MergesForward)
    (unmixed : route.Unmixed catalog) {operation operation' : Operation}
    (here : route.Built catalog config operation) (there : route.Built catalog config operation') :
    Operation.Related (Site (AlikeLeaf catalog)) AlikeWhole operation operation' := by
  obtain ⟨progress, next, steady, ran⟩ := here
  obtain ⟨progress', next', steady', ran'⟩ := there
  obtain ⟨_, _, _, _, first, second, related, -⟩ := build_alike forward unmixed steady steady'
  cases first.symm.trans ran
  cases second.symm.trans ran'
  exact related

end ApiDoc
