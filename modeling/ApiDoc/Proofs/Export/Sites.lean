import ApiDoc.Proofs.Export.Texts
import ApiDoc.Proofs.Export.Tracing
import ApiDoc.Proofs.Schema.Nodes

/-! # The sites of an interface

Where the operations of an interface use schemas, in the order in which a document shows them.
Every part of the rendering of an interface visits the sites of that part and then answers a text
that no definition can change (`paths_visits`). So the whole walk makes the visits of one run of
the machine of `Trail`, from an agenda with all sites and all definitions of the interface, and
ends as that run ends (`walk_trail`).
-/

namespace ApiDoc

def Response.sites (response : Response) : List Schema :=
  response.schema.toList ++ (Table.values response.headers).map Header.schema

def Operation.sites (operation : Operation) : List Schema :=
  operation.parameters.map Parameter.schema ++
    ((operation.requestBody.elim [] fun body => body.content.map MediaType.schema) ++
      (Table.values operation.responses).flatMap Response.sites)

def PathItem.sites (item : PathItem) : List Schema :=
  (Table.values item.operations).flatMap Operation.sites

def Api.sites (api : Api) : List Schema := api.paths.flatMap PathItem.sites

/-- Every node of every schema of the interface has a property. -/
def Api.All (holds : Schema → Prop) (api : Api) : Prop :=
  (∀ site ∈ api.sites, site.All holds) ∧ ∀ entry ∈ api.definitions, entry.2.All holds

namespace Export

/-- The agenda of the whole walk: every site, then every definition. -/
def Agenda.start (api : Api) : Agenda where
  pending := api.sites.map .ofSite ++ api.definitions.map .ofEntry

variable {dialect : Dialect} {api : Api} {α β : Type}

variable {holds : Schema → Prop} {agenda next : Agenda} {visits : List Visit} {site body : Schema}

/-- A position has the name of its schema, or a name that the interface defines. -/
inductive Position.Named (api : Api) : Position → Prop
  | site (site : Schema) : Named api (.ofSite site)
  | entry (entry : String × Schema) : entry ∈ api.definitions → Named api (.ofEntry entry)

/-- Only schemas without a name stand at positions without a name. -/
theorem Position.Named.canonicalName {position : Position} (named : position.Named api)
    (unnamed : position.name? = none) : position.schema.canonicalName = none := by
  cases named with
  | site => exact unnamed
  | entry => cases unnamed

/-- The parts of a schema are below it. -/
theorem all_of_mem_parts (all : body.All holds) (member : site ∈ parts dialect body) :
    site.All holds := by
  rcases List.mem_append.mp member with variant | later
  · refine all.variants site ?_
    unfold shownVariants at variant
    split at variant
    · exact variant
    · exact List.mem_of_mem_take variant
  · rcases List.mem_append.mp later with property | item
    · obtain ⟨entry, below, rfl⟩ := List.mem_map.mp property
      exact all.properties entry below
    · unfold shownItems at item
      split at item
      · exact all.items site (Option.mem_toList.mp item)
      · cases item

/-- The body of a definition has what all schemas of the interface have, if the loss of a name, of
nullability and of extensions leaves it. -/
theorem body?_all (all : api.All holds) (bared : ∀ node, holds node → holds (bare node)) {name : String}
    (here : site.All holds) (found : body? api name site = some body) : body.All holds := by
  unfold body? at found
  split at found
  · next definition listed =>
    cases found
    exact all.2 _ (Table.mem_of_get? listed)
  · split at found
    · cases found
    · cases found
      obtain ⟨root, properties, items, variants⟩ := Schema.all_iff.mp here
      exact Schema.all_iff.mpr ⟨bared site root, properties, items, variants⟩

/-- Every pending position has what all schemas of the interface have. -/
def Agenda.Carries (api : Api) (holds : Schema → Prop) (agenda : Agenda) : Prop :=
  ∀ position ∈ agenda.pending, position.schema.All holds ∧ position.Named api

theorem Agenda.start_carries (all : api.All holds) : (Agenda.start api).Carries api holds := by
  intro position member
  rcases List.mem_append.mp member with used | listed
  · obtain ⟨site, below, rfl⟩ := List.mem_map.mp used
    exact ⟨all.1 site below, .site site⟩
  · obtain ⟨entry, below, rfl⟩ := List.mem_map.mp listed
    exact ⟨all.2 entry below, .entry entry below⟩

theorem carries_parts {first : Position} {rest : List Position} {names after : Table String String}
    (inside : body.All holds) (carries : Agenda.Carries api holds ⟨first :: rest, names⟩) :
    Agenda.Carries api holds ⟨(parts dialect body).map .ofSite ++ rest, after⟩ := by
  intro position member
  rcases List.mem_append.mp member with part | later
  · obtain ⟨site, below, rfl⟩ := List.mem_map.mp part
    exact ⟨all_of_mem_parts inside below, .site site⟩
  · exact carries position (List.mem_cons_of_mem _ later)

theorem WalkStep.carries (all : api.All holds) (bared : ∀ node, holds node → holds (bare node)) :
    Preserves (WalkStep dialect api) (Agenda.Carries api holds) := by
  intro agenda one next move carries
  cases move with
  | inline => exact carries_parts (carries _ List.mem_cons_self).1 carries
  | known => exact fun position member => carries position (List.mem_cons_of_mem _ member)
  | fresh _ found =>
    exact carries_parts (body?_all all bared (carries _ List.mem_cons_self).1 found) carries

theorem carries_of_run (all : api.All holds) (bared : ∀ node, holds node → holds (bare node))
    (run : Run (WalkStep dialect api) (.start api) visits next) : next.Carries api holds :=
  run.keeps (WalkStep.carries all bared) (Agenda.start_carries all)

/-- Every position that the walk visits has what all schemas of the interface have. -/
theorem carried_of_visited (all : api.All holds) (bared : ∀ node, holds node → holds (bare node))
    (run : Run (WalkStep dialect api) (.start api) visits next) : ∀ visit ∈ visits,
      visit.position.schema.All holds ∧ visit.position.Named api := by
  refine run.labels_of_keeps (WalkStep.carries all bared) ?_ (Agenda.start_carries all)
  intro before one after move carries
  obtain ⟨rest, split, -⟩ := move.pending_eq
  exact carries _ (split ▸ List.mem_cons_self)

/-- Every definition that the walk begins has what all schemas of the interface have. -/
theorem all_of_begun (all : api.All holds) (bared : ∀ node, holds node → holds (bare node))
    (run : Run (WalkStep dialect api) (.start api) visits next) : ∀ entry ∈ begun visits,
      entry.2.All holds := by
  have each : ∀ visit ∈ visits, ∀ entry, visit.begun = some entry → entry.2.All holds := by
    refine run.labels_of_keeps (WalkStep.carries all bared) ?_ (Agenda.start_carries all)
    intro before one after move carries entry begins
    cases move with
    | inline => cases begins
    | known => cases begins
    | fresh _ found =>
      cases begins
      exact body?_all all bared (carries _ List.mem_cons_self).1 found
  intro entry member
  obtain ⟨visit, visited, begins⟩ := List.mem_filterMap.mp member
  exact each visit visited entry begins

/-- A step of the walk visits `sites` and answers a value that no definition can change. -/
def Visits (dialect : Dialect) (api : Api) (sites : List Schema) (value : α) (step : Render α) : Prop :=
  step = (do
    visitAll dialect (definitionsOf dialect api) sites
    return value)

theorem visits_pure (value : α) : Visits dialect api [] value (pure value) := by
  rw [Visits, visitAll_nil, pure_bind]

theorem Visits.bind {first second : List Schema} {value : α} {answer : β} {step : Render α}
    {next : α → Render β} (visits : Visits dialect api first value step)
    (behind : Visits dialect api second answer (next value)) :
    Visits dialect api (first ++ second) answer (step >>= next) := by
  unfold Visits at visits behind ⊢
  simp only [visits, bind_assoc, pure_bind, behind, visitAll_append]

theorem Visits.map {sites : List Schema} {value : α} {step : Render α}
    (visits : Visits dialect api sites value step) (f : α → β) :
    Visits dialect api sites (f value) (do return f (← step)) := by
  rw [← List.append_nil sites]
  exact visits.bind (visits_pure (f value))

/-- What a step answers that visits sites is its value. -/
theorem Visits.answer_eq {sites : List Schema} {value answer : α} {step : Render α} {state after : State}
    (visits : Visits dialect api sites value step) (ran : step.run state = .ok (answer, after)) :
    answer = value := by
  rw [visits] at ran
  cases visited : (visitAll dialect (definitionsOf dialect api) sites).run state with
  | error error =>
    rw [run_bind_of_error visited] at ran
    cases ran
  | ok result =>
    rw [run_bind_of_ok visited] at ran
    cases ran
    rfl

theorem schema_visits (site : Schema) :
    Visits dialect api [site] (siteText dialect site) (schema dialect api site) := by
  rw [Visits, schema, useSite_eq, visitAll_cons, visitAll_nil, bind_pure_unit]
  rfl

theorem parameters_visits (all : List Parameter) :
    Visits dialect api (all.map Parameter.schema) (parameterTexts dialect all)
      (parameters dialect api all) := by
  induction all with
  | nil => exact visits_pure []
  | cons parameter rest ih =>
    refine (schema_visits parameter.schema).bind ?_
    have shown := ih.map fun others =>
      (dialect.parameter? parameter (siteText dialect parameter.schema)).elim others fun fields =>
        Json.object (fields.extend parameter.extensions) :: others
    unfold parameterTexts at shown ⊢
    rw [List.filterMap_cons]
    cases found : dialect.parameter? parameter (siteText dialect parameter.schema) with
    | none =>
      rw [found] at shown
      exact shown
    | some fields =>
      rw [found] at shown
      exact shown

theorem media_visits (all : List MediaType) :
    Visits dialect api (all.map MediaType.schema) (mediaTexts dialect all) (media dialect api all) := by
  induction all with
  | nil => exact visits_pure []
  | cons one rest ih => exact (schema_visits one.schema).bind (ih.map _)

theorem headers_visits (all : Table String Header) :
    Visits dialect api ((Table.values all).map Header.schema) (headerTexts dialect all)
      (headers dialect api all) := by
  induction all with
  | nil => exact visits_pure []
  | cons entry rest ih => exact (schema_visits entry.2.schema).bind (ih.map _)

theorem response_visits (produces : List String) (one : Response) :
    Visits dialect api one.sites (responseText dialect produces one) (response dialect api produces one) := by
  unfold response Response.sites responseText
  cases one.schema with
  | none =>
    simp only [pure_bind]
    exact (headers_visits one.headers).map _
  | some site =>
    simp only [pure_bind]
    exact (schema_visits site).bind ((headers_visits one.headers).map _)

theorem responses_visits (produces : List String) (all : Table String Response) (done : Json.Fields) :
    Visits dialect api ((Table.values all).flatMap Response.sites)
      (responseTexts dialect produces all done) (responses dialect api produces all done) := by
  induction all generalizing done with
  | nil => exact visits_pure done
  | cons entry rest ih => exact (response_visits produces entry.2).bind (ih _)

theorem operation_visits (one : Operation) :
    Visits dialect api one.sites (operationText dialect one) (operation dialect api one) := by
  unfold operation Operation.sites operationText
  refine (parameters_visits one.parameters).bind ?_
  cases one.requestBody with
  | none =>
    simp only [pure_bind]
    exact (responses_visits _ one.responses []).map _
  | some body =>
    simp only [pure_bind]
    exact (media_visits body.content).bind ((responses_visits _ one.responses []).map _)

theorem operations_visits (all : Table Method Operation) (done : Json.Fields) :
    Visits dialect api ((Table.values all).flatMap Operation.sites) (operationTexts dialect all done)
      (operations dialect api all done) := by
  induction all generalizing done with
  | nil => exact visits_pure done
  | cons entry rest ih => exact (operation_visits entry.2).bind (ih _)

theorem paths_visits (all : List PathItem) (done : Json.Fields) :
    Visits dialect api (all.flatMap PathItem.sites) (pathTexts dialect all done)
      (paths dialect api all done) := by
  induction all generalizing done with
  | nil => exact visits_pure done
  | cons item rest ih => exact (operations_visits item.operations []).bind (ih _)

theorem remainingDefinitions_eq (all : Table String Schema) : remainingDefinitions dialect api all =
    visitPositions dialect (definitionsOf dialect api) (all.map .ofEntry) := by
  induction all with
  | nil => rfl
  | cons entry rest ih =>
    rw [remainingDefinitions, reference_eq, ih, bind_assoc]
    rfl

/-- The walk visits the positions of its first agenda and answers the text of the paths. -/
theorem walk_eq (dialect : Dialect) (api : Api) : walk dialect api = (do
    visitPositions dialect (definitionsOf dialect api) (Agenda.start api).pending
    return pathTexts dialect api.paths []) := by
  have split : paths dialect api api.paths [] = _ := paths_visits api.paths []
  rw [walk, split, remainingDefinitions_eq, Agenda.start, visitPositions_append, Api.sites,
    visitAll_eq_visitPositions]
  simp only [bind_assoc, pure_bind]

/-- How the walk and its trail end: with a text, when no position is left and the definitions are
those the visits leave behind; or with an error, at a position that explains it. -/
def Ends (dialect : Dialect) (api : Api) (visits : List Visit) (last : Agenda) :
    Except ExportError (Json.Fields × State) → Prop
  | .ok (_, after) => last.pending = [] ∧ after.definitions = defined dialect visits
  | .error error => last.failure? api = some error

/-- The walk of an interface follows one run of the machine and ends as that run does. -/
theorem walk_trail (dialect : Dialect) (api : Api) : ∃ visits last,
    Run (WalkStep dialect api) (.start api) visits last ∧
      Ends dialect api visits last ((walk dialect api).run {}) := by
  have follows : Follows dialect api
      (visitPositions dialect (definitionsOf dialect api) (Agenda.start api).pending)
      (Agenda.start api).pending {} :=
    follows_visitPositions _ _ _ rfl (Nat.lt_succ_of_le (unmet_le _))
  rw [walk_eq]
  cases ran : (visitPositions dialect (definitionsOf dialect api) (Agenda.start api).pending).run {} with
  | error error =>
    rw [run_bind_of_error ran]
    have trail := follows.error ran []
    rwa [List.append_nil] at trail
  | ok result =>
    obtain ⟨⟨⟩, after⟩ := result
    rw [run_bind_of_ok ran]
    obtain ⟨visits, run, left⟩ := follows.ok ran []
    rw [List.append_nil] at run
    exact ⟨visits, _, run, rfl, left⟩

end Export

end ApiDoc
