import ApiDoc.Proofs.Type.Sessions

/-! # What leads to an entity

`Leads catalog task name`: the task leads to the entity through fields of any kind, whatever was
visited before. While an entity is being walked, all entities in progress lead to it, because each
was started on the way there (`Introspects.walk_of_complete`). So a build walks an entity that none
of its parts lead back to at a time when those are not in progress.
-/

namespace ApiDoc

/-- The task leads to the entity. -/
inductive Leads (catalog : Catalog) : Task → String → Prop
  | here {name : String} : name ∈ Table.keys catalog → Leads catalog (.entity name) name
  | within {name other : String} {entity : Entity} {target : Schema} :
      catalog.get? name = some entity → Leads catalog (.fields entity.fields target) other →
      Leads catalog (.entity name) other
  | named {name other : String} : Leads catalog (.entity name) other →
      Leads catalog (.token (.named name)) other
  | item {item : TypeToken} {other : String} : Leads catalog (.token item) other →
      Leads catalog (.token (.arrayOf item)) other
  | variants {tokens : List TypeToken} {other : String} : Leads catalog (.variants tokens []) other →
      Leads catalog (.token (.oneOf tokens)) other
  | variant {tokens : List TypeToken} {token : TypeToken} {done : List Schema} {other : String} :
      token ∈ tokens → Leads catalog (.token token) other → Leads catalog (.variants tokens done) other
  | field {fields : List Field} {field : Field} {target between : Schema} {other : String} :
      field ∈ fields → Leads catalog (.field field between) other →
      Leads catalog (.fields fields target) other
  | spliced {field : Field} {task : Task} {target : Schema} {other : String} :
      field.spliced? catalog = some task → Leads catalog task other →
      Leads catalog (.field field target) other
  | source {field : Field} {task : Task} {target : Schema} {other : String} :
      field.spliced? catalog = none → field.source? = some task → Leads catalog task other →
      Leads catalog (.field field target) other

variable {catalog : Catalog} {task : Task} {progress middle next : Progress}
  {history : List VisitEvent} {answer : Schema} {name other : String}

/-- More alternatives lead further. -/
theorem Leads.moreVariants {first : TypeToken} {rest : List TypeToken} {done done' : List Schema}
    (leads : Leads catalog (.variants rest done) other) :
    Leads catalog (.variants (first :: rest) done') other := by
  cases leads with
  | variant member leads => exact .variant (List.mem_cons_of_mem _ member) leads

/-- More fields lead further. -/
theorem Leads.moreFields {first : Field} {rest : List Field} {target target' : Schema}
    (leads : Leads catalog (.fields rest target) other) :
    Leads catalog (.fields (first :: rest) target') other := by
  cases leads with
  | field member leads => exact .field (List.mem_cons_of_mem _ member) leads

/-- Whatever is in progress leads to what the task leads to. -/
def Stacked (catalog : Catalog) (progress : Progress) (task : Task) : Prop :=
  ∀ outer, progress.state outer = .inProgress → ∀ inner, Leads catalog task inner →
    Leads catalog (.entity outer) inner

/-- A task that leads less far is stacked too, where no more is in progress. -/
theorem Stacked.narrow {part : Task} (stacked : Stacked catalog progress task)
    (fewer : ∀ outer, next.state outer = .inProgress → progress.state outer = .inProgress)
    (narrower : ∀ inner, Leads catalog part inner → Leads catalog task inner) :
    Stacked catalog next part :=
  fun outer walking inner leads => stacked outer (fewer outer walking) inner (narrower inner leads)

theorem Stacked.start {entity : Entity} {target : Schema}
    (stacked : Stacked catalog progress (.entity name)) (listed : catalog.get? name = some entity) :
    Stacked catalog (progress.start name) (.fields entity.fields target) := by
  intro outer walking inner leads
  have led : Leads catalog (.entity name) inner := .within listed leads
  rw [Progress.state_start] at walking
  split at walking
  · next same => exact same ▸ led
  · exact stacked outer walking inner led

/-- The walk that made a definition: it started at a coherent progress where all that was in progress
led to the entity, and the definition stands behind those that were there when it ended. -/
structure Walk (catalog : Catalog) (final : Progress) (name : String) where
  entity : Entity
  before : Progress
  history : List VisitEvent
  definition : Schema
  after : Progress
  listed : catalog.get? name = some entity
  coherent : before.Coherent catalog
  fresh : before.state name = .unvisited
  stacked : ∀ outer, before.state outer = .inProgress → Leads catalog (.entity outer) name
  derived : Introspects catalog (.fields entity.fields (.namedObject name)) (before.start name)
    history definition after
  kept : (after.finish name definition).definitions <+: final.definitions

/-- What comes after a walk leaves its definition where it is. -/
def Walk.later {final : Progress} (walk : Walk catalog progress name)
    (grown : progress.definitions <+: final.definitions) : Walk catalog final name :=
  { walk with kept := walk.kept.trans grown }

/-- What is not visited before a task is unvisited or complete behind it. -/
theorem AtMostOnce.after {after : VisitState} {events : List VisitEvent}
    (once : AtMostOnce name .unvisited after events) : after = .unvisited ∨ after = .complete := by
  cases once with
  | untouched => exact .inl rfl
  | walked => exact .inr rfl

/-- An entity that is completed by two tasks in turn was walked in one of them. -/
theorem walk_of_sequence {late : List VisitEvent}
    (first : Introspects catalog task progress history answer middle)
    (rest : Run (VisitStep catalog) middle late next) (coherent : middle.Coherent catalog)
    (fresh : progress.state name = .unvisited)
    (inFirst : middle.state name = .complete → Nonempty (Walk catalog middle name))
    (inRest : middle.state name = .unvisited → Nonempty (Walk catalog next name)) :
    Nonempty (Walk catalog next name) := by
  have between := first.once name
  rw [fresh] at between
  rcases between.after with unvisited | done
  · exact inRest unvisited
  · obtain ⟨walk⟩ := inFirst done
    exact ⟨walk.later (definitions_prefix_of_run rest coherent)⟩

/-- An entity that is completed by a task was walked in it. -/
theorem Introspects.walk_of_complete (derived : Introspects catalog task progress history answer next)
    (coherent : progress.Coherent catalog) (stacked : Stacked catalog progress task)
    (fresh : progress.state name = .unvisited) (complete : next.state name = .complete) :
    Nonempty (Walk catalog next name) := by
  induction derived with
  | stub | plain | noVariants | noFields | skipped | copied | untyped =>
    rw [fresh] at complete
    cases complete
  | named _ ih => exact ih coherent (stacked.narrow (fun _ => id) fun _ => .named) fresh complete
  | array _ ih => exact ih coherent (stacked.narrow (fun _ => id) fun _ => .item) fresh complete
  | oneOf _ ih => exact ih coherent (stacked.narrow (fun _ => id) fun _ => .variants) fresh complete
  | merged found _ _ ih =>
    exact ih coherent (stacked.narrow (fun _ => id) fun _ => .spliced found) fresh complete
  | property plain found _ ih =>
    exact ih coherent (stacked.narrow (fun _ => id) fun _ => .source plain found) fresh complete
  | variant first rest early late =>
    have behind := coherent_of_run first.run coherent
    refine walk_of_sequence first rest.run behind fresh ?_ ?_
    · exact early coherent (stacked.narrow (fun _ => id) fun _ => .variant List.mem_cons_self) fresh
    · intro unvisited
      refine late behind (stacked.narrow (fun _ => first.inProgress) ?_) unvisited complete
      exact fun _ => Leads.moreVariants
  | oneField first rest early late =>
    have behind := coherent_of_run first.run coherent
    refine walk_of_sequence first rest.run behind fresh ?_ ?_
    · exact early coherent (stacked.narrow (fun _ => id) fun _ => .field List.mem_cons_self) fresh
    · intro unvisited
      refine late behind (stacked.narrow (fun _ => first.inProgress) ?_) unvisited complete
      exact fun _ => Leads.moreFields
  | @walk progress next started entity history schema unvisited listed inner ih =>
    have member := Table.mem_keys_of_get? listed
    by_cases same : started = name
    · subst same
      refine ⟨⟨entity, progress, history, schema, next, listed, coherent, unvisited, ?_, inner,
        List.prefix_rfl⟩⟩
      intro outer walking
      exact stacked outer walking started (.here member)
    · have begins := coherent.start unvisited member
      rw [Progress.state_finish, if_neg same] at complete
      obtain ⟨walk⟩ := ih begins (stacked.start listed) (by simp [same, fresh]) complete
      have ends := coherent_of_run inner.run begins
      exact ⟨walk.later (definitions_prefix_of_run (.single inner.finish) ends)⟩

/-- An entity that is complete behind a sequence of calls was walked in one of them. -/
theorem Session.walk_of_complete {calls : List Call} {answers : List Schema}
    (session : Session catalog calls progress history answers next) (settled : Settled catalog progress)
    (fresh : progress.state name = .unvisited) (complete : next.state name = .complete) :
    Nonempty (Walk catalog next name) := by
  induction session with
  | nil =>
    rw [fresh] at complete
    cases complete
  | @cons call _ progress _ _ _ _ _ _ derived rest ih =>
    have names : call.task.NamesIn progress.Defines := by cases call <;> trivial
    obtain ⟨behind, -, -⟩ := settled.behind derived names
    refine walk_of_sequence derived rest.run behind.toCoherent fresh ?_ ?_
    · refine derived.walk_of_complete settled.toCoherent (fun outer walking => ?_) fresh
      exact absurd walking (settled.idle outer)
    · exact fun unvisited => ih behind unvisited complete

end ApiDoc
