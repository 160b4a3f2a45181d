import ApiDoc.Proofs.Schema.Names
import ApiDoc.Proofs.Type.Levels

/-! # Between the calls of a build

While a walk is going on, a schema may name an entity whose definition is still to come. Between the
calls of a build nothing is in progress, and every canonical name in a definition leads to a
definition (`Settled`). Every call keeps a build settled, keeps its definitions and adds some behind
them, and answers with names of definitions only (`Settled.behind`).
-/

namespace ApiDoc

open Schema

/-- The entity was visited, even if its walk is still going on. -/
def Progress.Visited (progress : Progress) (name : String) : Prop := progress.state name ≠ .unvisited

/-- What a task adds to has names of visited entities only. -/
def Task.NamesIn (known : String → Prop) : Task → Prop
  | .entity _ | .token _ => True
  | .variants _ done => ∀ schema ∈ done, schema.NamesIn known
  | .field _ target | .fields _ target => target.NamesIn known

variable {catalog : Catalog} {task : Task} {progress next : Progress} {history : List VisitEvent}
  {answer : Schema} {name other : String} {known known' : String → Prop}

theorem Progress.Visited.start (visited : progress.Visited other) :
    (progress.start name).Visited other := by
  unfold Progress.Visited
  rw [Progress.state_start]
  split
  · simp
  · exact visited

theorem Progress.Visited.finish (visited : progress.Visited other) (schema : Schema) :
    (progress.finish name schema).Visited other := by
  unfold Progress.Visited
  rw [Progress.state_finish]
  split
  · simp
  · exact visited

theorem Task.NamesIn.imp (wider : ∀ name, known name → known' name) (names : task.NamesIn known) :
    task.NamesIn known' := by
  cases task with
  | entity | token => trivial
  | variants => exact fun schema member => (names schema member).imp wider
  | field | fields => exact Schema.NamesIn.imp wider names

theorem Field.source?_namesIn {field : Field} (found : field.source? = some task) :
    task.NamesIn known := by
  rcases source?_cases found with ⟨name, rfl⟩ | ⟨token, -, rfl⟩ | rfl
  · trivial
  · trivial
  · exact namesIn_object

theorem Field.spliced?_namesIn {field : Field} (found : field.spliced? catalog = some task) :
    task.NamesIn known := by
  rcases spliced?_cases found with ⟨name, rfl⟩ | rfl
  · trivial
  · exact namesIn_object

theorem Field.addBase_namesIn {field : Field} {base target : Schema} (inBase : base.NamesIn known)
    (inTarget : target.NamesIn known) : (field.addBase base target).NamesIn known :=
  Field.addProperty_namesIn (inBase.arrayIf _) inTarget field

/-- The definitions of a progress have names of visited entities only. -/
def Progress.NamesVisited (progress : Progress) : Prop :=
  ∀ entry ∈ progress.definitions, entry.2.NamesIn progress.Visited

/-- A task brings names of visited entities only into its answer and into definitions. -/
theorem Introspects.namesIn (derived : Introspects catalog task progress history answer next)
    (definitions : progress.NamesVisited) (names : task.NamesIn progress.Visited) :
    answer.NamesIn next.Visited ∧ next.NamesVisited := by
  induction derived with
  | stub visited => exact ⟨namesIn_reference _ visited, definitions⟩
  | plain => exact ⟨Primitive.schema_namesIn _, definitions⟩
  | @walk progress next name entity history schema fresh listed inner ih =>
    have starts : ∀ other, progress.Visited other → (progress.start name).Visited other :=
      fun _ visited => visited.start
    have ends : ∀ other, next.Visited other → (next.finish name schema).Visited other :=
      fun _ visited => visited.finish schema
    obtain ⟨inAnswer, inDefinitions⟩ := ih (fun entry member => (definitions entry member).imp starts)
      (namesIn_named name (by simp [Progress.Visited]))
    refine ⟨inAnswer.imp ends, fun entry member => ?_⟩
    rcases Table.mem_of_mem_insert member with rfl | member
    · exact inAnswer.imp ends
    · exact (inDefinitions entry member).imp ends
  | named _ ih => exact ih definitions trivial
  | array _ ih =>
    obtain ⟨inAnswer, inDefinitions⟩ := ih definitions trivial
    exact ⟨inAnswer.array, inDefinitions⟩
  | oneOf _ ih => exact ih definitions (fun schema member => by cases member)
  | noVariants => exact ⟨namesIn_ofVariants names, definitions⟩
  | variant first _ early late =>
    obtain ⟨inVariant, inDefinitions⟩ := early definitions trivial
    refine late inDefinitions fun schema member => ?_
    rcases List.mem_append.mp member with member | member
    · exact (names schema member).imp fun name => first.visited
    · obtain rfl := List.mem_singleton.mp member
      exact inVariant
  | noFields => exact ⟨names, definitions⟩
  | oneField _ _ early late =>
    obtain ⟨inBetween, inDefinitions⟩ := early definitions names
    exact late inDefinitions inBetween
  | skipped => exact ⟨names, definitions⟩
  | copied _ _ found =>
    exact ⟨NamesIn.mergeProperties names (definitions _ (Table.mem_of_get? found)), definitions⟩
  | merged found _ inner ih =>
    obtain ⟨inParts, inDefinitions⟩ := ih definitions (Field.spliced?_namesIn found)
    refine ⟨NamesIn.mergeProperties ?_ inParts, inDefinitions⟩
    exact Schema.NamesIn.imp (fun name => inner.visited) names
  | property _ found inner ih =>
    obtain ⟨inBase, inDefinitions⟩ := ih definitions (Field.source?_namesIn found)
    refine ⟨Field.addBase_namesIn inBase ?_, inDefinitions⟩
    exact Schema.NamesIn.imp (fun name => inner.visited) names
  | untyped => exact ⟨Field.addBase_namesIn namesIn_string names, definitions⟩

def Progress.Defines (progress : Progress) (name : String) : Prop :=
  name ∈ Table.keys progress.definitions

/-- Nothing is in progress, and names in definitions lead to definitions. -/
structure Settled (catalog : Catalog) (progress : Progress) : Prop extends
    progress.Coherent catalog where
  idle : ∀ name, progress.state name ≠ .inProgress
  closed : ∀ entry ∈ progress.definitions, entry.2.NamesIn progress.Defines

theorem settled_empty : Settled catalog {} where
  toCoherent := Progress.coherent_empty
  idle name walking := by cases walking
  closed entry member := by cases member

/-- Where nothing is in progress, what was visited is defined. -/
theorem defines_of_visited (coherent : progress.Coherent catalog)
    (idle : ∀ name, progress.state name ≠ .inProgress) (visited : progress.Visited name) :
    progress.Defines name := by
  refine (coherent.complete_iff name).mp ?_
  cases state : progress.state name with
  | unvisited => exact absurd state visited
  | inProgress => exact absurd state (idle name)
  | complete => rfl

theorem Settled.visited (settled : Settled catalog progress) (defined : progress.Defines name) :
    progress.Visited name := by
  unfold Progress.Visited
  rw [(settled.complete_iff name).mpr defined]
  simp

/-- A task behind which a build is settled, if it was settled before it. -/
theorem Settled.behind (settled : Settled catalog progress)
    (derived : Introspects catalog task progress history answer next)
    (names : task.NamesIn progress.Defines) :
    Settled catalog next ∧ answer.NamesIn next.Defines ∧
      progress.definitions <+: next.definitions := by
  have coherent := coherent_of_run derived.run settled.toCoherent
  have idle : ∀ name, next.state name ≠ .inProgress :=
    fun name walking => settled.idle name (derived.inProgress walking)
  have before : ∀ name, progress.Defines name → progress.Visited name := fun name => settled.visited
  have behind : ∀ name, next.Visited name → next.Defines name :=
    fun name => defines_of_visited coherent idle
  obtain ⟨inAnswer, inDefinitions⟩ := derived.namesIn
    (fun entry member => (settled.closed entry member).imp before) (names.imp before)
  refine ⟨⟨coherent, idle, ?_⟩, inAnswer.imp behind,
    definitions_prefix_of_run derived.run settled.toCoherent⟩
  exact fun entry member => (inDefinitions entry member).imp behind

end ApiDoc
