import ApiDoc.Entity
import ApiDoc.Proofs.Run
import ApiDoc.Type.Progress

/-! # The life of an entity

Two things happen to an entity in a build: its walk starts, and its walk ends with a definition. A
progress is coherent if exactly the complete entities have definitions, under their own names and
as objects, and nothing but catalogued entities was visited. Both events keep a progress coherent
(`VisitStep.coherent`), and the definitions are the ends of the walks in order, so that none is
changed or replaced (`definitions_of_run`).
-/

namespace ApiDoc

/-- Something that happens to an entity. -/
inductive VisitEvent where
  /-- The walk over its fields starts. -/
  | start (name : String)
  /-- The walk ends; the schema becomes the definition. -/
  | finish (name : String) (schema : Schema)

def VisitEvent.entity : VisitEvent → String
  | start name => name
  | finish name _ => name

/-- The events that may happen: an entity that was not visited starts, one in progress ends. -/
inductive VisitStep (catalog : Catalog) : Progress → VisitEvent → Progress → Prop
  | start {progress : Progress} {name : String} : progress.state name = .unvisited →
      name ∈ Table.keys catalog → VisitStep catalog progress (.start name) (progress.start name)
  | finish {progress : Progress} {name : String} {schema : Schema} :
      progress.state name = .inProgress → schema.type = some .object →
      schema.canonicalName = some name →
      VisitStep catalog progress (.finish name schema) (progress.finish name schema)

namespace Progress

variable {catalog : Catalog} {progress next : Progress} {event : VisitEvent}
  {history : List VisitEvent} {name other : String} {schema : Schema}

@[simp] theorem state_start : (progress.start name).state other =
    if name = other then .inProgress else progress.state other := by
  simp only [state, start, Table.get?_insert]
  split <;> rfl

@[simp] theorem state_finish : (progress.finish name schema).state other =
    if name = other then .complete else progress.state other := by
  simp only [state, finish, Table.get?_insert]
  split <;> rfl

@[simp] theorem definitions_start : (progress.start name).definitions = progress.definitions := rfl

@[simp] theorem definitions_finish : (progress.finish name schema).definitions =
    progress.definitions.insert name schema := rfl

/-- What a build knows of entities at any time. -/
structure Coherent (catalog : Catalog) (progress : Progress) : Prop where
  /-- The complete entities are those with a definition. -/
  complete_iff : ∀ name, progress.state name = .complete ↔ name ∈ Table.keys progress.definitions
  /-- Only entities of the catalog are visited. -/
  catalogued : ∀ name, progress.state name ≠ .unvisited → name ∈ Table.keys catalog
  distinct : (Table.keys progress.definitions).Nodup
  /-- A definition is an object with its key as its name. -/
  shaped : ∀ entry ∈ progress.definitions,
    entry.2.type = some .object ∧ entry.2.canonicalName = some entry.1

theorem coherent_empty : Coherent catalog {} where
  complete_iff name := by simp [state, Table.keys, Table.get?]
  catalogued name visited := absurd rfl visited
  distinct := List.nodup_nil
  shaped entry member := by cases member

theorem Coherent.not_mem_keys (coherent : progress.Coherent catalog) {name : String}
    (unfinished : progress.state name ≠ .complete) : name ∉ Table.keys progress.definitions :=
  fun member => unfinished ((coherent.complete_iff name).mpr member)

/-- A complete entity has a definition. -/
theorem Coherent.definition?_isSome (coherent : progress.Coherent catalog)
    (complete : progress.state name = .complete) :
    ∃ schema, progress.definition? name = some schema := by
  have member := (coherent.complete_iff name).mp complete
  exact Option.isSome_iff_exists.mp (Table.contains_iff_mem_keys.mpr member)

theorem Coherent.start (coherent : progress.Coherent catalog)
    (unvisited : progress.state name = .unvisited) (listed : name ∈ Table.keys catalog) :
    (progress.start name).Coherent catalog where
  complete_iff other := by
    rw [state_start, definitions_start, ← coherent.complete_iff]
    split
    · next same => simp [← same, unvisited]
    · rfl
  catalogued other visited := by
    rw [state_start] at visited
    split at visited
    · next same => exact same ▸ listed
    · exact coherent.catalogued other visited
  distinct := coherent.distinct
  shaped := coherent.shaped

theorem Coherent.finish (coherent : progress.Coherent catalog)
    (walking : progress.state name = .inProgress) (typed : schema.type = some .object)
    (named : schema.canonicalName = some name) : (progress.finish name schema).Coherent catalog where
  complete_iff other := by
    rw [state_finish, definitions_finish, Table.mem_keys_insert, ← coherent.complete_iff]
    split
    · next same => simp [same]
    · next apart => simp [Ne.symm apart]
  catalogued other visited := by
    rw [state_finish] at visited
    split at visited
    · next same => exact coherent.catalogued other (by simp [← same, walking])
    · exact coherent.catalogued other visited
  distinct := Table.nodup_keys_insert coherent.distinct name schema
  shaped entry member := by
    rcases Table.mem_of_mem_insert member with rfl | member
    · exact ⟨typed, named⟩
    · exact coherent.shaped entry member

end Progress

open Progress

variable {catalog : Catalog} {progress next : Progress} {event : VisitEvent}
  {history : List VisitEvent} {name : String} {schema : Schema}

theorem VisitStep.coherent : Preserves (VisitStep catalog) (Progress.Coherent catalog) := by
  intro progress event next step coherent
  cases step with
  | start unvisited listed => exact coherent.start unvisited listed
  | finish walking typed named => exact coherent.finish walking typed named

theorem coherent_of_run (run : Run (VisitStep catalog) progress history next)
    (coherent : progress.Coherent catalog) : next.Coherent catalog :=
  run.keeps VisitStep.coherent coherent

def VisitEvent.definition? : VisitEvent → Option (String × Schema)
  | start _ => none
  | finish name schema => some (name, schema)

/-- The definitions are the ends of walks in order; none is ever changed. -/
theorem definitions_of_run (run : Run (VisitStep catalog) progress history next)
    (coherent : progress.Coherent catalog) :
    next.definitions = progress.definitions ++ history.filterMap VisitEvent.definition? := by
  induction run with
  | done => simp
  | @step before middle after event rest step _ ih =>
    rw [ih (VisitStep.coherent _ _ _ step coherent)]
    cases step with
    | start => rfl
    | @finish name schema walking =>
      have unfinished : before.state name ≠ .complete := by simp [walking]
      have absent := coherent.not_mem_keys unfinished
      rw [definitions_finish, Table.insert_of_not_mem absent, List.append_assoc]
      rfl

theorem definitions_prefix_of_run (run : Run (VisitStep catalog) progress history next)
    (coherent : progress.Coherent catalog) : progress.definitions <+: next.definitions := by
  rw [definitions_of_run run coherent]
  exact List.prefix_append _ _

/-- What is visited stays visited. -/
theorem visited_of_run (run : Run (VisitStep catalog) progress history next)
    (visited : progress.state name ≠ .unvisited) : next.state name ≠ .unvisited := by
  have kept : Preserves (VisitStep catalog) fun progress => progress.state name ≠ .unvisited := by
    intro before event after step visited
    cases step <;> simp only [state_start, state_finish] <;> split <;> simp [visited]
  have still := run.keeps kept visited
  exact still

namespace Progress

/-- How many entries of the catalog are not visited. -/
def unvisited (catalog : Catalog) (progress : Progress) : Nat :=
  (Table.keys catalog).countP fun name => progress.state name == .unvisited

theorem unvisited_le_length : progress.unvisited catalog ≤ catalog.length :=
  Nat.le_trans List.countP_le_length (by simp [Table.keys])

theorem unvisited_le_of_run (run : Run (VisitStep catalog) progress history next) :
    next.unvisited catalog ≤ progress.unvisited catalog := by
  refine List.countP_mono_left fun name _ left => ?_
  simp only [beq_iff_eq] at left ⊢
  exact Classical.byContradiction fun visited => visited_of_run run visited left

/-- The start of a walk leaves fewer entities to be visited. -/
theorem unvisited_start_lt (fresh : progress.state name = .unvisited)
    (listed : name ∈ Table.keys catalog) :
    (progress.start name).unvisited catalog < progress.unvisited catalog := by
  obtain ⟨first, rest, split⟩ := List.append_of_mem listed
  have fewer (part : List String) :
      part.countP (fun other => (progress.start name).state other == .unvisited) ≤
        part.countP fun other => progress.state other == .unvisited := by
    refine List.countP_mono_left fun other _ left => ?_
    simp only [state_start, beq_iff_eq] at left ⊢
    split at left
    · cases left
    · exact left
  have early := fewer first
  have late := fewer rest
  unfold unvisited
  rw [split, List.countP_append, List.countP_append, List.countP_cons, List.countP_cons]
  have gone : ((progress.start name).state name == .unvisited) = false := by simp
  have there : (progress.state name == .unvisited) = true := by simp [fresh]
  simp only [gone, there, Bool.false_eq_true, if_false, if_true]
  omega

end Progress

end ApiDoc
