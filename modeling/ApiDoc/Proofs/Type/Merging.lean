import ApiDoc.Proofs.Type.Leads

/-! # What merging takes over

A merge field takes over the parts of its target, unless the target is still being walked, when
nothing is merged. So an entity has all keys of a target whose definition was complete before its
own, and of every target that does not lead back to it (`merge_keeps_keys`). That the target does
not lead back through merge fields is not enough (`merge_loses_keys`): it may be in progress because
an ordinary field led to the entity that merges it.
-/

namespace ApiDoc

variable {catalog : Catalog} {task : Task} {progress next : Progress} {history : List VisitEvent}
  {source answer : Schema} {fields : List Field} {field : Field} {name target : String}

def Schema.keys (schema : Schema) : List String := Table.keys schema.properties

/-- Tasks that add fields keep the keys that are there. -/
def Task.Grows : Task → Schema → Prop
  | .field _ target, answer | .fields _ target, answer => target.keys ⊆ answer.keys
  | _, _ => True

theorem keys_subset_mergeProperties (schema parts : Schema) :
    schema.keys ⊆ (schema.mergeProperties parts).keys ∧
      parts.keys ⊆ (schema.mergeProperties parts).keys :=
  ⟨fun _ member => Table.mem_keys_extend.mpr (.inl member),
    fun _ member => Table.mem_keys_extend.mpr (.inr member)⟩

theorem keys_subset_addBase (field : Field) (base schema : Schema) :
    schema.keys ⊆ (field.addBase base schema).keys := by
  intro key member
  unfold Field.addBase Field.addProperty
  dsimp only
  split <;> exact Table.mem_keys_insert.mpr (.inr member)

theorem Introspects.grows (derived : Introspects catalog task progress history answer next) :
    task.Grows answer := by
  induction derived with
  | stub | plain | walk | named | array | oneOf | noVariants | variant => trivial
  | noFields | skipped => exact List.Subset.refl _
  | oneField _ _ early late => exact List.Subset.trans early late
  | copied | merged => exact (keys_subset_mergeProperties _ _).1
  | property | untyped => exact keys_subset_addBase _ _ _

/-- How a field is added while the fields of a walk are: no more is in progress than where the walk
started, and neither keys nor definitions are lost later. -/
structure Addition (catalog : Catalog) (progress next : Progress) (answer : Schema) (field : Field)
    where
  source : Schema
  before : Progress
  history : List VisitEvent
  result : Schema
  after : Progress
  derived : Introspects catalog (.field field source) before history result after
  inProgress : ∀ outer, before.state outer = .inProgress → progress.state outer = .inProgress
  keys : result.keys ⊆ answer.keys
  definitions : after.definitions <+: next.definitions

/-- Every field is added once its turn comes. -/
theorem Introspects.addition (coherent : progress.Coherent catalog)
    (derived : Introspects catalog (.fields fields source) progress history answer next)
    (member : field ∈ fields) : Nonempty (Addition catalog progress next answer field) := by
  induction fields generalizing progress source history with
  | nil => cases member
  | cons first rest ih =>
    cases derived with
    | @oneField _ middle _ _ _ early _ _ between _ adds others =>
      have behind := coherent_of_run adds.run coherent
      rcases List.mem_cons.mp member with rfl | later
      · exact ⟨⟨source, progress, early, between, middle, adds, fun _ => id, others.grows,
          definitions_prefix_of_run others.run behind⟩⟩
      · obtain ⟨addition⟩ := ih behind others later
        exact ⟨{ addition with
          inProgress := fun outer walking => adds.inProgress (addition.inProgress outer walking) }⟩

/-- A merge field adds all keys of the definition of its target, unless that is in progress. -/
theorem Introspects.merged_keys (derived : Introspects catalog (.field field source) progress history
      answer next) (spliced : field.spliced? catalog = some (.entity target))
    (registered : target ∈ Table.keys catalog) : progress.state target = .inProgress ∨
      ∃ parts, (target, parts) ∈ next.definitions ∧ parts.keys ⊆ answer.keys := by
  cases derived with
  | skipped found walking =>
    obtain rfl : _ = target := by simpa [spliced] using found.symm
    exact .inl walking
  | copied found _ defined =>
    obtain rfl : _ = target := by simpa [spliced] using found.symm
    exact .inr ⟨_, Table.mem_of_get? defined, (keys_subset_mergeProperties _ _).2⟩
  | merged found unvisited inner =>
    obtain rfl := Option.some.inj (found.symm.trans spliced)
    refine .inr ⟨_, ?_, (keys_subset_mergeProperties _ _).2⟩
    cases inner with
    | stub visited => exact absurd (unvisited target rfl) visited
    | plain _ absent => exact absurd registered (Table.get?_eq_none_iff.mp absent)
    | walk =>
      refine Table.mem_of_get? ?_
      simp [Table.get?_insert]
  | property plain => simp [spliced] at plain
  | untyped plain => simp [spliced] at plain

/-- One definition stands before another. -/
def Progress.Precedes (progress : Progress) (first second : String) : Prop :=
  (Table.keys progress.definitions).idxOf first < (Table.keys progress.definitions).idxOf second

instance (progress : Progress) (first second : String) :
    Decidable (progress.Precedes first second) := inferInstanceAs (Decidable (_ < _))

namespace Walk

variable {final : Progress} (walk : Walk catalog final name)
include walk

/-- Where the fields of an entity are walked, all that is in progress leads to the entity. -/
theorem leads (outer : String) (walking : (walk.before.start name).state outer = .inProgress) :
    Leads catalog (.entity outer) name := by
  rw [Progress.state_start] at walking
  split at walking
  · next same => exact same ▸ .here (Table.mem_keys_of_get? walk.listed)
  · exact walk.stacked outer walking

theorem coherent_after : walk.after.Coherent catalog := by
  have member := Table.mem_keys_of_get? walk.listed
  exact coherent_of_run walk.derived.run (walk.coherent.start walk.fresh member)

theorem name_not_mem : name ∉ Table.keys walk.after.definitions := by
  refine walk.coherent_after.not_mem_keys ?_
  rw [walk.derived.state_eq] <;> simp

/-- The definition of the entity stands behind those that were there when its walk ended. -/
theorem definitions_eq :
    ∃ rest, final.definitions = walk.after.definitions ++ (name, walk.definition) :: rest := by
  obtain ⟨rest, split⟩ := walk.kept
  refine ⟨rest, ?_⟩
  rw [← split, Progress.definitions_finish, Table.insert_of_not_mem walk.name_not_mem,
    List.append_assoc, List.singleton_append]

/-- What is in progress during the walk is completed after it. -/
theorem not_precedes (outer : String)
    (walking : (walk.before.start name).state outer = .inProgress) : ¬final.Precedes outer name := by
  obtain ⟨rest, split⟩ := walk.definitions_eq
  have unfinished : outer ∉ Table.keys walk.after.definitions := by
    refine walk.coherent_after.not_mem_keys ?_
    rw [walk.derived.state_eq] <;> simp [walking]
  have missing := walk.name_not_mem
  have keys : Table.keys final.definitions =
      Table.keys walk.after.definitions ++ name :: Table.keys rest := by
    rw [split, Table.keys, List.map_append]
    rfl
  unfold Progress.Precedes
  rw [keys, List.idxOf_append, if_neg unfinished, List.idxOf_append, if_neg missing,
    List.idxOf_cons_self]
  omega

/-- An entity has all keys of what a merge field of it targets, unless that was in progress. -/
theorem merged_keys (coherent : final.Coherent catalog) (member : field ∈ walk.entity.fields)
    (spliced : field.spliced? catalog = some (.entity target))
    (registered : target ∈ Table.keys catalog) :
    (walk.before.start name).state target = .inProgress ∨
      ∃ parts, final.definition? target = some parts ∧ parts.keys ⊆ walk.definition.keys := by
  have begins := walk.coherent.start walk.fresh (Table.mem_keys_of_get? walk.listed)
  obtain ⟨addition⟩ := walk.derived.addition begins member
  rcases addition.derived.merged_keys spliced registered with walking | ⟨parts, defined, kept⟩
  · exact .inl (addition.inProgress target walking)
  · refine .inr ⟨parts, ?_, List.Subset.trans kept addition.keys⟩
    obtain ⟨rest, split⟩ := walk.definitions_eq
    refine Table.get?_of_mem coherent.distinct ?_
    rw [split]
    exact List.mem_append_left _ (addition.definitions.subset defined)

theorem definition?_eq (coherent : final.Coherent catalog) :
    final.definition? name = some walk.definition := by
  obtain ⟨rest, split⟩ := walk.definitions_eq
  refine Table.get?_of_mem coherent.distinct ?_
  rw [split]
  exact List.mem_append_right _ List.mem_cons_self

end Walk

/-- Whatever was called, a complete entity has all keys of the definition of a registered entity that
a merge field of it targets, if the target does not lead back to the entity, or else was complete
before it. -/
theorem merge_keeps_keys (calls : List Call) {entity : Entity}
    (complete : (session catalog calls).2.state name = .complete)
    (listed : catalog.get? name = some entity) (member : field ∈ entity.fields)
    (merge : field.merge = true) (presents : field.entity? catalog = some target)
    (registered : target ∈ Table.keys catalog)
    (apart : ¬Leads catalog (.entity target) name ∨ (session catalog calls).2.Precedes target name) :
    ∃ parts definition, (session catalog calls).2.definition? target = some parts ∧
      (session catalog calls).2.definition? name = some definition ∧
        ∀ key ∈ parts.keys, key ∈ definition.keys := by
  have empty : Progress.Coherent catalog {} := Progress.coherent_empty
  obtain ⟨history, answers, next, ran, derived⟩ := session_derived calls empty
  have same : (session catalog calls).2 = next := congrArg Prod.snd ran
  rw [same] at complete apart ⊢
  obtain ⟨walk⟩ := derived.walk_of_complete settled_empty rfl complete
  have coherent := (derived.settled settled_empty).1.toCoherent
  obtain rfl : walk.entity = entity := Option.some.inj (walk.listed.symm.trans listed)
  have spliced : field.spliced? catalog = some (.entity target) := by
    simp [Field.spliced?, merge, presents]
  rcases walk.merged_keys coherent member spliced registered with walking | ⟨parts, found, kept⟩
  · rcases apart with leadsNowhere | precedes
    · exact absurd (walk.leads target walking) leadsNowhere
    · exact absurd precedes (walk.not_precedes target walking)
  · exact ⟨parts, walk.definition, found, walk.definition?_eq coherent, fun key => @kept key⟩

/-- An account with an owner and a name, and an owner that merges the account. -/
def accounts : Catalog :=
  [("Account", {
      name := "Account"
      fields := [.presentedBy "owner" "Owner", { name := "name", type := some (.named "String") }] }),
    ("Owner", {
      name := "Owner"
      fields := [{ Field.presentedBy "account" "Account" with merge := true }] })]

/-- The owner that is introspected first has all keys of the account. -/
theorem merge_keeps_keys_of_account :
    (session accounts [.introspect "Owner"]).2.state "Owner" = .complete ∧
      (session accounts [.introspect "Owner"]).2.Precedes "Account" "Owner" ∧
      ∃ parts definition,
        (session accounts [.introspect "Owner"]).2.definition? "Account" = some parts ∧
          (session accounts [.introspect "Owner"]).2.definition? "Owner" = some definition ∧
            ∀ key ∈ parts.keys, key ∈ definition.keys := by
  have complete : (session accounts [.introspect "Owner"]).2.state "Owner" = .complete := rfl
  have precedes : (session accounts [.introspect "Owner"]).2.Precedes "Account" "Owner" := by
    decide
  refine ⟨complete, precedes, ?_⟩
  exact merge_keeps_keys [.introspect "Owner"] complete rfl List.mem_cons_self rfl rfl (by decide)
    (.inr precedes)

/-- The parts of the entity come into the task through merge fields alone. -/
inductive Splices (catalog : Catalog) : Task → String → Prop
  | here {name : String} : Splices catalog (.entity name) name
  | within {name other : String} {entity : Entity} {target : Schema} :
      catalog.get? name = some entity → Splices catalog (.fields entity.fields target) other →
      Splices catalog (.entity name) other
  | field {fields : List Field} {field : Field} {target : Schema} {task : Task} {other : String} :
      field ∈ fields → field.spliced? catalog = some task → Splices catalog task other →
      Splices catalog (.fields fields target) other

/-- Only its merge fields bring the parts of another entity into an entity. -/
theorem Splices.of_entity {other : String} (splices : Splices catalog (.entity name) other) :
    name = other ∨ ∃ entity, catalog.get? name = some entity ∧
      ∃ field ∈ entity.fields, ∃ task, field.spliced? catalog = some task ∧
        Splices catalog task other := by
  cases splices with
  | here => exact .inl rfl
  | within listed inside =>
    cases inside with
    | field member spliced splices => exact .inr ⟨_, listed, _, member, _, spliced, splices⟩

/-- The account merges nothing. -/
theorem not_splices_account : ¬Splices accounts (.entity "Account") "Owner" := by
  intro splices
  rcases splices.of_entity with same | ⟨entity, listed, field, member, task, spliced, -⟩
  · simp at same
  · cases listed
    rcases List.mem_cons.mp member with rfl | member
    · cases spliced
    · obtain rfl := List.mem_singleton.mp member
      cases spliced

/-- It is not enough that the target does not lead back through merge fields alone: the owner that is
introspected because of the account has none of its keys. -/
theorem merge_loses_keys : ¬∀ (catalog : Catalog) (calls : List Call) (name target : String)
    (entity : Entity) (field : Field), (session catalog calls).2.state name = .complete →
      catalog.get? name = some entity → field ∈ entity.fields → field.merge = true →
      field.entity? catalog = some target → target ∈ Table.keys catalog →
      ¬Splices catalog (.entity target) name →
      ∃ parts definition, (session catalog calls).2.definition? target = some parts ∧
        (session catalog calls).2.definition? name = some definition ∧
          ∀ key ∈ parts.keys, key ∈ definition.keys := by
  intro lossless
  obtain ⟨parts, definition, found, owned, kept⟩ := lossless accounts [.introspect "Account"] "Owner"
    "Account" _ _ rfl rfl List.mem_cons_self rfl rfl (by decide) not_splices_account
  have there : ((session accounts [.introspect "Account"]).2.definition? "Account").map Schema.keys =
      some ["owner", "name"] := rfl
  have here : ((session accounts [.introspect "Account"]).2.definition? "Owner").map Schema.keys =
      some [] := rfl
  rw [found, Option.map_some, Option.some.injEq] at there
  rw [owned, Option.map_some, Option.some.injEq] at here
  have lost := kept "name" (by simp [there])
  rw [here] at lost
  cases lost

end ApiDoc
