import ApiDoc.Proofs.Type.Progress
import ApiDoc.Type.Introspection

/-! # Introspection as a relation

What introspection answers, with the built-in resolvers, as a relation without levels:
`Introspects catalog task progress history answer next` derives the answer of a task, what happens
to entities on the way, and the progress behind it. There is one rule for each thing a task can
turn out to be. A derivation is finite, so a task that has one is one whose walk ends.

What happens on the way is a legal run of the events of `Progress` (`Introspects.run`), an entity
visited before is left as it is (`Introspects.state_eq`), and every walk that starts ends
(`Introspects.inProgress`).
-/

namespace ApiDoc

/-- What introspection is asked for. -/
inductive Task where
  /-- The schema of an entity. -/
  | entity (name : String)
  /-- The schema of a token. -/
  | token (token : TypeToken)
  /-- The alternatives in `done` with those of tokens behind them. -/
  | variants (tokens : List TypeToken) (done : List Schema)
  /-- A schema with a field. -/
  | field (field : Field) (target : Schema)
  /-- A schema with fields. -/
  | fields (fields : List Field) (target : Schema)

namespace Field

/-- Where the parts come from that a field gives to its parent: from an entity, or from its own
nested fields. A field without any is a property. -/
def spliced? (catalog : Catalog) (field : Field) : Option Task :=
  if field.merge then
    match field.entity? catalog with
    | some name => some (.entity name)
    | none => if field.nested.isEmpty then none else some (.fields field.nested .object)
  else none

/-- What the schema of a property is made from; a field that says nothing of it is a string. -/
def source? (field : Field) : Option Task :=
  match field.presenter with
  | some name => some (.entity name)
  | none =>
    if field.nested.isEmpty then field.declaredType.map .token
    else some (.fields field.nested .object)

/-- Parts come from an entity or from the nested fields. -/
theorem spliced?_cases {catalog : Catalog} {field : Field} {task : Task}
    (found : field.spliced? catalog = some task) :
    (∃ name, task = .entity name) ∨ task = .fields field.nested .object := by
  unfold spliced? at found
  split at found
  · split at found
    · next name _ => exact .inl ⟨name, (Option.some.inj found).symm⟩
    · split at found
      · cases found
      · exact .inr (Option.some.inj found).symm
  · cases found

/-- A property is made from an entity, from the declared type or from the nested fields. -/
theorem source?_cases {field : Field} {task : Task} (found : field.source? = some task) :
    (∃ name, task = .entity name) ∨
      (∃ token, field.declaredType = some token ∧ task = .token token) ∨
        task = .fields field.nested .object := by
  unfold source? at found
  split at found
  · next name _ => exact .inl ⟨name, (Option.some.inj found).symm⟩
  · split at found
    · obtain ⟨token, declared, same⟩ := Option.map_eq_some_iff.mp found
      exact .inr (.inl ⟨token, declared, same.symm⟩)
    · exact .inr (.inr (Option.some.inj found).symm)

/-- A field as a property that `base` is the schema or the item schema of. -/
def addBase (field : Field) (base target : Schema) : Schema :=
  field.addProperty (base.arrayIf (field.isArray || field.documentation.isArray)) target

end Field

/-- `Introspects catalog task progress history answer next`: in `progress` the task is answered
with `answer`, and `history` leads to the progress `next`. -/
inductive Introspects (catalog : Catalog) :
    Task → Progress → List VisitEvent → Schema → Progress → Prop
  /-- A visited entity is a stub. -/
  | stub {progress : Progress} {name : String} : progress.state name ≠ .unvisited →
      Introspects catalog (.entity name) progress [] (.reference name) progress
  /-- A name that is no entity is a plain type. -/
  | plain {progress : Progress} {name : String} : progress.state name = .unvisited →
      catalog.get? name = none →
      Introspects catalog (.entity name) progress [] (Primitive.schema name) progress
  /-- The fields of an entity are walked when it is met for the first time. -/
  | walk {progress next : Progress} {name : String} {entity : Entity} {history : List VisitEvent}
      {schema : Schema} : progress.state name = .unvisited → catalog.get? name = some entity →
      Introspects catalog (.fields entity.fields (.namedObject name)) (progress.start name) history
        schema next →
      Introspects catalog (.entity name) progress
        (.start name :: (history ++ [.finish name schema])) schema (next.finish name schema)
  | named {progress next : Progress} {name : String} {history : List VisitEvent} {schema : Schema} :
      Introspects catalog (.entity name) progress history schema next →
      Introspects catalog (.token (.named name)) progress history schema next
  | array {progress next : Progress} {item : TypeToken} {history : List VisitEvent}
      {schema : Schema} : Introspects catalog (.token item) progress history schema next →
      Introspects catalog (.token (.arrayOf item)) progress history (.array schema) next
  | oneOf {progress next : Progress} {tokens : List TypeToken} {history : List VisitEvent}
      {schema : Schema} : Introspects catalog (.variants tokens []) progress history schema next →
      Introspects catalog (.token (.oneOf tokens)) progress history schema next
  | noVariants {progress : Progress} {done : List Schema} :
      Introspects catalog (.variants [] done) progress [] (.ofVariants done) progress
  | variant {progress middle next : Progress} {first : TypeToken} {rest : List TypeToken}
      {done : List Schema} {early late : List VisitEvent} {variant schema : Schema} :
      Introspects catalog (.token first) progress early variant middle →
      Introspects catalog (.variants rest (done ++ [variant])) middle late schema next →
      Introspects catalog (.variants (first :: rest) done) progress (early ++ late) schema next
  | noFields {progress : Progress} {target : Schema} :
      Introspects catalog (.fields [] target) progress [] target progress
  | oneField {progress middle next : Progress} {first : Field} {rest : List Field}
      {early late : List VisitEvent} {target between schema : Schema} :
      Introspects catalog (.field first target) progress early between middle →
      Introspects catalog (.fields rest between) middle late schema next →
      Introspects catalog (.fields (first :: rest) target) progress (early ++ late) schema next
  /-- A merge field gives nothing from an entity that is being walked. -/
  | skipped {progress : Progress} {field : Field} {target : Schema} {name : String} :
      field.spliced? catalog = some (.entity name) → progress.state name = .inProgress →
      Introspects catalog (.field field target) progress [] target progress
  /-- A merge field gives the parts of the definition of a complete entity. -/
  | copied {progress : Progress} {field : Field} {target definition : Schema} {name : String} :
      field.spliced? catalog = some (.entity name) → progress.state name = .complete →
      progress.definition? name = some definition →
      Introspects catalog (.field field target) progress [] (target.mergeProperties definition)
        progress
  /-- Otherwise a merge field gives the parts of what it is spliced from. -/
  | merged {progress next : Progress} {field : Field} {target parts : Schema} {task : Task}
      {history : List VisitEvent} : field.spliced? catalog = some task →
      (∀ name, task = .entity name → progress.state name = .unvisited) →
      Introspects catalog task progress history parts next →
      Introspects catalog (.field field target) progress history (target.mergeProperties parts) next
  | property {progress next : Progress} {field : Field} {target base : Schema} {task : Task}
      {history : List VisitEvent} : field.spliced? catalog = none → field.source? = some task →
      Introspects catalog task progress history base next →
      Introspects catalog (.field field target) progress history (field.addBase base target) next
  | untyped {progress : Progress} {field : Field} {target : Schema} :
      field.spliced? catalog = none → field.source? = none →
      Introspects catalog (.field field target) progress [] (field.addBase .string target) progress

/-- What tasks that add fields to a schema leave as it is. -/
def Task.Frame : Task → Schema → Prop
  | .field _ target, answer | .fields _ target, answer =>
    answer.type = target.type ∧ answer.canonicalName = target.canonicalName ∧
      answer.description = target.description ∧ answer.nullable = target.nullable ∧
        answer.extensions = target.extensions
  | _, _ => True

namespace Introspects

variable {catalog : Catalog} {task : Task} {progress next : Progress} {history : List VisitEvent}
  {schema target answer : Schema} {name : String}

/-- Visited entities are left as they are. -/
theorem state_eq (derived : Introspects catalog task progress history answer next)
    (visited : progress.state name ≠ .unvisited) : next.state name = progress.state name := by
  induction derived with
  | stub | plain | noVariants | noFields | skipped | copied | untyped => rfl
  | named _ ih | array _ ih | oneOf _ ih | merged _ _ _ ih | property _ _ _ ih => exact ih visited
  | variant _ _ early late | oneField _ _ early late =>
    rw [late (by rwa [early visited]), early visited]
  | @walk progress next started entity history schema fresh listed inner ih =>
    have apart : started ≠ name := by
      rintro rfl
      exact visited fresh
    rw [Progress.state_finish, if_neg apart, ih (by rwa [Progress.state_start, if_neg apart]),
      Progress.state_start, if_neg apart]

/-- Visited entities stay visited. -/
theorem visited (derived : Introspects catalog task progress history answer next)
    (before : progress.state name ≠ .unvisited) : next.state name ≠ .unvisited := by
  rwa [derived.state_eq before]

/-- What is in progress behind a task was in progress before it: every walk that starts ends. -/
theorem inProgress (derived : Introspects catalog task progress history answer next)
    (walking : next.state name = .inProgress) : progress.state name = .inProgress := by
  induction derived with
  | stub | plain | noVariants | noFields | skipped | copied | untyped => exact walking
  | named _ ih | array _ ih | oneOf _ ih | merged _ _ _ ih | property _ _ _ ih => exact ih walking
  | variant _ _ early late | oneField _ _ early late => exact early (late walking)
  | @walk progress next started entity history schema fresh listed inner ih =>
    rw [Progress.state_finish] at walking
    split at walking
    · cases walking
    · next apart =>
      have before := ih walking
      rwa [Progress.state_start, if_neg apart] at before

/-- Adding fields changes neither the type nor the name of a schema, nor how a reference to it looks. -/
theorem frame (derived : Introspects catalog task progress history answer next) :
    task.Frame answer := by
  induction derived with
  | stub | plain | walk | named | array | oneOf | noVariants | variant => trivial
  | noFields | skipped | copied | merged => exact ⟨rfl, rfl, rfl, rfl, rfl⟩
  | oneField _ _ early late =>
    obtain ⟨type, name, description, nullable, extensions⟩ := early
    obtain ⟨type', name', description', nullable', extensions'⟩ := late
    exact ⟨type'.trans type, name'.trans name, description'.trans description, nullable'.trans nullable,
      extensions'.trans extensions⟩
  | property | untyped =>
    simp only [Task.Frame, Field.addBase, Field.addProperty]
    split <;> exact ⟨rfl, rfl, rfl, rfl, rfl⟩

/-- A walk may end where the fields of its entity are walked. -/
theorem finish {fields : List Field}
    (inner : Introspects catalog (.fields fields (.namedObject name)) (progress.start name) history
      answer next) : VisitStep catalog next (.finish name answer) (next.finish name answer) := by
  have walking : next.state name = .inProgress := by
    rw [inner.state_eq] <;> simp
  obtain ⟨typed, named, -⟩ := inner.frame
  exact .finish walking typed named

/-- What happens to entities in a task is a legal run. -/
theorem run (derived : Introspects catalog task progress history answer next) :
    Run (VisitStep catalog) progress history next := by
  induction derived with
  | stub | plain | noVariants | noFields | skipped | copied | untyped => exact .done _
  | named _ ih | array _ ih | oneOf _ ih | merged _ _ _ ih | property _ _ _ ih => exact ih
  | variant _ _ early late | oneField _ _ early late => exact early.append late
  | walk fresh listed inner ih =>
    exact .step (.start fresh (Table.mem_keys_of_get? listed)) (ih.append (.single inner.finish))

end Introspects

end ApiDoc
