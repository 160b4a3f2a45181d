import ApiDoc.Proofs.Type.Levels
import ApiDoc.Proofs.Type.Redirects

/-! # Resolving by any chain

What a chain of any resolvers answers to a task, as a relation without levels:
`Resolves answering catalog task progress answer next` derives the answer and the progress behind
it. Of the chain it knows only which resolver answers which token. Custom resolvers can redirect in
a circle, which never comes to an answer; a derivation is finite, so a task that has one is one that
is answered.

The functions go down a level at each redirection and at each field. A task with a derivation never
needs more levels than a build has, so the functions compute what is derived (`resolve?_run`,
`entitySchema_run`).
-/

namespace ApiDoc

/-- A merge field gives no parts if it is spliced from nothing, or from a complete entity that has no
definition. -/
def Field.Plain (catalog : Catalog) (progress : Progress) (field : Field) : Prop :=
  field.spliced? catalog = none ∨ ∃ name, field.spliced? catalog = some (.entity name) ∧
    progress.state name = .complete ∧ progress.definition? name = none

/-- `Resolves answering catalog task progress answer next`: in `progress` the task is answered with
`answer`, and the progress behind it is `next`. -/
inductive Resolves (answering : TypeToken → Option Resolver) (catalog : Catalog) :
    Task → Progress → Schema → Progress → Prop
  /-- A visited entity is a stub. -/
  | stub {progress : Progress} {name : String} : progress.state name ≠ .unvisited →
      Resolves answering catalog (.entity name) progress (.reference name) progress
  /-- A name that is no entity is a plain type. -/
  | plain {progress next : Progress} {name : String} {schema : Schema} :
      progress.state name = .unvisited → catalog.get? name = none →
      Resolves answering catalog (.token (.named name)) progress schema next →
      Resolves answering catalog (.entity name) progress schema next
  /-- The fields of an entity are walked when it is met for the first time. -/
  | walk {progress next : Progress} {name : String} {entity : Entity} {schema : Schema} :
      progress.state name = .unvisited → catalog.get? name = some entity →
      Resolves answering catalog (.fields entity.fields (.namedObject name)) (progress.start name)
        schema next →
      Resolves answering catalog (.entity name) progress schema (next.finish name schema)
  | named {progress next : Progress} {name : String} {schema : Schema} :
      answering (.named name) = some .entity →
      Resolves answering catalog (.entity name) progress schema next →
      Resolves answering catalog (.token (.named name)) progress schema next
  | array {progress next : Progress} {item : TypeToken} {schema : Schema} :
      answering (.arrayOf item) = some .array →
      Resolves answering catalog (.token item) progress schema next →
      Resolves answering catalog (.token (.arrayOf item)) progress (.array schema) next
  | oneOf {progress next : Progress} {tokens : List TypeToken} {schema : Schema} :
      answering (.oneOf tokens) = some .oneOf →
      Resolves answering catalog (.variants tokens []) progress schema next →
      Resolves answering catalog (.token (.oneOf tokens)) progress schema next
  | primitive {progress : Progress} {token : TypeToken} : answering token = some .primitive →
      Resolves answering catalog (.token token) progress token.primitiveSchema progress
  | fixed {progress : Progress} {token : TypeToken} {resolver : CustomResolver} {schema : Schema} :
      answering token = some (.custom resolver) → resolver.reply = .schema schema →
      Resolves answering catalog (.token token) progress schema progress
  | redirect {progress next : Progress} {token target : TypeToken} {resolver : CustomResolver}
      {schema : Schema} :
      answering token = some (.custom resolver) → resolver.reply = .redirect target →
      Resolves answering catalog (.token target) progress schema next →
      Resolves answering catalog (.token token) progress schema next
  /-- A token that no resolver answers is a string. -/
  | unanswered {progress : Progress} {token : TypeToken} : answering token = none →
      Resolves answering catalog (.token token) progress .string progress
  | noVariants {progress : Progress} {done : List Schema} :
      Resolves answering catalog (.variants [] done) progress (.ofVariants done) progress
  | variant {progress middle next : Progress} {first : TypeToken} {rest : List TypeToken}
      {done : List Schema} {variant schema : Schema} :
      Resolves answering catalog (.token first) progress variant middle →
      Resolves answering catalog (.variants rest (done ++ [variant])) middle schema next →
      Resolves answering catalog (.variants (first :: rest) done) progress schema next
  | noFields {progress : Progress} {target : Schema} :
      Resolves answering catalog (.fields [] target) progress target progress
  | oneField {progress middle next : Progress} {first : Field} {rest : List Field}
      {target between schema : Schema} :
      Resolves answering catalog (.field first target) progress between middle →
      Resolves answering catalog (.fields rest between) middle schema next →
      Resolves answering catalog (.fields (first :: rest) target) progress schema next
  /-- A merge field gives nothing from an entity that is being walked. -/
  | skipped {progress : Progress} {field : Field} {target : Schema} {name : String} :
      field.spliced? catalog = some (.entity name) → progress.state name = .inProgress →
      Resolves answering catalog (.field field target) progress target progress
  /-- A merge field gives the parts of the definition of a complete entity. -/
  | copied {progress : Progress} {field : Field} {target definition : Schema} {name : String} :
      field.spliced? catalog = some (.entity name) → progress.state name = .complete →
      progress.definition? name = some definition →
      Resolves answering catalog (.field field target) progress (target.mergeProperties definition)
        progress
  /-- Otherwise a merge field gives the parts of what it is spliced from. -/
  | merged {progress next : Progress} {field : Field} {target parts : Schema} {task : Task} :
      field.spliced? catalog = some task →
      (∀ name, task = .entity name → progress.state name = .unvisited) →
      Resolves answering catalog task progress parts next →
      Resolves answering catalog (.field field target) progress (target.mergeProperties parts) next
  | property {progress next : Progress} {field : Field} {target base : Schema} {task : Task} :
      field.Plain catalog progress → field.source? = some task →
      Resolves answering catalog task progress base next →
      Resolves answering catalog (.field field target) progress (field.addBase base target) next
  | untyped {progress : Progress} {field : Field} {target : Schema} :
      field.Plain catalog progress → field.source? = none →
      Resolves answering catalog (.field field target) progress (field.addBase .string target)
        progress

/-- What a task asks for follows at most `limit` redirections in a row before it meets a field. -/
def Task.Within (answering : TypeToken → Option Resolver) (catalog : Catalog) (progress : Progress)
    (limit : Nat) : Task → Prop
  | .entity name => progress.state name = .unvisited → catalog.get? name = none →
      RedirectsWithin answering limit (.named name)
  | .token asked => RedirectsWithin answering limit asked
  | .variants tokens _ => ∀ asked ∈ tokens, RedirectsWithin answering limit asked
  | .field .. | .fields .. => True

namespace Resolves

variable {answering : TypeToken → Option Resolver} {catalog : Catalog} {task : Task}
  {progress next : Progress} {answer : Schema} {name : String} {token : TypeToken}

/-- Visited entities stay visited. -/
theorem visited (derived : Resolves answering catalog task progress answer next)
    (before : progress.state name ≠ .unvisited) : next.state name ≠ .unvisited := by
  induction derived with
  | stub | primitive | fixed | unanswered | noVariants | noFields | skipped | copied | untyped =>
    exact before
  | plain _ _ _ ih | named _ _ ih | array _ _ ih | oneOf _ _ ih | redirect _ _ _ ih | merged _ _ _ ih
  | property _ _ _ ih => exact ih before
  | variant _ _ early late | oneField _ _ early late => exact late (early before)
  | walk _ _ _ ih =>
    rw [Progress.state_finish]
    split
    · simp
    · refine ih ?_
      rw [Progress.state_start]
      split
      · simp
      · exact before

/-- A task leaves no more entities to be visited than there were. -/
theorem unvisited_le (derived : Resolves answering catalog task progress answer next) :
    next.unvisited catalog ≤ progress.unvisited catalog := by
  refine List.countP_mono_left fun name _ left => ?_
  simp only [beq_iff_eq] at left ⊢
  exact Classical.byContradiction fun visited => derived.visited visited left

/-- What no resolver answers is a string. -/
theorem getD_answering (derived : Resolves answering catalog (.token token) progress answer next) :
    ((answering token).map fun _ => answer).getD .string = answer := by
  cases derived with
  | named answered | array answered | oneOf answered | primitive answered | fixed answered
  | redirect answered => rw [answered]; rfl
  | unanswered missed => rw [missed]; rfl

/-- The redirections of a task come to an end. -/
theorem within (derived : Resolves answering catalog task progress answer next) :
    ∃ limit, task.Within answering catalog progress limit := by
  induction derived with
  | stub visited => exact ⟨0, fun unvisited => absurd unvisited visited⟩
  | plain _ _ _ ih =>
    obtain ⟨limit, within⟩ := ih
    exact ⟨limit, fun _ _ => within⟩
  | walk _ listed => exact ⟨0, fun _ absent => by cases listed.symm.trans absent⟩
  | named answered => exact ⟨0, RedirectsWithin.done (by simp only [onward, answered])⟩
  | array answered _ ih =>
    obtain ⟨limit, within⟩ := ih
    exact ⟨limit, .parts (onward_array answered) (List.forall_mem_singleton.mpr within)⟩
  | oneOf answered _ ih =>
    obtain ⟨limit, within⟩ := ih
    exact ⟨limit, .parts (onward_oneOf answered) within⟩
  | primitive answered | unanswered answered =>
    exact ⟨0, RedirectsWithin.done (by simp only [onward, answered])⟩
  | fixed answered reply => exact ⟨0, RedirectsWithin.done (by simp only [onward, answered, reply])⟩
  | redirect answered reply _ ih =>
    obtain ⟨limit, within⟩ := ih
    exact ⟨limit + 1, .redirect (onward_custom answered reply) within⟩
  | noVariants => exact ⟨0, by simp [Task.Within]⟩
  | variant _ _ early late =>
    obtain ⟨limit, within⟩ := early
    obtain ⟨more, rest⟩ := late
    refine ⟨limit + more, List.forall_mem_cons.mpr ⟨within.mono (by omega), fun token member => ?_⟩⟩
    exact (rest token member).mono (by omega)
  | noFields | oneField | skipped | copied | merged | property | untyped => exact ⟨0, trivial⟩

/-- By a chain, no more redirections are followed in a row than there are resolvers. -/
theorem within_length {chain : Chain}
    (derived : Resolves (chain.answering? catalog) catalog task progress answer next) :
    task.Within (chain.answering? catalog) catalog progress chain.length := by
  obtain ⟨limit, within⟩ := derived.within
  cases task with
  | entity => exact fun unvisited absent => (within unvisited absent).length_chain
  | token => exact RedirectsWithin.length_chain within
  | variants => exact fun token member => (within token member).length_chain
  | field | fields => trivial

end Resolves

variable {lexicon : Lexicon} {levels : Nat} {deeper : Descent} {progress next : Progress}
  {answer : Schema} {task : Task}

/-- What answers a task among the fields of an entity. -/
def Task.below (lexicon : Lexicon) (deeper : Descent) : Task → Build Schema
  | .entity name => deeper.entity name
  | .token asked => deeper.token asked
  | .variants tokens done =>
    return .ofVariants (done ++ (← lexicon.resolveAllWith deeper tokens))
  | .field part target => part.expose lexicon deeper target
  | .fields parts target => Field.exposeAll lexicon deeper parts target

namespace Field

variable {field : Field} {name : String} {parts base : Schema}

theorem merge_of_spliced? (spliced : field.spliced? lexicon.catalog = some task) :
    field.merge = true := by
  unfold spliced? at spliced
  split at spliced
  · assumption
  · cases spliced

theorem entity?_of_spliced? (spliced : field.spliced? lexicon.catalog = some (.entity name)) :
    field.entity? lexicon.catalog = some name := by
  rw [spliced?, if_pos (merge_of_spliced? spliced)] at spliced
  split at spliced
  · next other presented =>
    obtain rfl : other = name := by injection spliced with same; injection same
    exact presented
  · split at spliced <;> cases spliced

/-- A merge field that presents an entity gives what the state of the entity says. -/
theorem mergedSchema_entity {inline : Build Schema}
    (spliced : field.spliced? lexicon.catalog = some (.entity name)) :
    (field.mergedSchema lexicon deeper inline).run progress =
      match progress.state name with
      | .inProgress => (some .object, progress)
      | .complete => (progress.definition? name, progress)
      | .unvisited => (do return some (← deeper.entity name) : Build (Option Schema)).run progress := by
  unfold mergedSchema
  simp only [entity?_of_spliced? spliced, get_bind_run]
  cases progress.state name <;> rfl

/-- A merge field whose source is not visited yet gives the parts of the source. -/
theorem mergedSchema_below (spliced : field.spliced? lexicon.catalog = some task)
    (fresh : ∀ name, task = .entity name → progress.state name = .unvisited)
    (ran : (task.below lexicon deeper).run progress = (parts, next)) :
    (field.mergedSchema lexicon deeper (Field.exposeAll lexicon deeper field.nested .object)).run
      progress = (some parts, next) := by
  rcases spliced?_cases spliced with ⟨name, rfl⟩ | rfl
  · rw [mergedSchema_entity spliced, fresh name rfl]
    exact run_bind_of_run ran
  · rw [spliced?, if_pos (merge_of_spliced? spliced)] at spliced
    unfold mergedSchema
    cases presented : field.entity? lexicon.catalog with
    | some name => simp [presented] at spliced
    | none =>
      simp only [presented] at spliced ⊢
      by_cases leaf : field.nested.isEmpty = true
      · rw [if_pos leaf] at spliced
        cases spliced
      · rw [if_neg leaf]
        exact run_bind_of_run ran

/-- A field that gives no parts leaves everything as it is. -/
theorem mergedSchema_plain {inline : Build Schema} (plain : field.Plain lexicon.catalog progress)
    (merge : field.merge = true) :
    (field.mergedSchema lexicon deeper inline).run progress = (none, progress) := by
  rcases plain with nothing | ⟨name, spliced, complete, undefined⟩
  · exact mergedSchema_run_none lexicon merge nothing
  · rw [mergedSchema_entity spliced, complete]
    simp only [undefined]

/-- A property is made from its source. -/
theorem baseSchema_run
    (ran : ((field.source?.map (Task.below lexicon deeper)).getD (pure .string)).run progress =
      (base, next)) :
    (field.baseSchema deeper (Field.exposeAll lexicon deeper field.nested .object)).run progress =
      (base.arrayIf (field.isArray || field.documentation.isArray), next) := by
  unfold source? at ran
  unfold baseSchema
  cases presented : field.presenter with
  | some name =>
    rw [presented] at ran
    exact run_bind_of_run ran
  | none =>
    rw [presented] at ran
    cases parts : field.nested.isEmpty <;> rw [parts] at ran
    · exact run_bind_of_run ran
    · cases declared : field.declaredType <;> rw [declared] at ran <;> exact run_bind_of_run ran

theorem expose_eq (lexicon : Lexicon) (deeper : Descent) (field : Field) (target : Schema) :
    field.expose lexicon deeper target =
      field.exposeWith lexicon deeper (Field.exposeAll lexicon deeper field.nested .object) target := by
  cases field
  rw [expose]

/-- A merge field merges the parts it gives. -/
theorem expose_merged (spliced : field.spliced? lexicon.catalog = some task)
    (ran : (field.mergedSchema lexicon deeper
      (Field.exposeAll lexicon deeper field.nested .object)).run progress = (some parts, next))
    (target : Schema) :
    (field.expose lexicon deeper target).run progress = (target.mergeProperties parts, next) := by
  rw [expose_eq, exposeWith, if_pos (merge_of_spliced? spliced), run_bind_of_run ran]
  rfl

/-- A field that gives no parts is a property. -/
theorem expose_plain (plain : field.Plain lexicon.catalog progress)
    (ran : ((field.source?.map (Task.below lexicon deeper)).getD (pure .string)).run progress =
      (base, next)) (target : Schema) :
    (field.expose lexicon deeper target).run progress = (field.addBase base target, next) := by
  rw [expose_eq, exposeWith]
  cases merge : field.merge with
  | true =>
    rw [if_pos rfl, run_bind_of_run (mergedSchema_plain plain merge)]
    exact run_bind_of_run (baseSchema_run ran)
  | false =>
    rw [if_neg (by simp), run_bind_of_run (pure_run _)]
    exact run_bind_of_run (baseSchema_run ran)

end Field

/-- There are levels for all redirections that a task may follow and all entities that it may visit
for the first time. -/
def Task.Room (lexicon : Lexicon) (levels : Nat) (progress : Progress) (task : Task) : Prop :=
  match task with
  | .field .. | .fields .. =>
    (progress.unvisited lexicon.catalog + 1) * (lexicon.chain.length + 1) ≤ levels
  | task => ∃ limit,
    task.Within (lexicon.chain.answering? lexicon.catalog) lexicon.catalog progress limit ∧
      limit + progress.unvisited lexicon.catalog * (lexicon.chain.length + 1) ≤ levels

/-- The functions compute an answer to a task. -/
def Task.Computed (lexicon : Lexicon) (levels : Nat) (progress : Progress) (answer : Schema)
    (next : Progress) : Task → Prop
  | .entity name =>
    (lexicon.visitEntity (lexicon.descent levels) name).run progress = (answer, next)
  | .token asked => (lexicon.resolveWith? (lexicon.descent levels) asked).run progress =
      ((lexicon.chain.answering? lexicon.catalog asked).map fun _ => answer, next)
  | .variants tokens done => ∃ schemas,
      (lexicon.resolveAllWith (lexicon.descent levels) tokens).run progress = (schemas, next) ∧
        answer = .ofVariants (done ++ schemas)
  | .field part target =>
    (part.expose lexicon (lexicon.descent levels) target).run progress = (answer, next)
  | .fields parts target =>
    (Field.exposeAll lexicon (lexicon.descent levels) parts target).run progress = (answer, next)

/-- The entity resolver answers the names of entities. -/
theorem contains_of_answering? {chain : Chain} {catalog : Catalog} {name : String}
    (answered : chain.answering? catalog (.named name) = some .entity) :
    Table.contains catalog name = true := by
  have handled := List.find?_some answered
  exact handled

/-- A name that is no entity is resolved as a plain type. -/
theorem resolveWith?_named_plain {name : String} (absent : lexicon.catalog.get? name = none)
    (deeper : Descent) :
    lexicon.resolveWith? deeper (.named name) = lexicon.plainSchema? deeper name := by
  rw [Lexicon.resolveWith?_named]
  split
  · next answered =>
    have listed := contains_of_answering? answered
    rw [contains_eq_false absent] at listed
    cases listed
  · rfl

namespace Resolves

/-- What is computed for a token is its answer one level higher. -/
theorem token_run {token : TypeToken}
    (derived : Resolves (lexicon.chain.answering? lexicon.catalog) lexicon.catalog (.token token)
      progress answer next)
    (computed : Task.Computed lexicon levels progress answer next (.token token)) :
    ((lexicon.descent (levels + 1)).token token).run progress = (answer, next) := by
  refine (run_bind_of_run computed).trans ?_
  rw [pure_run, derived.getD_answering]

/-- A task among fields is answered wherever the fields have room. -/
theorem below_run
    (derived : Resolves (lexicon.chain.answering? lexicon.catalog) lexicon.catalog task progress answer
      next)
    (computed : ∀ levels, task.Room lexicon levels progress →
      task.Computed lexicon levels progress answer next)
    (room : (progress.unvisited lexicon.catalog + 1) * (lexicon.chain.length + 1) ≤ levels) :
    (task.below lexicon (lexicon.descent levels)).run progress = (answer, next) := by
  have within := derived.within_length
  have product := Nat.add_one_mul (progress.unvisited lexicon.catalog) (lexicon.chain.length + 1)
  obtain ⟨deeper, rfl⟩ : ∃ deeper, levels = deeper + 1 := ⟨levels - 1, by omega⟩
  cases task with
  | entity name => exact computed deeper ⟨_, within, by omega⟩
  | token token => exact derived.token_run (computed deeper ⟨_, within, by omega⟩)
  | variants tokens done =>
    obtain ⟨schemas, ran, rfl⟩ := computed (deeper + 1) ⟨_, within, by omega⟩
    exact run_bind_of_run ran
  | field | fields => exact computed (deeper + 1) room

theorem computed_stub {name : String} (visited : progress.state name ≠ .unvisited) :
    Task.Computed lexicon levels progress (.reference name) progress (.entity name) := by
  simp only [Task.Computed, Lexicon.visitEntity]
  rw [get_bind_run, if_pos visited, pure_run]

theorem computed_plain {name : String} (unvisited : progress.state name = .unvisited)
    (absent : lexicon.catalog.get? name = none)
    (inner : Resolves (lexicon.chain.answering? lexicon.catalog) lexicon.catalog (.token (.named name))
      progress answer next)
    (ran : Task.Computed lexicon levels progress answer next (.token (.named name))) :
    Task.Computed lexicon levels progress answer next (.entity name) := by
  simp only [Task.Computed, Lexicon.visitEntity, resolveWith?_named_plain absent] at ran ⊢
  rw [get_bind_run, if_neg (not_not_intro unvisited), absent, run_bind_of_run ran, pure_run,
    inner.getD_answering]

theorem computed_walk {name : String} {entity : Entity} (unvisited : progress.state name = .unvisited)
    (listed : lexicon.catalog.get? name = some entity)
    (ran : Task.Computed lexicon levels (progress.start name) answer next
      (.fields entity.fields (.namedObject name))) :
    Task.Computed lexicon levels progress answer (next.finish name answer) (.entity name) := by
  simp only [Task.Computed, Lexicon.visitEntity] at ran ⊢
  rw [get_bind_run, if_neg (not_not_intro unvisited), listed, modify_bind_run, run_bind_of_run ran,
    modify_bind_run, pure_run]

theorem computed_named {name : String}
    (answered : lexicon.chain.answering? lexicon.catalog (.named name) = some .entity)
    (ran : Task.Computed lexicon levels progress answer next (.entity name)) :
    Task.Computed lexicon levels progress answer next (.token (.named name)) := by
  simp only [Task.Computed, Lexicon.resolveWith?_named, answered] at ran ⊢
  exact run_bind_of_run ran

theorem computed_array {item : TypeToken}
    (answered : lexicon.chain.answering? lexicon.catalog (.arrayOf item) = some .array)
    (inner : Resolves (lexicon.chain.answering? lexicon.catalog) lexicon.catalog (.token item)
      progress answer next)
    (ran : Task.Computed lexicon levels progress answer next (.token item)) :
    Task.Computed lexicon levels progress (.array answer) next (.token (.arrayOf item)) := by
  simp only [Task.Computed, Lexicon.resolveWith?_arrayOf, answered]
  rw [run_bind_of_run ran, pure_run, inner.getD_answering]
  rfl

theorem computed_oneOf {tokens : List TypeToken}
    (answered : lexicon.chain.answering? lexicon.catalog (.oneOf tokens) = some .oneOf)
    (ran : Task.Computed lexicon levels progress answer next (.variants tokens [])) :
    Task.Computed lexicon levels progress answer next (.token (.oneOf tokens)) := by
  obtain ⟨schemas, ran, rfl⟩ := ran
  simp only [Task.Computed, Lexicon.resolveWith?_oneOf, answered]
  exact run_bind_of_run ran

theorem computed_primitive {token : TypeToken}
    (answered : lexicon.chain.answering? lexicon.catalog token = some .primitive) :
    Task.Computed lexicon levels progress token.primitiveSchema progress (.token token) := by
  simp only [Task.Computed, Lexicon.resolveWith?_of_primitive answered, answered]
  rfl

theorem computed_unanswered {token : TypeToken}
    (missed : lexicon.chain.answering? lexicon.catalog token = none) :
    Task.Computed lexicon levels progress .string progress (.token token) := by
  simp only [Task.Computed, Lexicon.resolveWith?_of_none missed, missed]
  rfl

section
variable {token : TypeToken} {resolver : CustomResolver}
  (answered : lexicon.chain.answering? lexicon.catalog token = some (.custom resolver))
include answered

theorem computed_fixed {schema : Schema} (reply : resolver.reply = .schema schema) :
    Task.Computed lexicon levels progress schema progress (.token token) := by
  simp only [Task.Computed, Lexicon.resolveWith?_of_custom answered, reply, answered]
  rfl

/-- What a redirection leads to is computed one level deeper. -/
theorem computed_redirect {target : TypeToken} (reply : resolver.reply = .redirect target)
    (inner : Resolves (lexicon.chain.answering? lexicon.catalog) lexicon.catalog (.token target)
      progress answer next)
    (computed : Task.Computed lexicon levels progress answer next (.token target)) :
    Task.Computed lexicon (levels + 1) progress answer next (.token token) := by
  simp only [Task.Computed, Lexicon.resolveWith?_of_custom answered, reply, answered]
  exact run_bind_of_run (inner.token_run computed)

end

theorem computed_noVariants {done : List Schema} :
    Task.Computed lexicon levels progress (.ofVariants done) progress (.variants [] done) :=
  ⟨[], rfl, by rw [List.append_nil]⟩

theorem computed_variant {middle : Progress} {first : TypeToken} {rest : List TypeToken}
    {done : List Schema} {variant : Schema}
    (one : Resolves (lexicon.chain.answering? lexicon.catalog) lexicon.catalog (.token first) progress
      variant middle)
    (ran : Task.Computed lexicon levels progress variant middle (.token first))
    (behind : Task.Computed lexicon levels middle answer next (.variants rest (done ++ [variant]))) :
    Task.Computed lexicon levels progress answer next (.variants (first :: rest) done) := by
  obtain ⟨schemas, ranRest, rfl⟩ := behind
  refine ⟨variant :: schemas, ?_, by rw [List.append_assoc]; rfl⟩
  rw [Lexicon.resolveAllWith, run_bind_of_run ran, run_bind_of_run ranRest, pure_run,
    one.getD_answering]

theorem computed_oneField {middle : Progress} {first : Field} {rest : List Field}
    {target between : Schema}
    (ran : Task.Computed lexicon levels progress between middle (.field first target))
    (behind : Task.Computed lexicon levels middle answer next (.fields rest between)) :
    Task.Computed lexicon levels progress answer next (.fields (first :: rest) target) := by
  simp only [Task.Computed, Field.exposeAll] at ran ⊢
  rw [run_bind_of_run ran]
  exact behind

section
variable {field : Field} {target : Schema} {name : String}
  (spliced : field.spliced? lexicon.catalog = some (.entity name))
include spliced

theorem computed_skipped (walking : progress.state name = .inProgress) :
    Task.Computed lexicon levels progress target progress (.field field target) := by
  have merged := congrArg (·, progress) (mergeProperties_object target)
  refine (Field.expose_merged spliced ?_ target).trans merged
  rw [Field.mergedSchema_entity spliced, walking]

theorem computed_copied {definition : Schema} (complete : progress.state name = .complete)
    (defined : progress.definition? name = some definition) :
    Task.Computed lexicon levels progress (target.mergeProperties definition) progress
      (.field field target) := by
  refine Field.expose_merged spliced ?_ _
  rw [Field.mergedSchema_entity spliced, complete, ← defined]

end

theorem computed_property {field : Field} {target base : Schema}
    (plain : field.Plain lexicon.catalog progress) (source : field.source? = some task)
    (ran : (task.below lexicon (lexicon.descent levels)).run progress = (base, next)) :
    Task.Computed lexicon levels progress (field.addBase base target) next (.field field target) := by
  refine Field.expose_plain plain ?_ _
  rw [source]
  exact ran

theorem computed_untyped {field : Field} {target : Schema}
    (plain : field.Plain lexicon.catalog progress) (sourceless : field.source? = none) :
    Task.Computed lexicon levels progress (field.addBase .string target) progress
      (.field field target) := by
  refine Field.expose_plain plain ?_ _
  rw [sourceless]
  rfl

/-- Where an entity is visited for the first time, there is room for its fields. -/
theorem room_of_walk {name : String} {entity : Entity} {limit : Nat}
    (unvisited : progress.state name = .unvisited) (listed : lexicon.catalog.get? name = some entity)
    (room : limit + progress.unvisited lexicon.catalog * (lexicon.chain.length + 1) ≤ levels) :
    ((progress.start name).unvisited lexicon.catalog + 1) * (lexicon.chain.length + 1) ≤ levels := by
  have fewer := Progress.unvisited_start_lt unvisited (Table.mem_keys_of_get? listed)
  have less := Nat.mul_le_mul_right (lexicon.chain.length + 1) fewer
  exact Nat.le_trans less (by omega)

/-- Wherever there is room, the functions compute what is derived. -/
theorem computed
    (derived : Resolves (lexicon.chain.answering? lexicon.catalog) lexicon.catalog task progress answer
      next) :
    ∀ levels, task.Room lexicon levels progress →
      task.Computed lexicon levels progress answer next := by
  induction derived with
  | stub visited => exact fun _ _ => computed_stub visited
  | plain unvisited absent inner ih =>
    rintro levels ⟨limit, within, room⟩
    exact computed_plain unvisited absent inner (ih levels ⟨limit, within unvisited absent, room⟩)
  | walk unvisited listed _ ih =>
    rintro levels ⟨limit, -, room⟩
    exact computed_walk unvisited listed (ih levels (room_of_walk unvisited listed room))
  | named answered _ ih =>
    rintro levels ⟨limit, -, room⟩
    have listed := contains_of_answering? answered
    refine computed_named answered (ih levels ⟨limit, fun _ absent => ?_, room⟩)
    cases listed.symm.trans (contains_eq_false absent)
  | array answered inner ih =>
    rintro levels ⟨limit, within, room⟩
    have part := RedirectsWithin.of_parts within (onward_array answered)
    exact computed_array answered inner (ih levels ⟨limit, part _ (List.mem_singleton_self _), room⟩)
  | oneOf answered _ ih =>
    rintro levels ⟨limit, within, room⟩
    have parts := RedirectsWithin.of_parts within (onward_oneOf answered)
    exact computed_oneOf answered (ih levels ⟨limit, parts, room⟩)
  | primitive answered => exact fun _ _ => computed_primitive answered
  | fixed answered reply => exact fun _ _ => computed_fixed answered reply
  | redirect answered reply inner ih =>
    rintro levels ⟨limit, within, room⟩
    obtain ⟨rest, rfl, less⟩ := RedirectsWithin.of_redirect within (onward_custom answered reply)
    obtain ⟨deeper, rfl⟩ : ∃ deeper, levels = deeper + 1 := ⟨levels - 1, by omega⟩
    exact computed_redirect answered reply inner (ih deeper ⟨rest, less, by omega⟩)
  | unanswered missed => exact fun _ _ => computed_unanswered missed
  | noVariants => exact fun _ _ => computed_noVariants
  | variant one _ early late =>
    rintro levels ⟨limit, within, room⟩
    have fewer := Nat.mul_le_mul_right (lexicon.chain.length + 1) one.unvisited_le
    obtain ⟨within, behind⟩ := List.forall_mem_cons.mp within
    exact computed_variant one (early levels ⟨limit, within, room⟩) (late levels ⟨limit, behind, by omega⟩)
  | noFields => exact fun _ _ => rfl
  | oneField one _ early late =>
    intro levels room
    have fewer := Nat.mul_le_mul_right (lexicon.chain.length + 1) (Nat.succ_le_succ one.unvisited_le)
    exact computed_oneField (early levels room) (late levels (Nat.le_trans fewer room))
  | skipped spliced walking => exact fun _ _ => computed_skipped spliced walking
  | copied spliced complete defined => exact fun _ _ => computed_copied spliced complete defined
  | merged spliced fresh inner ih =>
    intro levels room
    exact Field.expose_merged spliced (Field.mergedSchema_below spliced fresh (inner.below_run ih room)) _
  | property plain source inner ih =>
    exact fun levels room => computed_property plain source (inner.below_run ih room)
  | untyped plain sourceless => exact fun _ _ => computed_untyped plain sourceless

/-- In a build there is room for every task. -/
theorem built
    (derived : Resolves (lexicon.chain.answering? lexicon.catalog) lexicon.catalog task progress answer
      next) : task.Computed lexicon lexicon.levels progress answer next := by
  have product := Nat.add_one_mul (progress.unvisited lexicon.catalog) (lexicon.chain.length + 1)
  have enough : (progress.unvisited lexicon.catalog + 1) * (lexicon.chain.length + 1) ≤ lexicon.levels :=
    Nat.mul_le_mul_right _ (Nat.succ_le_succ Progress.unvisited_le_length)
  have within := derived.within_length
  refine derived.computed lexicon.levels ?_
  cases task with
  | field | fields => exact enough
  | entity | token | variants => exact ⟨_, within, by omega⟩

/-- A build answers a token as it is derived, and leaves one unanswered that no resolver answers. -/
theorem resolve?_run {token : TypeToken}
    (derived : Resolves (lexicon.chain.answering? lexicon.catalog) lexicon.catalog (.token token)
      progress answer next) :
    (lexicon.resolve? token).run progress =
      ((lexicon.chain.answering? lexicon.catalog token).map fun _ => answer, next) :=
  derived.built

/-- A build introspects an entity as it is derived. -/
theorem entitySchema_run {name : String}
    (derived : Resolves (lexicon.chain.answering? lexicon.catalog) lexicon.catalog (.entity name)
      progress answer next) :
    (lexicon.entitySchema name).run progress = (answer, next) :=
  derived.built

end Resolves

end ApiDoc
