import ApiDoc.Proofs.Type.Answering
import ApiDoc.Proofs.Type.Introspects

/-! # Enough levels for a build

The functions that introspect entities go down a level wherever a field leads to an entity or to a
token. Whatever is visited for the first time there uses up an entity of the catalog, so levels as
many as there are unvisited entities are enough, and what the functions answer is what
`Introspects` derives (`entities_answered`). The levels of a build are always enough
(`resolve_derived`, `entitySchema_derived`).
-/

namespace ApiDoc

variable {catalog : Catalog} {progress next : Progress} {name : String} {α β : Type}

/-- A computation answers a task as it is derived. -/
def Answered (catalog : Catalog) (build : Build Schema) (task : Task) (progress : Progress) : Prop :=
  ∃ history answer next, build.run progress = (answer, next) ∧
    Introspects catalog task progress history answer next

theorem run_bind_of_run {first : Build α} {behind : α → Build β} {value : α}
    (ran : first.run progress = (value, next)) :
    (first >>= behind).run progress = (behind value).run next := by
  rw [StateT.run_bind, ran]
  rfl

theorem pure_run (value : α) : (pure value : Build α).run progress = (value, progress) := rfl

theorem get_bind_run (behind : Progress → Build α) :
    (get >>= behind).run progress = (behind progress).run progress := rfl

theorem modify_bind_run (change : Progress → Progress) (behind : Unit → Build α) :
    (modify change >>= behind).run progress = (behind ()).run (change progress) := rfl

theorem builtIn_named (catalog : Catalog) (name : String) :
    Chain.builtIn.answering? catalog (.named name) =
      if catalog.contains name then some .entity else some .primitive := by
  cases listed : Table.contains catalog name <;>
    simp [Chain.answering?, Chain.choose?, Chain.builtIn, Resolver.handles, Surroundings.ofCatalog, listed]

theorem contains_eq_false (absent : catalog.get? name = none) : Table.contains catalog name = false := by
  rw [Table.contains, absent]
  rfl

/-- A name that is no entity is a primitive one. -/
theorem plainSchema?_run (deeper : Descent) (absent : catalog.get? name = none) :
    (Lexicon.plainSchema? { catalog } deeper name).run progress =
      (some (Primitive.schema name), progress) := by
  rw [Lexicon.plainSchema?_eq]
  simp only [builtIn_named, contains_eq_false absent]
  rfl

/-- An entity is answered if its fields are, where it is visited for the first time. -/
theorem visitEntity_answered {deeper : Descent} (name : String)
    (fields : ∀ entity, progress.state name = .unvisited → catalog.get? name = some entity →
      Answered catalog (Field.exposeAll { catalog } deeper entity.fields (.namedObject name))
        (.fields entity.fields (.namedObject name)) (progress.start name)) :
    Answered catalog (Lexicon.visitEntity { catalog } deeper name) (.entity name) progress := by
  unfold Answered Lexicon.visitEntity
  simp only [get_bind_run]
  by_cases fresh : progress.state name = .unvisited
  · simp only [fresh, ne_eq, not_true_eq_false, if_false]
    cases listed : catalog.get? name with
    | none =>
      refine ⟨[], _, _, ?_, .plain fresh listed⟩
      rw [run_bind_of_run (plainSchema?_run deeper listed), Option.getD_some, pure_run]
    | some entity =>
      obtain ⟨history, schema, after, ran, derived⟩ := fields entity fresh listed
      refine ⟨_, schema, after.finish name schema, ?_, .walk fresh listed derived⟩
      rw [modify_bind_run, run_bind_of_run ran, modify_bind_run, pure_run]
  · refine ⟨[], _, _, ?_, .stub fresh⟩
    rw [if_pos fresh, pure_run]

/-- There are levels for all entities that a task may visit for the first time. -/
structure Room (catalog : Catalog) (levels : Nat) (progress : Progress) : Prop where
  coherent : progress.Coherent catalog
  enough : progress.unvisited catalog ≤ levels

theorem Room.behind {levels : Nat} {task : Task} {history : List VisitEvent} {answer : Schema}
    (room : Room catalog levels progress)
    (derived : Introspects catalog task progress history answer next) : Room catalog levels next where
  coherent := coherent_of_run derived.run room.coherent
  enough := Nat.le_trans (Progress.unvisited_le_of_run derived.run) room.enough

/-- The start of a walk leaves room one level deeper. -/
theorem Room.start {levels : Nat} {entity : Entity} (room : Room catalog levels progress)
    (fresh : progress.state name = .unvisited) (listed : catalog.get? name = some entity) :
    ∃ deeper, levels = deeper + 1 ∧ Room catalog deeper (progress.start name) := by
  have member := Table.mem_keys_of_get? listed
  have fewer := Progress.unvisited_start_lt fresh member
  have enough := room.enough
  refine ⟨levels - 1, by omega, room.coherent.start fresh member, by omega⟩

def EntitiesAnswered (catalog : Catalog) (deeper : Descent) (levels : Nat) : Prop :=
  ∀ name progress, Room catalog levels progress →
    Answered catalog (Lexicon.visitEntity { catalog } deeper name) (.entity name) progress

variable {deeper : Descent} {levels : Nat}

mutual

/-- A token is answered if the entities are. -/
theorem resolveWith?_answered (entities : EntitiesAnswered catalog deeper levels) :
    ∀ (token : TypeToken) (progress : Progress), Room catalog levels progress →
      ∃ history answer next,
        (Lexicon.resolveWith? { catalog } deeper token).run progress = (some answer, next) ∧
          Introspects catalog (.token token) progress history answer next
  | .named name, progress, room => by
    rw [Lexicon.resolveWith?_named]
    cases listed : catalog.get? name with
    | none =>
      have unvisited : progress.state name = .unvisited := by
        refine Classical.byContradiction fun visited => ?_
        exact Table.get?_eq_none_iff.mp listed (room.coherent.catalogued name visited)
      refine ⟨[], _, _, ?_, .named (.plain unvisited listed)⟩
      simp only [builtIn_named, contains_eq_false listed]
      exact plainSchema?_run deeper listed
    | some entity =>
      obtain ⟨history, answer, next, ran, derived⟩ := entities name progress room
      refine ⟨history, answer, next, ?_, .named derived⟩
      have contained : Table.contains catalog name = true := by rw [Table.contains, listed]; rfl
      simp only [builtIn_named, contained, if_true]
      rw [run_bind_of_run ran, pure_run]
  | .arrayOf item, progress, room => by
    obtain ⟨history, answer, next, ran, derived⟩ := resolveWith?_answered entities item progress room
    refine ⟨history, _, next, ?_, .array derived⟩
    rw [Lexicon.resolveWith?_arrayOf]
    exact run_bind_of_run ran
  | .oneOf tokens, progress, room => by
    obtain ⟨history, schemas, next, ran, derived⟩ :=
      resolveAllWith_answered entities tokens [] progress room
    refine ⟨history, _, next, ?_, .oneOf derived⟩
    rw [Lexicon.resolveWith?_oneOf]
    exact run_bind_of_run ran

/-- Alternatives are answered in turn. -/
theorem resolveAllWith_answered (entities : EntitiesAnswered catalog deeper levels) :
    ∀ (tokens : List TypeToken) (done : List Schema) (progress : Progress),
      Room catalog levels progress → ∃ history schemas next,
        (Lexicon.resolveAllWith { catalog } deeper tokens).run progress = (schemas, next) ∧
          Introspects catalog (.variants tokens done) progress history
            (.ofVariants (done ++ schemas)) next
  | [], done, progress, _ => ⟨[], [], progress, rfl, by rw [List.append_nil]; exact .noVariants⟩
  | first :: rest, done, progress, room => by
    obtain ⟨early, variant, middle, ran, derived⟩ :=
      resolveWith?_answered entities first progress room
    obtain ⟨late, schemas, next, ranRest, derivedRest⟩ :=
      resolveAllWith_answered entities rest (done ++ [variant]) middle (room.behind derived)
    rw [List.append_assoc] at derivedRest
    refine ⟨early ++ late, variant :: schemas, next, ?_, .variant derived derivedRest⟩
    rw [Lexicon.resolveAllWith, run_bind_of_run ran, run_bind_of_run ranRest, pure_run,
      Option.getD_some]

end

theorem mergeProperties_object (target : Schema) : target.mergeProperties .object = target := by
  cases target
  rfl

/-- A field that gives no parts is looked at, and nothing happens. -/
theorem mergedSchema_run_none (lexicon : Lexicon) {inline : Build Schema} {field : Field}
    (merge : field.merge = true) (plain : field.spliced? lexicon.catalog = none) :
    (field.mergedSchema lexicon deeper inline).run progress = (none, progress) := by
  unfold Field.spliced? at plain
  unfold Field.mergedSchema
  rw [if_pos merge] at plain
  cases presented : field.entity? lexicon.catalog with
  | some name => simp [presented] at plain
  | none =>
    simp only [presented] at plain ⊢
    split at plain
    · next leaf => rw [if_pos leaf, pure_run]
    · cases plain

theorem mergedSchema_answered {inline : Build Schema} {field : Field} {task : Task}
    (coherent : progress.Coherent catalog) (spliced : field.spliced? catalog = some task)
    (entities : ∀ name, Answered catalog (deeper.entity name) (.entity name) progress)
    (nested : Answered catalog inline (.fields field.nested .object) progress) (target : Schema) :
    ∃ history parts next,
      (field.mergedSchema { catalog } deeper inline).run progress = (some parts, next) ∧
        Introspects catalog (.field field target) progress history (target.mergeProperties parts)
          next := by
  have whole := spliced
  unfold Field.spliced? at spliced
  unfold Field.mergedSchema
  split at spliced
  · cases presented : field.entity? catalog with
    | some name =>
      simp only [presented] at spliced ⊢
      cases spliced
      rw [get_bind_run]
      cases state : progress.state name with
      | inProgress =>
        refine ⟨[], .object, progress, rfl, ?_⟩
        rw [mergeProperties_object]
        exact .skipped whole state
      | complete =>
        obtain ⟨definition, found⟩ := coherent.definition?_isSome state
        exact ⟨[], definition, progress, by rw [found]; rfl, .copied whole state found⟩
      | unvisited =>
        obtain ⟨history, parts, next, ran, derived⟩ := entities name
        refine ⟨history, parts, next, run_bind_of_run ran, .merged whole ?_ derived⟩
        rintro other ⟨⟩
        exact state
    | none =>
      simp only [presented] at spliced ⊢
      split at spliced
      · cases spliced
      · next parts =>
        cases spliced
        obtain ⟨history, parts, next, ran, derived⟩ := nested
        refine ⟨history, parts, next, ?_, .merged whole (by simp) derived⟩
        rw [if_neg (by assumption)]
        exact run_bind_of_run ran
  · cases spliced

theorem baseSchema_answered {inline : Build Schema} {field : Field}
    (plain : field.spliced? catalog = none)
    (entities : ∀ name, Answered catalog (deeper.entity name) (.entity name) progress)
    (tokens : ∀ token, Answered catalog (deeper.token token) (.token token) progress)
    (nested : Answered catalog inline (.fields field.nested .object) progress) (target : Schema) :
    ∃ history base next,
      (field.baseSchema deeper inline).run progress =
        (base.arrayIf (field.isArray || field.documentation.isArray), next) ∧
        Introspects catalog (.field field target) progress history (field.addBase base target)
          next := by
  unfold Field.baseSchema
  cases presented : field.presenter with
  | some name =>
    obtain ⟨history, base, next, ran, derived⟩ := entities name
    refine ⟨history, base, next, run_bind_of_run ran, .property plain ?_ derived⟩
    simp [Field.source?, presented]
  | none =>
    by_cases parts : field.nested.isEmpty = true
    · cases declared : field.declaredType with
      | some token =>
        obtain ⟨history, base, next, ran, derived⟩ := tokens token
        refine ⟨history, base, next, ?_, .property plain ?_ derived⟩
        · simp only [parts, Bool.not_true, Bool.false_eq_true, if_false]
          exact run_bind_of_run ran
        · simp [Field.source?, presented, parts, declared]
      | none =>
        refine ⟨[], .string, progress, ?_, .untyped plain ?_⟩
        · simp only [parts, Bool.not_true, Bool.false_eq_true, if_false]
          rfl
        · simp [Field.source?, presented, parts, declared]
    · obtain ⟨history, base, next, ran, derived⟩ := nested
      refine ⟨history, base, next, ?_, .property plain ?_ derived⟩
      · simp only [parts, Bool.not_false, if_true]
        exact run_bind_of_run ran
      · simp [Field.source?, presented, parts]

theorem exposeWith_answered {inline : Build Schema} {field : Field}
    (coherent : progress.Coherent catalog)
    (entities : ∀ name, Answered catalog (deeper.entity name) (.entity name) progress)
    (tokens : ∀ token, Answered catalog (deeper.token token) (.token token) progress)
    (nested : Answered catalog inline (.fields field.nested .object) progress) (target : Schema) :
    Answered catalog (field.exposeWith { catalog } deeper inline target) (.field field target)
      progress := by
  unfold Field.exposeWith
  cases spliced : field.spliced? catalog with
  | some task =>
    obtain ⟨history, parts, next, ran, derived⟩ :=
      mergedSchema_answered coherent spliced entities nested target
    have merge : field.merge = true := by
      unfold Field.spliced? at spliced
      split at spliced
      · assumption
      · cases spliced
    refine ⟨history, _, next, ?_, derived⟩
    rw [if_pos merge, run_bind_of_run ran]
    rfl
  | none =>
    obtain ⟨history, base, next, ran, derived⟩ :=
      baseSchema_answered spliced entities tokens nested target
    refine ⟨history, _, next, ?_, derived⟩
    by_cases merge : field.merge = true
    · rw [if_pos merge, run_bind_of_run (mergedSchema_run_none { catalog } merge spliced),
        run_bind_of_run ran, pure_run, Field.addBase]
    · rw [if_neg merge, run_bind_of_run (pure_run _), run_bind_of_run ran, pure_run, Field.addBase]

/-- One level deeper, entities and tokens are answered wherever there is room. -/
structure DeeperAnswered (catalog : Catalog) (deeper : Descent) (levels : Nat) : Prop where
  entity : ∀ name progress, Room catalog levels progress →
    Answered catalog (deeper.entity name) (.entity name) progress
  token : ∀ token progress, Room catalog levels progress →
    Answered catalog (deeper.token token) (.token token) progress

mutual

/-- A field is answered if what it leads to is answered one level deeper. -/
theorem expose_answered (answered : DeeperAnswered catalog deeper levels) :
    ∀ (field : Field) (target : Schema) (progress : Progress), Room catalog levels progress →
      Answered catalog (field.expose { catalog } deeper target) (.field field target) progress
  | field@{ nested := parts, .. }, target, progress, room => by
    rw [Field.expose]
    exact exposeWith_answered room.coherent (fun name => answered.entity name progress room)
      (fun token => answered.token token progress room)
      (exposeAll_answered answered parts .object progress room) target

/-- Fields are answered in turn. -/
theorem exposeAll_answered (answered : DeeperAnswered catalog deeper levels) :
    ∀ (fields : List Field) (target : Schema) (progress : Progress), Room catalog levels progress →
      Answered catalog (Field.exposeAll { catalog } deeper fields target) (.fields fields target)
        progress
  | [], target, progress, _ => ⟨[], target, progress, rfl, .noFields⟩
  | first :: rest, target, progress, room => by
    obtain ⟨early, between, middle, ran, derived⟩ :=
      expose_answered answered first target progress room
    obtain ⟨late, answer, next, ranRest, derivedRest⟩ :=
      exposeAll_answered answered rest between middle (room.behind derived)
    refine ⟨early ++ late, answer, next, ?_, .oneField derived derivedRest⟩
    rw [Field.exposeAll, run_bind_of_run ran]
    exact ranRest

end

/-- At every level entities are answered wherever there is room. Fields are walked behind the start
of an entity only, so what they lead to has room one level deeper. -/
theorem entities_answered (catalog : Catalog) (levels : Nat) :
    EntitiesAnswered catalog (Lexicon.descent { catalog } levels) levels := by
  induction levels with
  | zero =>
    intro name progress room
    refine visitEntity_answered name fun entity fresh listed => ?_
    obtain ⟨deeper, less, -⟩ := room.start fresh listed
    omega
  | succ levels ih =>
    intro name progress room
    have answered : DeeperAnswered catalog (Lexicon.descent { catalog } (levels + 1)) levels := by
      refine ⟨ih, fun token progress room => ?_⟩
      obtain ⟨history, answer, next, ran, derived⟩ := resolveWith?_answered ih token progress room
      refine ⟨history, answer, next, ?_, derived⟩
      exact run_bind_of_run ran
    refine visitEntity_answered name fun entity fresh listed => ?_
    obtain ⟨deeper, less, room⟩ := room.start fresh listed
    obtain rfl : levels = deeper := by omega
    exact exposeAll_answered answered entity.fields (.namedObject name) _ room

/-- A build has room at its outermost level. -/
theorem room_of_coherent (coherent : progress.Coherent catalog) :
    Room catalog (Lexicon.levels { catalog }) progress := by
  refine ⟨coherent, Nat.le_trans Progress.unvisited_le_length ?_⟩
  have more : (catalog.length + 1) * 1 ≤ Lexicon.levels { catalog } :=
    Nat.mul_le_mul_left _ (Nat.le_add_left _ _)
  omega

/-- What a build answers to a token is derived. -/
theorem resolve_derived (coherent : progress.Coherent catalog) (token : TypeToken) :
    Answered catalog (Lexicon.resolve { catalog } token) (.token token) progress := by
  obtain ⟨history, answer, next, ran, derived⟩ :=
    resolveWith?_answered (entities_answered catalog _) token progress (room_of_coherent coherent)
  refine ⟨history, answer, next, ?_, derived⟩
  exact run_bind_of_run ran

/-- What a build answers to the name of an entity is derived. -/
theorem entitySchema_derived (coherent : progress.Coherent catalog) (name : String) :
    Answered catalog (Lexicon.entitySchema { catalog } name) (.entity name) progress :=
  entities_answered catalog _ name progress (room_of_coherent coherent)

end ApiDoc
