import ApiDoc.Proofs.Export.Trail

/-! # The walk follows its trail

What the walk does to its state is what a run of the machine of `Trail` does, and the walk fails
where the machine cannot go on (`follows_visitPositions`). The levels of the table of definitions
are always enough: one is used up only when a name of the table is met for the first time, and
there are no more such names than `unmet` counts.
-/

namespace ApiDoc.Export

open Json

/-- How many names of the table are still to be met. -/
def unmet (api : Api) (names : Table String String) : Nat :=
  (Table.keys api.definitions).countP fun name => names.get? (sanitize name) != some name

variable {dialect : Dialect} {api : Api} {agenda next : Agenda} {visits : List Visit}
  {names : Table String String}

theorem unmet_le (names : Table String String) : unmet api names ≤ api.definitions.length :=
  Nat.le_trans List.countP_le_length (by simp [Table.keys])

theorem unmet_le_of_run (run : Run (WalkStep dialect api) agenda visits next) :
    unmet api next.names ≤ unmet api agenda.names := by
  refine List.countP_mono_left fun name _ missing => ?_
  simp only [bne_iff_ne, ne_eq] at missing ⊢
  exact fun met => missing (get?_of_run run met)

/-- What is still to be met behind a new name was to be met before it. -/
theorem unmet_of_insert {name : String} (free : names.get? (sanitize name) = none) (other : String)
    (missing : ((names.insert (sanitize name) name).get? (sanitize other) != some other) = true) :
    (names.get? (sanitize other) != some other) = true := by
  simp only [bne_iff_ne, ne_eq, Table.get?_insert] at missing ⊢
  intro met
  have apart : sanitize name ≠ sanitize other := fun same => by simp [← same, free] at met
  exact missing (by rw [if_neg apart, met])

/-- Meeting a new name of the table leaves fewer to be met. -/
theorem unmet_insert_lt {name : String} (listed : name ∈ Table.keys api.definitions)
    (free : names.get? (sanitize name) = none) :
    unmet api (names.insert (sanitize name) name) < unmet api names := by
  obtain ⟨before, behind, split⟩ := List.append_of_mem listed
  have early := List.countP_mono_left fun other (_ : other ∈ before) => unmet_of_insert free other
  have late := List.countP_mono_left fun other (_ : other ∈ behind) => unmet_of_insert free other
  unfold unmet
  rw [split, List.countP_append, List.countP_append, List.countP_cons, List.countP_cons]
  simp only [Table.get?_insert, free] at early late ⊢
  simp only [if_true, bne_self_eq_false, Bool.false_eq_true, if_false]
  have counted : (none != some name) = true := rfl
  simp only [counted, if_true]
  omega

/-- The two tables of a state have the same keys. -/
def State.Aligned (state : State) : Prop :=
  Table.keys state.definitions = Table.keys state.names

/-- A step of the walk does in `state` what a run of the machine over `positions` does. -/
def Follows (dialect : Dialect) (api : Api) (step : Render Unit) (positions : List Position)
    (state : State) : Prop :=
  ∀ rest : List Position,
    match step.run state with
    | .ok (_, after) => ∃ visits,
        Run (WalkStep dialect api) ⟨positions ++ rest, state.names⟩ visits ⟨rest, after.names⟩ ∧
          after.definitions = state.definitions ++ defined dialect visits
    | .error error => ∃ visits last,
        Run (WalkStep dialect api) ⟨positions ++ rest, state.names⟩ visits last ∧
          last.failure? api = some error

variable {state after : State} {step second : Render Unit} {positions more : List Position}

theorem Follows.ok (follows : Follows dialect api step positions state)
    (ran : step.run state = .ok ((), after)) (rest : List Position) : ∃ visits,
      Run (WalkStep dialect api) ⟨positions ++ rest, state.names⟩ visits ⟨rest, after.names⟩ ∧
        after.definitions = state.definitions ++ defined dialect visits := by
  have here := follows rest
  rw [ran] at here
  exact here

theorem Follows.error (follows : Follows dialect api step positions state) {error : ExportError}
    (ran : step.run state = .error error) (rest : List Position) : ∃ visits last,
      Run (WalkStep dialect api) ⟨positions ++ rest, state.names⟩ visits last ∧
        last.failure? api = some error := by
  have here := follows rest
  rw [ran] at here
  exact here

/-- The definitions that a run leaves behind stand under the names it meets. -/
theorem State.Aligned.of_run (aligned : state.Aligned) {pending last : List Position}
    (run : Run (WalkStep dialect api) ⟨pending, state.names⟩ visits ⟨last, after.names⟩)
    (left : after.definitions = state.definitions ++ defined dialect visits) : after.Aligned := by
  have names := names_of_run run
  dsimp only at names
  unfold State.Aligned at aligned ⊢
  simp only [names, left, Table.keys, List.map_append, defined, List.map_map] at aligned ⊢
  rw [aligned]
  rfl

theorem run_bind_of_ok {α β : Type} {first : Render α} {then_ : α → Render β} {value : α}
    (ran : first.run state = .ok (value, after)) :
    (first >>= then_).run state = (then_ value).run after := by
  rw [StateT.run_bind, ran]
  rfl

theorem run_bind_of_error {α β : Type} {first : Render α} {then_ : α → Render β}
    {error : ExportError} (ran : first.run state = .error error) :
    (first >>= then_).run state = .error error := by
  rw [StateT.run_bind, ran]
  rfl

theorem follows_nil (state : State) : Follows dialect api (pure ()) [] state :=
  fun rest => ⟨[], .done _, by simp [defined, begun]⟩

theorem follows_bind (first : Follows dialect api step positions state)
    (behind : ∀ after, step.run state = .ok ((), after) → Follows dialect api second more after) :
    Follows dialect api (do step; second) (positions ++ more) state := by
  intro rest
  rw [List.append_assoc]
  cases ran : step.run state with
  | error error =>
    rw [run_bind_of_error ran]
    exact first.error ran (more ++ rest)
  | ok result =>
    obtain ⟨⟨⟩, middle⟩ := result
    obtain ⟨visits, run, left⟩ := first.ok ran (more ++ rest)
    have follows := behind middle ran
    rw [run_bind_of_ok ran]
    cases ranSecond : second.run middle with
    | error error =>
      obtain ⟨moreVisits, last, moreRun, failed⟩ := follows.error ranSecond rest
      exact ⟨visits ++ moreVisits, last, run.append moreRun, failed⟩
    | ok result =>
      obtain ⟨⟨⟩, after⟩ := result
      obtain ⟨moreVisits, moreRun, moreLeft⟩ := follows.ok ranSecond rest
      refine ⟨visits ++ moreVisits, run.append moreRun, ?_⟩
      rw [moreLeft, left, defined_append, List.append_assoc]

/-- Visits a position: a name is met, otherwise the parts of the schema are visited. -/
def visitPosition (dialect : Dialect) (table : Definitions) : Position → Render Unit
  | ⟨none, schema⟩ => visitAll dialect table (parts dialect schema)
  | ⟨some name, schema⟩ => meet table name schema (content dialect table schema)

def visitPositions (dialect : Dialect) (table : Definitions) (positions : List Position) :
    Render Unit :=
  positions.forM (visitPosition dialect table)

variable {table : Definitions}

theorem visitPositions_append (first second : List Position) :
    visitPositions dialect table (first ++ second) =
      (do visitPositions dialect table first; visitPositions dialect table second) := by
  induction first with
  | nil => simp [visitPositions]
  | cons position rest ih =>
    simp only [visitPositions, List.cons_append, List.forM_eq_forM, List.forM_cons] at ih ⊢
    rw [ih, bind_assoc]

theorem visit_eq_visitPosition (site : Schema) :
    visit dialect table site = visitPosition dialect table (.ofSite site) := by
  rw [visit_eq]
  unfold Position.ofSite
  cases site.canonicalName with
  | some name => rfl
  | none => simp only [content_eq, visitPosition, bind_assoc, pure_bind, bind_pure_unit]

theorem visitAll_eq_visitPositions (sites : List Schema) :
    visitAll dialect table sites = visitPositions dialect table (sites.map .ofSite) := by
  induction sites with
  | nil => rfl
  | cons site rest ih => rw [visitAll_cons, visit_eq_visitPosition, ih]; rfl

theorem follows_inline {schema : Schema}
    (inside : Follows dialect api (visitAll dialect table (parts dialect schema))
      ((parts dialect schema).map .ofSite) state) :
    Follows dialect api (visitPosition dialect table ⟨none, schema⟩) [⟨none, schema⟩] state := by
  intro rest
  rw [visitPosition]
  cases ran : (visitAll dialect table (parts dialect schema)).run state with
  | error error =>
    obtain ⟨visits, last, run, failed⟩ := inside.error ran rest
    exact ⟨_ :: visits, last, .step .inline run, failed⟩
  | ok result =>
    obtain ⟨⟨⟩, after⟩ := result
    obtain ⟨visits, run, left⟩ := inside.ok ran rest
    exact ⟨_ :: visits, .step .inline run, left⟩

theorem follows_known {name : String} {schema : Schema} {body : Render Fields}
    (met : state.names.get? (sanitize name) = some name) :
    Follows dialect api (meet table name schema body) [⟨some name, schema⟩] state := by
  intro rest
  have ran : (meet table name schema body).run state = .ok ((), state) := by
    have reserved : (reserve name).run state = .ok ((sanitize name, false), state) := by
      simp [reserve_run, met]
    rw [meet, run_bind_of_ok reserved]
    rfl
  rw [ran]
  exact ⟨_, .single (.known met), by simp [defined, begun]⟩

theorem follows_collision {name owner : String} {schema : Schema} {body : Render Fields}
    (met : state.names.get? (sanitize name) = some owner) (other : owner ≠ name) :
    Follows dialect api (meet table name schema body) [⟨some name, schema⟩] state := by
  intro rest
  have ran : (meet table name schema body).run state =
      .error (.nameCollision (sanitize name) owner name) :=
    run_bind_of_error (by simp [reserve_run, met, other])
  rw [ran]
  exact ⟨[], _, .done _, by simp [Agenda.failure?, met, other]⟩

theorem meet_run_of_free {name : String} {schema : Schema} {body : Render Fields}
    (free : state.names.get? (sanitize name) = none) :
    (meet table name schema body).run state =
      (defineName table name schema body).run (state.reserving name) := by
  have reserved : (reserve name).run state = .ok ((sanitize name, true), state.reserving name) := by
    simp [reserve_run, free]
  rw [meet, run_bind_of_ok reserved]
  rfl

theorem follows_missing {name : String} {schema : Schema} {body : Render Fields}
    (free : state.names.get? (sanitize name) = none) (unlisted : table name = none)
    (stub : schema.isStub = true) (missing : body? api name schema = none) :
    Follows dialect api (meet table name schema body) [⟨some name, schema⟩] state := by
  intro rest
  have ran : (meet table name schema body).run state = .error (.missingDefinition name) := by
    rw [meet_run_of_free free, defineName, unlisted]
    simp only [stub, if_true]
    rfl
  rw [ran]
  exact ⟨[], _, .done _, by simp [Agenda.failure?, free, missing]⟩

/-- A new name is defined by the text of its body, behind what the parts of the body define. -/
theorem follows_fresh {inner : Definitions} {name : String} {schema body : Schema}
    {text : Render Fields} (free : state.names.get? (sanitize name) = none) (aligned : state.Aligned)
    (found : body? api name schema = some body)
    (defines : defineName table name schema text = (do
      visitAll dialect inner (parts dialect body)
      define (sanitize name) (plainBody dialect body)))
    (inside : Follows dialect api (visitAll dialect inner (parts dialect body))
      ((parts dialect body).map .ofSite) (state.reserving name)) :
    Follows dialect api (meet table name schema text) [⟨some name, schema⟩] state := by
  intro rest
  rw [meet_run_of_free free, defines]
  have absent : sanitize name ∉ Table.keys state.definitions := by
    rw [aligned]
    exact Table.get?_eq_none_iff.mp free
  cases ran : (visitAll dialect inner (parts dialect body)).run (state.reserving name) with
  | error error =>
    obtain ⟨visits, last, run, failed⟩ := inside.error ran rest
    rw [run_bind_of_error ran]
    exact ⟨_ :: visits, last, .step (.fresh free found) run, failed⟩
  | ok result =>
    obtain ⟨⟨⟩, after⟩ := result
    obtain ⟨visits, run, left⟩ := inside.ok ran rest
    rw [run_bind_of_ok ran]
    refine ⟨_ :: visits, .step (.fresh free found) run, ?_⟩
    change after.definitions.insert (sanitize name) _ = _
    rw [left, State.reserving, Table.insert_of_not_mem absent, List.append_assoc,
      List.singleton_append, Table.insert_append_cons absent]
    rfl

theorem sizeOf_append (first second : List Schema) :
    sizeOf (first ++ second) + 1 = sizeOf first + sizeOf second := by
  induction first with
  | nil => simp [Nat.add_comm]
  | cons schema rest ih =>
    simp only [List.cons_append, List.cons.sizeOf_spec]
    omega

theorem sizeOf_values_le (entries : List (String × Schema)) :
    sizeOf (Table.values entries) ≤ sizeOf entries := by
  induction entries with
  | nil => simp [Table.values]
  | cons entry rest ih =>
    obtain ⟨name, schema⟩ := entry
    simp only [Table.values, List.map_cons, List.cons.sizeOf_spec, Prod.mk.sizeOf_spec] at ih ⊢
    omega

/-- The size of the schemas of positions. -/
noncomputable def weight (positions : List Position) : Nat := sizeOf (positions.map Position.schema)

/-- The parts of a schema are smaller than the schema, all together. -/
theorem weight_parts_lt (schema : Schema) :
    weight ((parts dialect schema).map .ofSite) < sizeOf schema := by
  have same : (parts dialect schema).map (Position.schema ∘ Position.ofSite) = parts dialect schema :=
    List.map_id _
  have inVariants : sizeOf (shownVariants dialect schema) ≤ sizeOf schema.oneOf := by
    unfold shownVariants
    split
    · exact Nat.le_refl _
    · cases schema.oneOf with
      | nil => simp
      | cons first rest => cases rest <;> simp; omega
  have inProperties := sizeOf_values_le schema.properties
  have inItems : sizeOf (shownItems schema) ≤ sizeOf schema.items + 1 := by
    unfold shownItems
    split
    · cases schema.items <;> simp
    · simp
  have outer := sizeOf_append (shownVariants dialect schema)
    (Table.values schema.properties ++ shownItems schema)
  have inner := sizeOf_append (Table.values schema.properties) (shownItems schema)
  rw [weight, List.map_map, same, parts]
  cases schema
  simp only [Schema.mk.sizeOf_spec] at *
  omega

theorem definitionsAt_succ (levels : Nat) (name : String) :
    definitionsAt dialect api (levels + 1) name =
      (api.definitions.get? name).map fun definition => do
        return decorate dialect definition
          (← content dialect (definitionsAt dialect api levels) definition) := rfl

/-- The content of a site does not depend on its name, its nullability and its extensions. -/
theorem plainBody_bare (site : Schema) : plainBody dialect (bare site) = plainContent dialect site := by
  unfold plainBody
  rw [plainContent_unfold, plainContent_unfold]
  rfl

theorem State.Aligned.reserving (aligned : state.Aligned) {name : String}
    (free : state.names.get? (sanitize name) = none) : (state.reserving name).Aligned := by
  have absent := Table.get?_eq_none_iff.mp free
  have absent' : sanitize name ∉ Table.keys state.definitions := by rwa [aligned]
  unfold State.Aligned at aligned ⊢
  rw [State.reserving, Table.insert_of_not_mem absent, Table.insert_of_not_mem absent']
  simp only [Table.keys, List.map_append] at aligned ⊢
  rw [aligned]
  rfl

/-- The walk meets a name as its trail does, if the schemas inside are followed: at this level
those that are smaller than the site, one level deeper those of the table. -/
theorem follows_meet {levels : Nat} {name : String} {schema : Schema} (aligned : state.Aligned)
    (room : unmet api state.names < levels + 1)
    (inside : ∀ state : State, state.Aligned → unmet api state.names < levels + 1 →
      Follows dialect api
        (visitAll dialect (definitionsAt dialect api (levels + 1)) (parts dialect schema))
        ((parts dialect schema).map .ofSite) state)
    (deeper : ∀ (body : Schema) (state : State), state.Aligned → unmet api state.names < levels →
      Follows dialect api (visitAll dialect (definitionsAt dialect api levels) (parts dialect body))
        ((parts dialect body).map .ofSite) state) :
    Follows dialect api
      (meet (definitionsAt dialect api (levels + 1)) name schema
        (content dialect (definitionsAt dialect api (levels + 1)) schema))
      [⟨some name, schema⟩] state := by
  cases met : state.names.get? (sanitize name) with
  | some owner =>
    by_cases same : owner = name
    · exact follows_known (same ▸ met)
    · exact follows_collision met same
  | none =>
    have reserved := aligned.reserving met
    have kept : unmet api (state.reserving name).names ≤ unmet api state.names :=
      List.countP_mono_left fun other _ => unmet_of_insert met other
    cases listed : api.definitions.get? name with
    | some body =>
      have fewer := unmet_insert_lt (Table.mem_keys_of_get? listed) met
      have found : body? api name schema = some body := by simp [body?, listed]
      refine follows_fresh met aligned found ?_
        (deeper body _ reserved (Nat.lt_of_lt_of_le fewer (Nat.le_of_lt_succ room)))
      simp only [defineName, definitionsAt_succ, listed, Option.map_some, content_eq, bind_assoc,
        pure_bind]
      rfl
    | none =>
      have unlisted : definitionsAt dialect api (levels + 1) name = none := by
        simp [definitionsAt_succ, listed]
      by_cases stub : schema.isStub = true
      · exact follows_missing met unlisted stub (by simp [body?, listed, stub])
      · have found : body? api name schema = some (bare schema) := by simp [body?, listed, stub]
        refine follows_fresh met aligned found ?_
          (inside _ reserved (Nat.lt_of_le_of_lt kept room))
        simp only [defineName, unlisted, stub, content_eq, bind_assoc, pure_bind, plainBody_bare]
        rfl

/-- The walk at a level follows its trail if there are fewer names to be met than levels. The
levels go down at the definitions of the table, the schemas get smaller everywhere else. -/
theorem follows_visitPositions (levels : Nat) : ∀ (positions : List Position) (state : State),
    state.Aligned → unmet api state.names < levels →
      Follows dialect api (visitPositions dialect (definitionsAt dialect api levels) positions)
        positions state := by
  induction levels with
  | zero => intro positions state _ room; exact absurd room (Nat.not_lt_zero _)
  | succ levels deeper =>
    intro positions
    generalize size : weight positions = n
    induction n using Nat.strongRecOn generalizing positions with
    | ind n smaller =>
      intro state aligned room
      -- Any smaller list of positions is followed at this level.
      have again : ∀ (fewer : List Position) (state : State), weight fewer < n → state.Aligned →
          unmet api state.names < levels + 1 →
          Follows dialect api (visitPositions dialect (definitionsAt dialect api (levels + 1)) fewer)
            fewer state := fun fewer state less => smaller _ less fewer rfl state
      cases positions with
      | nil => exact follows_nil state
      | cons position more =>
        obtain ⟨name?, schema⟩ := position
        have whole : 1 + sizeOf schema + weight more = n := by rw [← size]; simp [weight]
        have less : weight ((parts dialect schema).map .ofSite) < sizeOf schema := weight_parts_lt schema
        have inside : ∀ state : State, state.Aligned → unmet api state.names < levels + 1 →
            Follows dialect api
              (visitAll dialect (definitionsAt dialect api (levels + 1)) (parts dialect schema))
              ((parts dialect schema).map .ofSite) state := by
          intro state aligned room
          rw [visitAll_eq_visitPositions]
          exact again _ state (by omega) aligned room
        have first : Follows dialect api
            (visitPosition dialect (definitionsAt dialect api (levels + 1)) ⟨name?, schema⟩)
            [⟨name?, schema⟩] state := by
          cases name? with
          | none => exact follows_inline (inside state aligned room)
          | some name =>
            refine follows_meet aligned room inside fun body state aligned room => ?_
            rw [visitAll_eq_visitPositions]
            exact deeper _ state aligned room
        rw [← List.singleton_append]
        refine follows_bind first fun after ran => ?_
        obtain ⟨visits, run, left⟩ := first.ok ran []
        exact again more after (by omega) (aligned.of_run run left)
          (Nat.lt_of_le_of_lt (unmet_le_of_run run) room)

end ApiDoc.Export
