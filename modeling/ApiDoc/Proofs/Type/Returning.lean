import ApiDoc.Proofs.Type.Chains
import ApiDoc.Proofs.Type.Resolving

/-! # Calls that return

The only way in which resolving does not come to an answer is a circle of redirections: where the
redirections of all tokens end, every task is answered in every progress (`returns_of_ends`). An
entity that is met for the first time uses up an entity of the catalog, a redirection one of those
that are left in the row, and everything else goes on to a part.
-/

namespace ApiDoc

/-- A task comes to an answer. -/
def Returns (answering : TypeToken → Option Resolver) (catalog : Catalog) (task : Task)
    (progress : Progress) : Prop :=
  ∃ answer next, Resolves answering catalog task progress answer next

/-- A task comes to an answer wherever at most `limit` entities are left to be visited. -/
def ReturnsBelow (chain : Chain) (catalog : Catalog) (limit : Nat) (task : Task) : Prop :=
  ∀ progress : Progress, progress.unvisited catalog ≤ limit →
    Returns (chain.answering? catalog) catalog task progress

variable {chain : Chain} {catalog : Catalog} {limit hops : Nat} {name : String} {token : TypeToken}
  {progress : Progress}

/-- An entity of the catalog is a stub, or its fields are walked with one entity less to visit. -/
theorem returns_entity {entity : Entity} (listed : catalog.get? name = some entity)
    (walks : ∀ less < limit, ∀ fields target, ReturnsBelow chain catalog less (.fields fields target)) :
    ReturnsBelow chain catalog limit (.entity name) := by
  intro progress room
  by_cases fresh : progress.state name = .unvisited
  · have fewer := Progress.unvisited_start_lt fresh (Table.mem_keys_of_get? listed)
    obtain ⟨answer, next, derived⟩ :=
      walks ((progress.start name).unvisited catalog) (by omega) entity.fields (.namedObject name)
        (progress.start name) (Nat.le_refl _)
    exact ⟨_, _, .walk fresh listed derived⟩
  · exact ⟨_, _, .stub fresh⟩

/-- Alternatives are answered in turn. -/
theorem returns_variants {tokens : List TypeToken}
    (each : ∀ token ∈ tokens, ReturnsBelow chain catalog limit (.token token)) (done : List Schema) :
    ReturnsBelow chain catalog limit (.variants tokens done) := by
  induction tokens generalizing done with
  | nil => exact fun progress _ => ⟨_, _, .noVariants⟩
  | cons first rest ih =>
    intro progress room
    obtain ⟨firstReturns, restReturn⟩ := List.forall_mem_cons.mp each
    obtain ⟨variant, middle, derived⟩ := firstReturns progress room
    obtain ⟨answer, next, behind⟩ :=
      ih restReturn (done ++ [variant]) middle (derived.unvisited_le.trans room)
    exact ⟨_, _, .variant derived behind⟩

/-- A token is answered if its redirections end. -/
theorem returns_token (ends : RedirectsWithin (chain.answering? catalog) hops token)
    (walks : ∀ less < limit, ∀ fields target, ReturnsBelow chain catalog less (.fields fields target)) :
    ReturnsBelow chain catalog limit (.token token) := by
  induction ends with
  | @parts hops token tokens onto _ each =>
    intro progress room
    cases answered : chain.answering? catalog token with
    | none => exact ⟨_, _, .unanswered answered⟩
    | some resolver =>
      have handled := List.find?_some answered
      cases resolver with
      | primitive => exact ⟨_, _, .primitive answered⟩
      | custom resolver =>
        cases reply : resolver.reply with
        | schema fixed => exact ⟨_, _, .fixed answered reply⟩
        | redirect target => cases onto.symm.trans (onward_custom answered reply)
      | entity =>
        cases token with
        | named name =>
          obtain ⟨entity, listed⟩ := Option.isSome_iff_exists.mp handled
          obtain ⟨answer, next, derived⟩ := returns_entity listed walks progress room
          exact ⟨_, _, .named answered derived⟩
        | arrayOf | oneOf => cases handled
      | array =>
        cases token with
        | arrayOf item =>
          obtain rfl : [item] = tokens := by injection (onward_array answered).symm.trans onto
          obtain ⟨answer, next, derived⟩ := each item (List.mem_singleton_self _) progress room
          exact ⟨_, _, .array answered derived⟩
        | named | oneOf => cases handled
      | oneOf =>
        cases token with
        | oneOf variants =>
          obtain rfl : variants = tokens := by injection (onward_oneOf answered).symm.trans onto
          obtain ⟨answer, next, derived⟩ := returns_variants each [] progress room
          exact ⟨_, _, .oneOf answered derived⟩
        | named | arrayOf => cases handled
  | redirect onto _ ih =>
    intro progress room
    obtain ⟨resolver, answered, reply⟩ := onward_redirect onto
    obtain ⟨answer, next, derived⟩ := ih progress room
    exact ⟨_, _, .redirect answered reply derived⟩

/-- What fields lead to is answered wherever at most `limit` entities are left to be visited. -/
structure LeadsReturn (chain : Chain) (catalog : Catalog) (limit : Nat) : Prop where
  entity : ∀ name, ReturnsBelow chain catalog limit (.entity name)
  token : ∀ token, ReturnsBelow chain catalog limit (.token token)

/-- A field that gives no parts is answered if its nested fields are. -/
theorem returns_property {field : Field} (leads : LeadsReturn chain catalog limit)
    (plain : field.Plain catalog progress) (room : progress.unvisited catalog ≤ limit)
    (nested : ReturnsBelow chain catalog limit (.fields field.nested .object)) (target : Schema) :
    Returns (chain.answering? catalog) catalog (.field field target) progress := by
  cases source : field.source? with
  | none => exact ⟨_, _, .untyped plain source⟩
  | some task =>
    have below : ReturnsBelow chain catalog limit task := by
      rcases Field.source?_cases source with ⟨name, rfl⟩ | ⟨token, -, rfl⟩ | rfl
      · exact leads.entity name
      · exact leads.token token
      · exact nested
    obtain ⟨base, next, derived⟩ := below progress room
    exact ⟨_, _, .property plain source derived⟩

/-- A field is answered if its nested fields are. -/
theorem returns_field {field : Field} (leads : LeadsReturn chain catalog limit)
    (nested : ReturnsBelow chain catalog limit (.fields field.nested .object)) (target : Schema) :
    ReturnsBelow chain catalog limit (.field field target) := by
  intro progress room
  cases spliced : field.spliced? catalog with
  | none => exact returns_property leads (.inl spliced) room nested target
  | some task =>
    rcases Field.spliced?_cases spliced with ⟨name, rfl⟩ | rfl
    · cases state : progress.state name with
      | inProgress => exact ⟨_, _, .skipped spliced state⟩
      | complete =>
        cases defined : progress.definition? name with
        | some definition => exact ⟨_, _, .copied spliced state defined⟩
        | none =>
          exact returns_property leads (.inr ⟨name, spliced, state, defined⟩) room nested target
      | unvisited =>
        obtain ⟨parts, next, derived⟩ := leads.entity name progress room
        exact ⟨_, _, .merged spliced (by rintro other ⟨⟩; exact state) derived⟩
    · obtain ⟨parts, next, derived⟩ := nested progress room
      exact ⟨_, _, .merged spliced (by simp) derived⟩

mutual

/-- The nested fields of a field are answered. -/
theorem returns_nested (leads : LeadsReturn chain catalog limit) :
    ∀ field : Field, ReturnsBelow chain catalog limit (.fields field.nested .object)
  | { nested := parts, .. } => returns_fields leads parts .object

/-- Fields are answered in turn, by recursion on their nesting. -/
theorem returns_fields (leads : LeadsReturn chain catalog limit) :
    ∀ (fields : List Field) (target : Schema), ReturnsBelow chain catalog limit (.fields fields target)
  | [], target, progress, _ => ⟨_, _, .noFields⟩
  | first :: rest, target, progress, room => by
    obtain ⟨between, middle, derived⟩ :=
      returns_field leads (returns_nested leads first) target progress room
    obtain ⟨answer, next, behind⟩ :=
      returns_fields leads rest between middle (derived.unvisited_le.trans room)
    exact ⟨_, _, .oneField derived behind⟩

end

/-- Where the redirections of all tokens end, what fields lead to is answered. -/
theorem leadsReturn_of_ends
    (ends : ∀ token, ∃ hops, RedirectsWithin (chain.answering? catalog) hops token) (limit : Nat) :
    LeadsReturn chain catalog limit := by
  induction limit using Nat.strong_induction_on with
  | _ limit smaller =>
    have walks less (fewer : less < limit) := returns_fields (smaller less fewer)
    have tokens token : ReturnsBelow chain catalog limit (.token token) := by
      obtain ⟨hops, within⟩ := ends token
      exact returns_token within walks
    refine ⟨fun name => ?_, tokens⟩
    cases listed : catalog.get? name with
    | some entity => exact returns_entity listed walks
    | none =>
      intro progress room
      by_cases fresh : progress.state name = .unvisited
      · obtain ⟨answer, next, derived⟩ := tokens (.named name) progress room
        exact ⟨_, _, .plain fresh listed derived⟩
      · exact ⟨_, _, .stub fresh⟩

/-- Where the redirections of all tokens end, every task is answered in every progress. -/
theorem returns_of_ends
    (ends : ∀ token, ∃ hops, RedirectsWithin (chain.answering? catalog) hops token) (task : Task)
    (progress : Progress) : Returns (chain.answering? catalog) catalog task progress := by
  have leads := leadsReturn_of_ends ends (progress.unvisited catalog)
  have room := Nat.le_refl (progress.unvisited catalog)
  cases task with
  | entity name => exact leads.entity name progress room
  | token token => exact leads.token token progress room
  | variants tokens done =>
    exact returns_variants (fun token _ => leads.token token) done progress room
  | field field target =>
    exact returns_field leads (returns_nested leads field) target progress room
  | fields fields target => exact returns_fields leads fields target progress room

/-- Without a resolver that redirects, every task is answered in every progress. -/
theorem returns_of_straight (fixed : ∀ resolver ∈ chain, resolver.target? = none) (task : Task)
    (progress : Progress) : Returns (chain.answering? catalog) catalog task progress :=
  returns_of_ends (fun token => ⟨0, .of_chain fixed token⟩) task progress

namespace Chain

/-- Resolvers that look at nothing but the token tell no chains apart. -/
theorem indifferent (chain : Chain) (others : List String) : chain.Indifferent others :=
  fun _ _ _ _ _ => ⟨fun _ => rfl, rfl⟩

/-- Idle resolvers are never the ones that answer. -/
theorem IdleAt.answering?_eq (idle : chain.IdleAt name) (catalog : Catalog) :
    (chain.without name).answering? catalog = chain.answering? catalog :=
  funext fun token => (idle.choose?_eq _ _ token).symm

/-- What one chain resolves, each call at the levels of its own chain, another one resolves alike. -/
structure ReturnsAlike (catalog : Catalog) (chain other : Chain) : Prop where
  /-- The same calls return. -/
  returns : ∀ task progress, Returns (other.answering? catalog) catalog task progress ↔
    Returns (chain.answering? catalog) catalog task progress
  token : ∀ token progress, Returns (chain.answering? catalog) catalog (.token token) progress →
    (Lexicon.resolve? { chain := other, catalog } token).run progress =
        (Lexicon.resolve? { chain, catalog } token).run progress ∧
      (Lexicon.resolve { chain := other, catalog } token).run progress =
        (Lexicon.resolve { chain, catalog } token).run progress
  entity : ∀ name progress, Returns (chain.answering? catalog) catalog (.entity name) progress →
    (Lexicon.entitySchema { chain := other, catalog } name).run progress =
      (Lexicon.entitySchema { chain, catalog } name).run progress

/-- Chains in which the same resolvers answer resolve alike, whatever their lengths. -/
theorem returnsAlike_of_answering {other : Chain}
    (same : other.answering? catalog = chain.answering? catalog) :
    ReturnsAlike catalog chain other where
  returns task progress := by rw [same]
  token token progress returned := by
    obtain ⟨answer, next, derived⟩ := returned
    have ran : (Lexicon.resolve? { chain, catalog } token).run progress = _ := derived.resolve?_run
    rw [← same] at derived
    have otherRan : (Lexicon.resolve? { chain := other, catalog } token).run progress = _ :=
      derived.resolve?_run
    refine ⟨by rw [ran, otherRan, same], ?_⟩
    rw [Lexicon.resolve, Lexicon.resolve, run_bind_of_run ran, run_bind_of_run otherRan, same]
  entity name progress returned := by
    obtain ⟨answer, next, derived⟩ := returned
    have ran : (Lexicon.entitySchema { chain, catalog } name).run progress = _ :=
      derived.entitySchema_run
    rw [← same] at derived
    have otherRan : (Lexicon.entitySchema { chain := other, catalog } name).run progress = _ :=
      derived.entitySchema_run
    rw [ran, otherRan]

/-- An idle resolver makes a chain longer by one, and a build goes down more levels by it; the calls that
return are the same, and they return the same. -/
theorem returnsAlike_register {resolver : Resolver} (idle : resolver.Idle) (position : Position)
    {later : List ChainEdit} (avoid : ∀ change ∈ later, change.Avoids resolver.name)
    (catalog : Catalog) :
    ReturnsAlike catalog (later.foldl edit chain)
      (later.foldl edit (chain.edit (.register resolver position))) := by
  refine returnsAlike_of_answering ?_
  by_cases present : resolver.name ∈ chain.names
  · rw [edit_register_ok (register_of_mem present position)]
  · rw [← ((IdleAt.register idle present position).edits avoid).answering?_eq, without_edits avoid,
      without_registered present]

end Chain

end ApiDoc
