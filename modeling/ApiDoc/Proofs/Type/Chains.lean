import Mathlib.Data.List.Nodup
import ApiDoc.Proofs.Type.Concurring

/-! # Editing a chain

A chain is set up by registering and unregistering resolvers. An edit keeps the names distinct, and
a registration does one of three things: nothing, for a name that is present; nothing but fail, for
an anchor that is not; or it puts the resolver in its place and moves no other (`register_cases`).

A resolver that handles no token is never the one that answers. Two things can still tell that it is
there: an edit that names it, since a name is registered once, and another resolver of the chain,
since resolvers see the names of the chain (`idle_matters`). Where neither does, a chain with the
idle resolver and the same chain without it answer alike in every build (`IdleAt.concurs`), and so
does what further edits make of the two (`Chain.edits_keep`).
-/

namespace ApiDoc

/-- A change of a chain. -/
inductive ChainEdit (κ : Type := CustomResolver) where
  | register (resolver : Resolver κ) (position : Position)
  | unregister (name : String)

def Position.anchor? : Position → Option String
  | front | back => none
  | before name | after name => some name

theorem insertIdx_append {α : Type} (early late : List α) (value : α) :
    (early ++ late).insertIdx early.length value = early ++ value :: late := by
  induction early with
  | nil => rfl
  | cons first rest ih => rw [List.cons_append, List.length_cons, List.insertIdx_succ_cons, ih]; rfl

variable {κ : Type} [TypeResolver κ]

def Position.place (chain : Chain κ) : Position → Except ConfigError Nat
  | front => .ok 0
  | back => .ok chain.length
  | before name => chain.index? name
  | after name => (chain.index? name).map (· + 1)

/-- A resolver answers no token, whatever it sees. -/
def Resolver.Idle (resolver : Resolver κ) : Prop :=
  ∀ around progress token, resolver.handles around progress token = false

/-- An edit registers no resolver of a name, and none next to one of that name. -/
def ChainEdit.Avoids (name : String) : ChainEdit κ → Prop
  | .register resolver position => resolver.name ≠ name ∧ position.anchor? ≠ some name
  | .unregister _ => True

namespace Chain

/-- The chain behind an edit; a registration that fails leaves it as it is. -/
def edit (chain : Chain κ) : ChainEdit κ → Chain κ
  | .register resolver position =>
    match chain.register resolver position with
    | .ok next => next
    | .error _ => chain
  | .unregister name => (chain.unregister name).2

/-- Where a resolver stands that entered a chain. -/
inductive Enters (chain : Chain κ) (resolver : Resolver κ) : Position → Chain κ → Prop
  | front : Enters chain resolver .front (resolver :: chain)
  | back : Enters chain resolver .back (chain ++ [resolver])
  | before {early late : Chain κ} {anchor : Resolver κ} : chain = early ++ anchor :: late →
      Enters chain resolver (.before anchor.name) (early ++ resolver :: anchor :: late)
  | after {early late : Chain κ} {anchor : Resolver κ} : chain = early ++ anchor :: late →
      Enters chain resolver (.after anchor.name) (early ++ anchor :: resolver :: late)

variable {chain next other : Chain κ} {resolver : Resolver κ} {position : Position} {name : String}

theorem contains_iff : chain.contains name = true ↔ name ∈ chain.names := by
  simp [contains, names]

/-- A resolver that enters a chain moves no other one. -/
theorem Enters.split (enters : Enters chain resolver position next) :
    ∃ early late, chain = early ++ late ∧ next = early ++ resolver :: late := by
  cases enters with
  | front => exact ⟨[], chain, rfl, rfl⟩
  | back => exact ⟨chain, [], (List.append_nil chain).symm, rfl⟩
  | @before early late anchor split => exact ⟨early, anchor :: late, split, rfl⟩
  | @after early late anchor split =>
    exact ⟨early ++ [anchor], late, by simp [split], by simp⟩

/-- A name that is present splits the chain at its first place. -/
theorem exists_split (present : name ∈ chain.names) :
    ∃ early late anchor, chain = early ++ anchor :: late ∧ anchor.name = name ∧
      name ∉ names early := by
  obtain ⟨earlyNames, lateNames, split, first⟩ := List.eq_append_cons_of_mem present
  obtain ⟨early, rest, rfl, rfl, behind⟩ := List.map_eq_append_iff.mp split
  obtain ⟨anchor, late, rfl, named, -⟩ := List.map_eq_cons_iff.mp behind
  exact ⟨early, late, anchor, rfl, named, first⟩

theorem findIdx?_eq_none (absent : name ∉ chain.names) :
    chain.findIdx? (·.name == name) = none := by
  simpa [names] using absent

/-- An anchor is found at its first place. -/
theorem index?_append {early late : Chain κ} {anchor : Resolver κ} (named : anchor.name = name)
    (first : name ∉ early.names) : index? (early ++ anchor :: late) name = .ok early.length := by
  simp only [index?, List.findIdx?_append, findIdx?_eq_none first, List.findIdx?_cons, named,
    BEq.rfl, if_true, Option.map_some, Option.none_or, Nat.zero_add]

theorem index?_of_not_mem (absent : name ∉ chain.names) :
    chain.index? name = .error (.unknownResolver name) := by
  rw [index?, findIdx?_eq_none absent]

/-- A name that is absent is registered at the place that its position means. -/
theorem register_of_not_mem (absent : resolver.name ∉ chain.names) (position : Position) :
    chain.register resolver position =
      (position.place chain).map fun index => chain.insertIdx index resolver := by
  rw [register, if_neg fun present => absent (contains_iff.mp present)]
  cases position with
  | front | back => rfl
  | before name | after name => cases place : chain.index? name <;> simp [Position.place, place] <;> rfl

theorem register_of_mem (present : resolver.name ∈ chain.names) (position : Position) :
    chain.register resolver position = .ok chain := by
  rw [register, if_pos (contains_iff.mpr present)]
  rfl

theorem register_before {early late : Chain κ} {anchor : Resolver κ} (named : anchor.name = name)
    (first : name ∉ early.names) (absent : resolver.name ∉ names (early ++ anchor :: late)) :
    register (early ++ anchor :: late) resolver (.before name) =
      .ok (early ++ resolver :: anchor :: late) := by
  rw [register_of_not_mem absent, Position.place, index?_append named first]
  exact congrArg Except.ok (insertIdx_append early (anchor :: late) resolver)

theorem register_after {early late : Chain κ} {anchor : Resolver κ} (named : anchor.name = name)
    (first : name ∉ early.names) (absent : resolver.name ∉ names (early ++ anchor :: late)) :
    register (early ++ anchor :: late) resolver (.after name) =
      .ok (early ++ anchor :: resolver :: late) := by
  have inserted := insertIdx_append (early ++ [anchor]) late resolver
  rw [List.length_append, List.append_assoc, List.append_assoc] at inserted
  rw [register_of_not_mem absent, Position.place, index?_append named first]
  exact congrArg Except.ok inserted

theorem register_back (absent : resolver.name ∉ chain.names) :
    chain.register resolver .back = .ok (chain ++ [resolver]) := by
  rw [register_of_not_mem absent]
  exact congrArg Except.ok List.insertIdx_length_self

theorem register_unknown {anchor : String} (absent : resolver.name ∉ chain.names)
    (anchored : position.anchor? = some anchor) (unknown : anchor ∉ chain.names) :
    chain.register resolver position = .error (.unknownResolver anchor) := by
  rw [register_of_not_mem absent]
  cases position with
  | front | back => cases anchored
  | before name | after name =>
    cases anchored
    rw [Position.place, index?_of_not_mem unknown]
    rfl

/-- Everything a registration can do. -/
theorem register_cases (chain : Chain κ) (resolver : Resolver κ) (position : Position) :
    (resolver.name ∈ chain.names ∧ chain.register resolver position = .ok chain) ∨
      (resolver.name ∉ chain.names ∧ ∃ anchor, position.anchor? = some anchor ∧
        anchor ∉ chain.names ∧
          chain.register resolver position = .error (.unknownResolver anchor)) ∨
      (resolver.name ∉ chain.names ∧
        (∀ anchor, position.anchor? = some anchor → anchor ∈ chain.names) ∧
          ∃ next, chain.register resolver position = .ok next ∧
            Enters chain resolver position next) := by
  by_cases present : resolver.name ∈ chain.names
  · exact .inl ⟨present, register_of_mem present position⟩
  cases position with
  | front => exact .inr (.inr ⟨present, by simp [Position.anchor?], _, register_of_not_mem present _, .front⟩)
  | back => exact .inr (.inr ⟨present, by simp [Position.anchor?], _, register_back present, .back⟩)
  | before name =>
    by_cases known : name ∈ chain.names
    · refine .inr (.inr ⟨present, by simpa [Position.anchor?] using known, ?_⟩)
      obtain ⟨early, late, anchor, rfl, rfl, first⟩ := exists_split known
      exact ⟨_, register_before rfl first present, .before rfl⟩
    · exact .inr (.inl ⟨present, name, rfl, known, register_unknown present rfl known⟩)
  | after name =>
    by_cases known : name ∈ chain.names
    · refine .inr (.inr ⟨present, by simpa [Position.anchor?] using known, ?_⟩)
      obtain ⟨early, late, anchor, rfl, rfl, first⟩ := exists_split known
      exact ⟨_, register_after rfl first present, .after rfl⟩
    · exact .inr (.inl ⟨present, name, rfl, known, register_unknown present rfl known⟩)

theorem unregister_eq_eraseP (chain : Chain κ) (name : String) :
    (chain.unregister name).2 = chain.eraseP (·.name == name) := by
  unfold unregister
  split
  · rfl
  · next absent =>
    refine (List.eraseP_of_forall_not fun resolver member same => absent ?_).symm
    exact List.any_eq_true.mpr ⟨resolver, member, same⟩

theorem edit_register_ok (registered : chain.register resolver position = .ok next) :
    chain.edit (.register resolver position) = next := by
  rw [edit, registered]

theorem edit_register_error {error : ConfigError}
    (failed : chain.register resolver position = .error error) :
    chain.edit (.register resolver position) = chain := by
  rw [edit, failed]

/-- An edit keeps the names distinct. -/
theorem edit_nodup (distinct : chain.names.Nodup) (change : ChainEdit κ) :
    (chain.edit change).names.Nodup := by
  cases change with
  | unregister name =>
    rw [edit, unregister_eq_eraseP]
    exact distinct.sublist (List.eraseP_sublist.map Resolver.name)
  | register resolver position =>
    rcases register_cases chain resolver position with ⟨-, kept⟩ | ⟨-, _, -, -, failed⟩ |
      ⟨absent, -, next, entered, enters⟩
    · rwa [edit_register_ok kept]
    · rwa [edit_register_error failed]
    · obtain ⟨early, late, rfl, rfl⟩ := enters.split
      rw [edit_register_ok entered]
      simp only [names, List.map_append, List.map_cons] at absent distinct ⊢
      exact List.nodup_middle.mpr (List.nodup_cons.mpr ⟨absent, distinct⟩)

/-- Edits keep the names distinct. -/
theorem edits_nodup {start : Chain κ} (distinct : start.names.Nodup) (edits : List (ChainEdit κ)) :
    (edits.foldl edit start).names.Nodup := by
  induction edits generalizing start with
  | nil => exact distinct
  | cons change rest ih => exact ih (edit_nodup distinct change)

/-- What a registration does to a chain. -/
structure Registers (chain : Chain κ) (resolver : Resolver κ) (position : Position) : Prop where
  /-- A name that is present changes nothing, whatever the position. -/
  present : resolver.name ∈ chain.names → chain.register resolver position = .ok chain
  /-- A new name fails exactly for an anchor that is absent. -/
  fails : resolver.name ∉ chain.names → ∀ error,
    chain.register resolver position = .error error ↔
      ∃ anchor, position.anchor? = some anchor ∧ anchor ∉ chain.names ∧
        error = .unknownResolver anchor
  /-- A failure leaves the chain as it is. -/
  unchanged : ∀ error, chain.register resolver position = .error error →
    chain.edit (.register resolver position) = chain
  /-- Otherwise the resolver stands where its position says, and the others keep their order. -/
  enters : resolver.name ∉ chain.names →
    (∀ anchor, position.anchor? = some anchor → anchor ∈ chain.names) →
      ∃ next, chain.register resolver position = .ok next ∧ Enters chain resolver position next ∧
        chain.Sublist next

theorem registers (chain : Chain κ) (resolver : Resolver κ) (position : Position) :
    Registers chain resolver position := by
  rcases register_cases chain resolver position with ⟨there, kept⟩ |
    ⟨absent, anchor, anchored, unknown, failed⟩ | ⟨absent, known, next, entered, enters⟩
  · exact ⟨fun _ => kept, fun absent => absurd there absent, fun _ => edit_register_error,
      fun absent => absurd there absent⟩
  · refine ⟨fun there => absurd there absent, fun _ error => ⟨fun other => ?_, ?_⟩,
      fun _ => edit_register_error, fun _ known => absurd (known anchor anchored) unknown⟩
    · cases failed.symm.trans other
      exact ⟨anchor, anchored, unknown, rfl⟩
    · rintro ⟨other, otherAnchored, -, rfl⟩
      obtain rfl : anchor = other := by injection anchored.symm.trans otherAnchored
      exact failed
  · refine ⟨fun there => absurd there absent, fun _ error => ⟨fun failed => ?_, ?_⟩,
      fun _ => edit_register_error, fun _ _ => ⟨next, entered, enters, ?_⟩⟩
    · cases entered.symm.trans failed
    · rintro ⟨anchor, anchored, unknown, -⟩
      exact absurd (known anchor anchored) unknown
    · obtain ⟨early, late, split, splitNext⟩ := enters.split
      rw [split, splitNext]
      exact (List.sublist_cons_self resolver late).append_left early

/-- An edit adds the resolver that it registers at most. -/
theorem mem_edit {change : ChainEdit κ} (member : resolver ∈ chain.edit change) :
    resolver ∈ chain ∨ ∃ position, change = .register resolver position := by
  cases change with
  | unregister name =>
    rw [edit, unregister_eq_eraseP] at member
    exact .inl (List.mem_of_mem_eraseP member)
  | register added position =>
    rcases register_cases chain added position with ⟨-, kept⟩ | ⟨-, _, -, -, failed⟩ |
      ⟨-, -, next, entered, enters⟩
    · exact .inl (edit_register_ok kept ▸ member)
    · exact .inl (edit_register_error failed ▸ member)
    · obtain ⟨early, late, rfl, rfl⟩ := enters.split
      rw [edit_register_ok entered] at member
      rcases List.mem_append.mp member with before | after
      · exact .inl (List.mem_append_left late before)
      · rcases List.mem_cons.mp after with rfl | behind
        · exact .inr ⟨position, rfl⟩
        · exact .inl (List.mem_append_right early behind)

def without (chain : Chain κ) (name : String) : Chain κ := chain.filter (·.name != name)

theorem mem_names_without {asked : String} (differs : asked ≠ name) :
    asked ∈ (chain.without name).names ↔ asked ∈ chain.names := by
  simp only [names, without, List.mem_map, List.mem_filter, bne_iff_ne]
  refine exists_congr fun resolver => ⟨fun ⟨⟨member, _⟩, named⟩ => ⟨member, named⟩, ?_⟩
  exact fun ⟨member, named⟩ => ⟨⟨member, named ▸ differs⟩, named⟩

theorem without_cons (late : Chain κ) (differs : resolver.name ≠ name) :
    without (resolver :: late) name = resolver :: late.without name :=
  List.filter_cons_of_pos (by simpa using differs)

theorem without_split (early late : Chain κ) (differs : resolver.name ≠ name) :
    without (early ++ resolver :: late) name = early.without name ++ resolver :: late.without name := by
  rw [← without_cons late differs]
  exact List.filter_append early (resolver :: late)

theorem without_of_not_mem (absent : name ∉ chain.names) : chain.without name = chain :=
  List.filter_eq_self.mpr fun resolver member => by
    simpa using fun named => absent (List.mem_map.mpr ⟨resolver, member, named⟩)

/-- A registration puts a resolver into the same place, whatever else there is of another name. -/
theorem without_register (named : resolver.name ≠ name) (anchored : position.anchor? ≠ some name) :
    (chain.edit (.register resolver position)).without name =
      (chain.without name).edit (.register resolver position) := by
  by_cases present : resolver.name ∈ chain.names
  · rw [edit_register_ok (register_of_mem present position),
      edit_register_ok (register_of_mem ((mem_names_without named).mpr present) position)]
  have absent : resolver.name ∉ (chain.without name).names := mt (mem_names_without named).mp present
  have differs {anchor : String} (same : position.anchor? = some anchor) : anchor ≠ name :=
    fun own => anchored (own ▸ same)
  by_cases unknown : ∃ anchor, position.anchor? = some anchor ∧ anchor ∉ chain.names
  · obtain ⟨anchor, same, unknown⟩ := unknown
    rw [edit_register_error (register_unknown present same unknown),
      edit_register_error (register_unknown absent same (mt (mem_names_without (differs same)).mp unknown))]
  have known (anchor : String) (same : position.anchor? = some anchor) : anchor ∈ chain.names :=
    by_contra fun gone => unknown ⟨anchor, same, gone⟩
  cases position with
  | front =>
    rw [edit_register_ok (register_of_not_mem present _),
      edit_register_ok (register_of_not_mem absent _)]
    exact without_cons chain named
  | back =>
    rw [edit_register_ok (register_back present), edit_register_ok (register_back absent),
      without_split chain [] named]
    rfl
  | before anchorName =>
    have differs := differs rfl
    obtain ⟨early, late, anchor, rfl, rfl, first⟩ := exists_split (known anchorName rfl)
    rw [without_split early late differs] at absent ⊢
    rw [edit_register_ok (register_before rfl first present),
      edit_register_ok (register_before rfl (mt (mem_names_without differs).mp first) absent),
      without_split early _ named, without_cons late differs]
  | after anchorName =>
    have differs := differs rfl
    obtain ⟨early, late, anchor, rfl, rfl, first⟩ := exists_split (known anchorName rfl)
    rw [without_split early late differs] at absent ⊢
    rw [edit_register_ok (register_after rfl first present),
      edit_register_ok (register_after rfl (mt (mem_names_without differs).mp first) absent),
      without_split early _ differs, without_cons late named]

theorem without_unregister (chain : Chain κ) (asked name : String) :
    (chain.edit (.unregister asked)).without name = (chain.without name).edit (.unregister asked) := by
  simp only [edit, unregister_eq_eraseP]
  by_cases same : asked = name
  · subst same
    have gone : asked ∉ (chain.without asked).names := by
      simp [names, without]
    rw [List.eraseP_of_forall_not fun resolver member named => gone (List.mem_map.mpr
      ⟨resolver, member, beq_iff_eq.mp named⟩)]
    rcases List.exists_or_eq_self_of_eraseP (·.name == asked) chain with kept | split
    · rw [kept]
    · obtain ⟨resolver, early, late, -, named, whole, erased⟩ := split
      rw [erased, whole]
      simp [without, beq_iff_eq.mp named]
  · rw [without, without, List.eraseP_filter]
    congr 2
    funext resolver
    by_cases named : resolver.name = asked
    · simp [named, same]
    · simp [named]

/-- What edits that avoid a name do to the others does not depend on it. -/
theorem without_edits {edits : List (ChainEdit κ)} (avoid : ∀ change ∈ edits, change.Avoids name)
    (chain : Chain κ) :
    (edits.foldl edit chain).without name = edits.foldl edit (chain.without name) := by
  induction edits generalizing chain with
  | nil => rfl
  | cons change rest ih =>
    obtain ⟨first, others⟩ := List.forall_mem_cons.mp avoid
    rw [List.foldl_cons, List.foldl_cons, ih others]
    congr 1
    cases change with
    | register resolver position => exact without_register first.1 first.2
    | unregister asked => exact without_unregister chain asked name

/-- The resolvers of a name in a chain are idle. -/
def IdleAt (chain : Chain κ) (name : String) : Prop :=
  ∀ resolver ∈ chain, resolver.name = name → resolver.Idle

/-- Edits that avoid a name add no resolver that has it. -/
theorem IdleAt.edits {edits : List (ChainEdit κ)} (idle : chain.IdleAt name)
    (avoid : ∀ change ∈ edits, change.Avoids name) : IdleAt (edits.foldl edit chain) name := by
  induction edits generalizing chain with
  | nil => exact idle
  | cons change rest ih =>
    obtain ⟨first, others⟩ := List.forall_mem_cons.mp avoid
    refine ih (fun resolver member named => ?_) others
    rcases mem_edit member with old | ⟨position, rfl⟩
    · exact idle resolver old named
    · exact absurd named first.1

/-- A new resolver is the only one of its name. -/
theorem IdleAt.register (idle : resolver.Idle) (absent : resolver.name ∉ chain.names)
    (position : Position) : IdleAt (chain.edit (.register resolver position)) resolver.name := by
  intro other member named
  rcases mem_edit member with old | ⟨_, same⟩
  · exact absurd (List.mem_map.mpr ⟨other, old, named⟩) absent
  · cases same
    exact idle

/-- Behind its registration a new resolver is all that a chain has more. -/
theorem without_registered (absent : resolver.name ∉ chain.names) (position : Position) :
    (chain.edit (.register resolver position)).without resolver.name = chain := by
  rcases register_cases chain resolver position with ⟨present, -⟩ | ⟨-, _, -, -, failed⟩ |
    ⟨-, -, next, entered, enters⟩
  · exact absurd present absent
  · rw [edit_register_error failed, without_of_not_mem absent]
  · obtain ⟨early, late, rfl, rfl⟩ := enters.split
    rw [edit_register_ok entered]
    refine Eq.trans ?_ (without_of_not_mem absent)
    simp [without]

theorem choose?_congr {around around' : Surroundings} {progress : Progress} {token : TypeToken}
    (same : ∀ resolver ∈ chain,
      resolver.handles around' progress token = resolver.handles around progress token) :
    chain.choose? around' progress token = chain.choose? around progress token := by
  unfold choose?
  induction chain with
  | nil => rfl
  | cons first rest ih =>
    obtain ⟨here, others⟩ := List.forall_mem_cons.mp same
    rw [List.find?_cons, List.find?_cons, here, ih others]

/-- Idle resolvers are never the ones that answer. -/
theorem IdleAt.choose?_eq (idle : chain.IdleAt name) (around : Surroundings) (progress : Progress)
    (token : TypeToken) :
    chain.choose? around progress token = (chain.without name).choose? around progress token := by
  unfold choose? without
  induction chain with
  | nil => rfl
  | cons first rest ih =>
    obtain ⟨here, others⟩ := List.forall_mem_cons.mp idle
    by_cases named : first.name = name
    · rw [List.find?_cons_of_neg (by simp [here named around progress token]),
        List.filter_cons_of_neg (by simpa using named), ih others]
    · rw [List.filter_cons_of_pos (by simpa using named), List.find?_cons, List.find?_cons, ih others]

/-- No resolver of a chain tells the names of the chain from other ones. -/
def Indifferent (chain : Chain κ) (others : List String) : Prop :=
  ∀ resolver, .custom resolver ∈ chain → ∀ catalog deeper token,
    (∀ progress, TypeResolver.handles resolver ⟨others, catalog, deeper⟩ progress token =
      TypeResolver.handles resolver ⟨chain.names, catalog, deeper⟩ progress token) ∧
    TypeResolver.build resolver ⟨others, catalog, deeper⟩ token =
      TypeResolver.build resolver ⟨chain.names, catalog, deeper⟩ token

theorem Indifferent.handles {names : List String} (indifferent : chain.Indifferent names)
    (member : resolver ∈ chain) (catalog : Catalog) (deeper : Descent) (progress : Progress)
    (token : TypeToken) :
    resolver.handles ⟨names, catalog, deeper⟩ progress token =
      resolver.handles ⟨chain.names, catalog, deeper⟩ progress token := by
  cases resolver with
  | custom resolver => exact (indifferent resolver member catalog deeper token).1 progress
  | array | oneOf | entity | primitive => cases token <;> rfl

/-- With idle resolvers that nobody notices, a chain answers as without them. -/
theorem IdleAt.concurs (idle : other.IdleAt name)
    (indifferent : (other.without name).Indifferent other.names) (catalog : Catalog) :
    Lexicon.Concurs { chain := other.without name, catalog } { chain := other, catalog } where
  catalog := rfl
  choose? deeper progress token := by
    rw [idle.choose?_eq]
    exact choose?_congr fun resolver member => indifferent.handles member catalog deeper progress token
  build resolver member deeper token := (indifferent resolver member catalog deeper token).2

/-- Whatever is resolved or introspected by one chain, at any depth and in any progress, is so by
another one. -/
structure ResolvesAlike (chain other : Chain κ) : Prop where
  token : ∀ catalog levels token,
    Lexicon.resolveWithin? { chain := other, catalog } levels token =
      Lexicon.resolveWithin? { chain, catalog } levels token
  entity : ∀ catalog levels name,
    Lexicon.entityWithin { chain := other, catalog } levels name =
      Lexicon.entityWithin { chain, catalog } levels name

theorem resolvesAlike_of_concurs
    (concurs : ∀ catalog, Lexicon.Concurs { chain, catalog } { chain := other, catalog }) :
    ResolvesAlike chain other where
  token catalog := (concurs catalog).resolveWithin?_eq
  entity catalog := (concurs catalog).entityWithin_eq

/-- With an idle resolver that is registered and never named again, a chain resolves as without it. -/
theorem resolvesAlike_register (idle : resolver.Idle) (position : Position)
    {later : List (ChainEdit κ)} (avoid : ∀ change ∈ later, change.Avoids resolver.name)
    (indifferent : Indifferent (later.foldl edit chain)
      (later.foldl edit (chain.edit (.register resolver position))).names) :
    ResolvesAlike (later.foldl edit chain)
      (later.foldl edit (chain.edit (.register resolver position))) := by
  by_cases present : resolver.name ∈ chain.names
  · rw [edit_register_ok (register_of_mem present position)]
    exact ⟨fun _ _ _ => rfl, fun _ _ _ => rfl⟩
  · have kept := (without_edits avoid (chain.edit (.register resolver position))).trans
      (congrArg (later.foldl edit) (without_registered present position))
    have idleAt := (IdleAt.register idle present position).edits avoid
    rw [← kept] at indifferent ⊢
    exact resolvesAlike_of_concurs (idleAt.concurs indifferent)

/-- In every chain that edits make of the built-in or the empty one, names are distinct, and a
registration does what its position says or nothing. A resolver that handles no token in any build
changes nothing that is resolved, at any position and at any depth, neither right after it is
registered nor after further edits that do not name it, as long as the other resolvers of the chain do
not tell by the names of the chain that it is there. -/
theorem edits_keep {start : Chain κ} (known : start ∈ [builtIn, []]) (edits : List (ChainEdit κ)) :
    (edits.foldl edit start).names.Nodup ∧
      ∀ resolver position, Registers (edits.foldl edit start) resolver position ∧
        (resolver.Idle → ∀ later : List (ChainEdit κ), (∀ change ∈ later, change.Avoids resolver.name) →
          Indifferent (later.foldl edit (edits.foldl edit start))
            (later.foldl edit ((edits.foldl edit start).edit (.register resolver position))).names →
          ResolvesAlike (later.foldl edit (edits.foldl edit start))
            (later.foldl edit ((edits.foldl edit start).edit (.register resolver position)))) := by
  have distinct : start.names.Nodup := by
    rcases List.mem_pair.mp known with rfl | rfl
    · simp [names, builtIn, Resolver.name]
    · exact List.nodup_nil
  refine ⟨edits_nodup distinct edits, fun resolver position => ⟨registers _ _ _, ?_⟩⟩
  exact fun idle later avoid => resolvesAlike_register idle position avoid

/-- A resolver given by what it does. -/
structure OpenResolver where
  name : String
  handles : Surroundings → Progress → TypeToken → Bool
  build : Surroundings → TypeToken → Build Schema

instance : TypeResolver OpenResolver where
  name := OpenResolver.name
  handles := OpenResolver.handles
  build := OpenResolver.build

def idle : Resolver OpenResolver :=
  .custom { name := "idle", handles := fun _ _ _ => false, build := fun _ _ => pure .string }

theorem idle_idle : idle.Idle := fun _ _ _ => rfl

/-- A resolver that answers what was visited before with an object. -/
def visited : Resolver OpenResolver :=
  .custom {
    name := "visited"
    handles := fun _ progress token =>
      match token with
      | .named name => progress.state name != .unvisited
      | _ => false
    build := fun _ _ => pure .object }

def money : Resolver OpenResolver :=
  .custom {
    name := "money"
    handles := fun _ _ token => token.same (.named "Money")
    build := fun _ _ => pure .object }

/-- Edits that put one resolver in front and take another one out. -/
def frontEdits : List (ChainEdit OpenResolver) := [.register visited .front, .unregister "one_of"]

def laterEdits : List (ChainEdit OpenResolver) := [.register money (.before "visited"), .unregister "primitive"]

def nodes : Catalog := [("Node", { name := "Node", fields := [.typed "children" "[Node]"] })]

/-- Behind two edits, the idle resolver fails for an anchor that is gone. Next to one that is there it
changes nothing of how an array of a recursive entity is resolved behind two more, though one of the
resolvers looks at what was visited. -/
theorem edits_keep_nodes :
    (frontEdits.foldl edit builtIn).register idle (.before "one_of") =
        .error (.unknownResolver "one_of") ∧
      Lexicon.resolveWithin?
          { chain := laterEdits.foldl edit
              ((frontEdits.foldl edit builtIn).edit (.register idle (.after "array")))
            catalog := nodes } 4 (.arrayOf (.named "Node")) =
        Lexicon.resolveWithin?
          { chain := laterEdits.foldl edit (frontEdits.foldl edit builtIn), catalog := nodes } 4
          (.arrayOf (.named "Node")) := by
  obtain ⟨-, registers⟩ := edits_keep (List.mem_cons_self (a := builtIn)) frontEdits
  refine ⟨((registers idle (.before "one_of")).1.fails (by decide) _).mpr ?_, ?_⟩
  · exact ⟨"one_of", rfl, by decide, rfl⟩
  · have avoid : ∀ change ∈ laterEdits, change.Avoids idle.name := by
      simp [laterEdits, ChainEdit.Avoids, Position.anchor?, money, idle, Resolver.name,
        TypeResolver.name]
    have final : laterEdits.foldl edit (frontEdits.foldl edit builtIn) =
        [money, visited, .array, .entity] := rfl
    have indifferent : Indifferent (laterEdits.foldl edit (frontEdits.foldl edit builtIn))
        (laterEdits.foldl edit
          ((frontEdits.foldl edit builtIn).edit (.register idle (.after "array")))).names := by
      intro resolver member catalog deeper token
      simp only [final, money, visited, List.mem_cons, Resolver.custom.injEq, reduceCtorEq, or_false,
        List.not_mem_nil] at member
      rcases member with rfl | rfl <;> exact ⟨fun _ => rfl, rfl⟩
    exact ((registers idle (.after "array")).2 idle_idle laterEdits avoid indifferent).token
      nodes 4 (.arrayOf (.named "Node"))

/-- A resolver that answers all tokens of a chain that has one of the name `idle`. -/
def onlooker : Resolver OpenResolver :=
  .custom {
    name := "onlooker"
    handles := fun around _ _ => around.names.contains "idle"
    build := fun _ _ => pure .object }

/-- A resolver that handles no token and has the name of another one. -/
def namesake : Resolver OpenResolver :=
  .custom { name := "money", handles := fun _ _ _ => false, build := fun _ _ => pure .string }

/-- An idle resolver changes what strings are resolved to where another resolver looks out for it, and
what `Money` is resolved to where it has the name of a resolver that is registered later. -/
theorem idle_matters :
    idle.Idle ∧
      ((Lexicon.resolve? { chain := [.register onlooker .front, .register idle .back].foldl edit builtIn }
          (.named "String")).run {}).1 ≠
        ((Lexicon.resolve? { chain := [.register onlooker .front].foldl edit builtIn }
          (.named "String")).run {}).1 ∧
      namesake.Idle ∧
      ((Lexicon.resolve? { chain := [.register namesake .front, .register money .front].foldl edit builtIn }
          (.named "Money")).run {}).1 ≠
        ((Lexicon.resolve? { chain := [.register money .front].foldl edit builtIn }
          (.named "Money")).run {}).1 := by
  refine ⟨idle_idle, fun same => ?_, fun _ _ _ => rfl, fun same => ?_⟩
  · have noticed : some Schema.object = some Schema.string := same
    cases noticed
  · have taken : some Schema.string = some Schema.object := same
    cases taken

end Chain

end ApiDoc
