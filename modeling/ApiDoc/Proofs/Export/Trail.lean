import ApiDoc.Proofs.Export.Content
import ApiDoc.Proofs.Run

/-! # The trail of the walk

The visits of the walk as a machine that takes one step for each position it comes to. Its state
is an agenda: the positions still to be visited, and the names met so far. A position without a
name puts the parts of its schema in front of the agenda; a name met before puts nothing there; a
new name is reserved, and the parts of its definition come next. There are no levels in it: the
machine stops when the agenda is empty, or at a position where it cannot go on.

What a run adds to the names met is what its visits begin (`names_of_run`), and no name is begun
twice (`nodup_begun`). A run to an empty agenda visits every position of the first agenda and the
parts of whatever it renders (`visited_of_pending`, `visited_of_content`), and behind it the name of
every visited position is met (`met_of_visited`).
-/

namespace ApiDoc.Export

open Json

/-- A place the walk comes to: its schema, and the name it is referred to by, if there is one. -/
structure Position where
  name? : Option String
  schema : Schema

def Position.ofSite (site : Schema) : Position := ⟨site.canonicalName, site⟩

def Position.ofEntry (entry : String × Schema) : Position := ⟨some entry.1, entry.2⟩

/-- A schema for its content alone, without its name, its nullability and its extensions. -/
def bare (site : Schema) : Schema :=
  { site with canonicalName := none, nullable := false, extensions := [] }

/-- The schema that a name is defined by when it is first met at `site`: the one of the table,
otherwise the site for its content, unless it is a stub. -/
def body? (api : Api) (name : String) (site : Schema) : Option Schema :=
  match api.definitions.get? name with
  | some definition => some definition
  | none => if site.isStub then none else some (bare site)

def plainBody (dialect : Dialect) (body : Schema) : Fields :=
  decorate dialect body (plainContent dialect body)

/-- The positions still to be visited, and the names met so far under their sanitized forms. -/
structure Agenda where
  pending : List Position
  names : Table String String := []

/-- A visit of a position: the name it begins, if that name is new, with the schema whose content
is rendered as its definition. -/
structure Visit where
  position : Position
  begun : Option (String × Schema) := none

/-- One visit of the walk. -/
inductive WalkStep (dialect : Dialect) (api : Api) : Agenda → Visit → Agenda → Prop
  /-- A position without a name is rendered in place. -/
  | inline {schema : Schema} {rest : List Position} {names : Table String String} :
      WalkStep dialect api ⟨⟨none, schema⟩ :: rest, names⟩ ⟨⟨none, schema⟩, none⟩
        ⟨(parts dialect schema).map .ofSite ++ rest, names⟩
  /-- A name met before is referred to. -/
  | known {name : String} {schema : Schema} {rest : List Position} {names : Table String String} :
      names.get? (sanitize name) = some name →
      WalkStep dialect api ⟨⟨some name, schema⟩ :: rest, names⟩ ⟨⟨some name, schema⟩, none⟩
        ⟨rest, names⟩
  /-- A new name is reserved, and its definition is rendered next. -/
  | fresh {name : String} {schema body : Schema} {rest : List Position}
      {names : Table String String} :
      names.get? (sanitize name) = none → body? api name schema = some body →
      WalkStep dialect api ⟨⟨some name, schema⟩ :: rest, names⟩
        ⟨⟨some name, schema⟩, some (name, body)⟩
        ⟨(parts dialect body).map .ofSite ++ rest, names.insert (sanitize name) name⟩

/-- Why the walk cannot go on at the first position of an agenda. -/
def Agenda.failure? (api : Api) (agenda : Agenda) : Option ExportError :=
  match agenda.pending with
  | ⟨some name, schema⟩ :: _ =>
    match agenda.names.get? (sanitize name) with
    | some owner => if owner = name then none else some (.nameCollision (sanitize name) owner name)
    | none => if (body? api name schema).isNone then some (.missingDefinition name) else none
  | _ => none

/-- The names that visits begin, with the schemas they are defined by. -/
def begun (visits : List Visit) : List (String × Schema) := visits.filterMap Visit.begun

/-- The definitions that visits leave behind. -/
def defined (dialect : Dialect) (visits : List Visit) : Fields :=
  (begun visits).map fun entry => (sanitize entry.1, object (plainBody dialect entry.2))

variable {dialect : Dialect} {api : Api} {agenda next : Agenda} {visits : List Visit} {one : Visit}

theorem WalkStep.deterministic : Deterministic (WalkStep dialect api) := by
  intro agenda one another next other left right
  cases left with
  | inline => cases right; exact ⟨rfl, rfl⟩
  | known met =>
    cases right with
    | known => exact ⟨rfl, rfl⟩
    | fresh free => simp [met] at free
  | fresh free here =>
    cases right with
    | known met => simp [met] at free
    | fresh _ there =>
      obtain rfl := Option.some.inj (here.symm.trans there)
      exact ⟨rfl, rfl⟩

/-- At every agenda that is not empty the walk goes on or fails, and not both. -/
theorem Agenda.failure?_eq_none_iff : agenda.failure? api = none ↔
    agenda.pending = [] ∨ ∃ one next, WalkStep dialect api agenda one next := by
  obtain ⟨pending, names⟩ := agenda
  constructor
  · intro fine
    match pending with
    | [] => exact .inl rfl
    | ⟨none, schema⟩ :: rest => exact .inr ⟨_, _, .inline⟩
    | ⟨some name, schema⟩ :: rest =>
      refine .inr ?_
      simp only [failure?] at fine
      split at fine
      · next owner met =>
        split at fine
        · next same => exact ⟨_, _, .known (same ▸ met)⟩
        · cases fine
      · next free =>
        cases found : body? api name schema with
        | none => simp [found] at fine
        | some body => exact ⟨_, _, .fresh free found⟩
  · rintro (empty | ⟨one, next, move⟩)
    · cases empty
      rfl
    · cases move with
      | inline => rfl
      | known met => simp [failure?, met]
      | fresh free found => simp [failure?, free, found]

/-- A step keeps the names met and adds those it begins. -/
theorem WalkStep.names_eq (move : WalkStep dialect api agenda one next) :
    next.names = agenda.names ++ (begun [one]).map fun entry => (sanitize entry.1, entry.1) := by
  cases move with
  | inline => simp [begun]
  | known => simp [begun]
  | fresh free => simp [begun, Table.insert_of_not_mem (Table.get?_eq_none_iff.mp free)]

theorem begun_append (first second : List Visit) :
    begun (first ++ second) = begun first ++ begun second := List.filterMap_append

theorem defined_append (first second : List Visit) :
    defined dialect (first ++ second) = defined dialect first ++ defined dialect second := by
  simp [defined, begun_append]

theorem names_of_run (run : Run (WalkStep dialect api) agenda visits next) :
    next.names = agenda.names ++ (begun visits).map fun entry => (sanitize entry.1, entry.1) := by
  induction run with
  | done => simp [begun]
  | @step _ _ _ one rest move _ ih =>
    rw [ih, move.names_eq, List.append_assoc, ← List.map_append, ← begun_append, List.singleton_append]

/-- What an agenda met under a sanitized form stays there. -/
theorem get?_of_run (run : Run (WalkStep dialect api) agenda visits next) {key name : String}
    (met : agenda.names.get? key = some name) : next.names.get? key = some name := by
  have kept : Preserves (WalkStep dialect api) fun agenda => agenda.names.get? key = some name := by
    intro before one after move met
    cases move with
    | inline => exact met
    | known => exact met
    | @fresh new schema body rest names free =>
      have other : sanitize new ≠ key := by
        rintro rfl
        exact absurd (met.symm.trans free) (by simp)
      rw [Table.get?_insert, if_neg other]
      exact met
  have still := run.keeps kept met
  exact still

/-- A name that a run begins was not met before the run. -/
theorem not_met_of_begun (run : Run (WalkStep dialect api) agenda visits next)
    {entry : String × Schema} (member : entry ∈ begun visits) :
    agenda.names.get? (sanitize entry.1) = none := by
  induction run with
  | done => cases member
  | @step source middle target one rest move tail ih =>
    rw [← List.singleton_append, begun_append] at member
    rcases List.mem_append.mp member with here | later
    · cases move with
      | inline => cases here
      | known => cases here
      | fresh free =>
        obtain rfl := List.mem_singleton.mp here
        exact free
    · cases met : source.names.get? (sanitize entry.1) with
      | none => rfl
      | some owner =>
        have still := get?_of_run (.single move) met
        rw [ih later] at still
        cases still

/-- A name that a run begins is met behind the run. -/
theorem met_of_begun (run : Run (WalkStep dialect api) agenda visits next)
    {entry : String × Schema} (member : entry ∈ begun visits) :
    next.names.get? (sanitize entry.1) = some entry.1 := by
  induction run with
  | done => cases member
  | @step source middle target one rest move tail ih =>
    rw [← List.singleton_append, begun_append] at member
    rcases List.mem_append.mp member with here | later
    · cases move with
      | inline => cases here
      | known => cases here
      | fresh free =>
        obtain rfl := List.mem_singleton.mp here
        exact get?_of_run tail (by simp [Table.get?_insert])
    · exact ih later

/-- No two names that a run begins have one sanitized form, so none is begun twice. -/
theorem nodup_begun (run : Run (WalkStep dialect api) agenda visits next) :
    ((begun visits).map fun entry => sanitize entry.1).Nodup := by
  induction run with
  | done => simp [begun]
  | @step source middle target one rest move tail ih =>
    rw [← List.singleton_append, begun_append, List.map_append]
    refine List.nodup_append.mpr ⟨?_, ih, ?_⟩
    · cases move with
      | inline => simp [begun]
      | known => simp [begun]
      | fresh => simp [begun]
    · intro key first other second same
      obtain ⟨early, earlyMember, rfl⟩ := List.mem_map.mp first
      obtain ⟨late, lateMember, rfl⟩ := List.mem_map.mp second
      have met := met_of_begun (.single move) earlyMember
      rw [same, not_met_of_begun tail lateMember] at met
      cases met

/-- The schema whose content is rendered at a visit: the body that the visit begins, or the schema
of a position without a name. -/
def Visit.content? (visit : Visit) : Option Schema :=
  match visit.begun, visit.position.name? with
  | some (_, body), _ => some body
  | none, none => some visit.position.schema
  | none, some _ => none

/-- A step visits the first position and puts the parts of what it renders in front of the rest. -/
theorem WalkStep.pending_eq (move : WalkStep dialect api agenda one next) :
    ∃ rest, agenda.pending = one.position :: rest ∧
      next.pending = (one.content?.elim [] (parts dialect)).map .ofSite ++ rest := by
  cases move with
  | inline => exact ⟨_, rfl, rfl⟩
  | known => exact ⟨_, rfl, rfl⟩
  | fresh => exact ⟨_, rfl, rfl⟩

/-- A run to an empty agenda visits whatever was pending. -/
theorem visited_of_pending (run : Run (WalkStep dialect api) agenda visits next)
    (empty : next.pending = []) {position : Position} (pending : position ∈ agenda.pending) :
    ∃ visit ∈ visits, visit.position = position := by
  induction run with
  | done => simp [empty] at pending
  | step move _ ih =>
    obtain ⟨rest, split, behind⟩ := move.pending_eq
    rw [split] at pending
    rcases List.mem_cons.mp pending with rfl | later
    · exact ⟨_, List.mem_cons_self, rfl⟩
    · obtain ⟨visit, member, here⟩ := ih empty (behind ▸ List.mem_append_right _ later)
      exact ⟨visit, List.mem_cons_of_mem _ member, here⟩

/-- A run to an empty agenda visits the parts of whatever it renders. -/
theorem visited_of_content (run : Run (WalkStep dialect api) agenda visits next)
    (empty : next.pending = []) {visit : Visit} (member : visit ∈ visits) {body part : Schema}
    (rendered : visit.content? = some body) (inside : part ∈ parts dialect body) :
    ∃ other ∈ visits, other.position = .ofSite part := by
  induction run with
  | done => cases member
  | step move tail ih =>
    rcases List.mem_cons.mp member with rfl | later
    · obtain ⟨rest, -, behind⟩ := move.pending_eq
      rw [rendered, Option.elim_some] at behind
      have pending := List.mem_append_left rest (List.mem_map_of_mem (f := Position.ofSite) inside)
      obtain ⟨other, visited, here⟩ := visited_of_pending tail empty (behind ▸ pending)
      exact ⟨other, List.mem_cons_of_mem _ visited, here⟩
    · obtain ⟨other, visited, here⟩ := ih empty later
      exact ⟨other, List.mem_cons_of_mem _ visited, here⟩

/-- Behind a visit of a named position the name is met. -/
theorem WalkStep.met (move : WalkStep dialect api agenda one next) {name : String}
    (named : one.position.name? = some name) : next.names.get? (sanitize name) = some name := by
  cases move with
  | inline => cases named
  | known met => cases named; exact met
  | fresh => cases named; simp [Table.get?_insert]

theorem met_of_visited (run : Run (WalkStep dialect api) agenda visits next) {visit : Visit}
    (member : visit ∈ visits) {name : String} (named : visit.position.name? = some name) :
    next.names.get? (sanitize name) = some name := by
  induction run with
  | done => cases member
  | step move tail ih =>
    rcases List.mem_cons.mp member with rfl | later
    · exact get?_of_run tail (move.met named)
    · exact ih later

/-- What a run begins is the name of a position that it visits. -/
theorem visited_of_begun (run : Run (WalkStep dialect api) agenda visits next)
    {entry : String × Schema} (member : entry ∈ begun visits) :
    ∃ visit ∈ visits, visit.position.name? = some entry.1 := by
  induction run with
  | done => cases member
  | @step _ _ _ one rest move _ ih =>
    rw [← List.singleton_append, begun_append] at member
    rcases List.mem_append.mp member with here | later
    · refine ⟨one, List.mem_cons_self, ?_⟩
      cases move with
      | inline => cases here
      | known => cases here
      | fresh =>
        obtain rfl := List.mem_singleton.mp here
        rfl
    · obtain ⟨visit, visited, named⟩ := ih later
      exact ⟨visit, List.mem_cons_of_mem _ visited, named⟩

/-- What a run begins is defined by the body of a schema that it visits. -/
theorem body_of_begun (run : Run (WalkStep dialect api) agenda visits next)
    {entry : String × Schema} (member : entry ∈ begun visits) :
    ∃ site, body? api entry.1 site = some entry.2 := by
  induction run with
  | done => cases member
  | @step _ _ _ one rest move _ ih =>
    rw [← List.singleton_append, begun_append] at member
    rcases List.mem_append.mp member with here | later
    · cases move with
      | inline => cases here
      | known => cases here
      | fresh _ found =>
        obtain rfl := List.mem_singleton.mp here
        exact ⟨_, found⟩
    · exact ih later

/-- No name is begun twice. -/
theorem nodup_keys_begun (run : Run (WalkStep dialect api) agenda visits next) :
    (Table.keys (begun visits)).Nodup := by
  have apart : ((Table.keys (begun visits)).map sanitize).Nodup := by
    rw [Table.keys, List.map_map]
    exact nodup_begun run
  exact List.Pairwise.of_map sanitize (fun _ _ other same => other (congrArg sanitize same)) apart

end ApiDoc.Export
