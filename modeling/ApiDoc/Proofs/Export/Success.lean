import ApiDoc.Proofs.Build.Names
import ApiDoc.Proofs.Export.References

/-! # When an interface has a document

If every canonical name of an interface leads to a definition, two different names with one
sanitized form are the only obstacle to a document, in every version (`document_of_known`). Built
interfaces are of this kind, so whether they export does not depend on the version
(`buildApi_exports`).
-/

namespace ApiDoc

/-- No two keys of the definitions have one sanitized form. -/
def Api.Separate (api : Api) : Prop :=
  ∀ first ∈ Table.keys api.definitions, ∀ second ∈ Table.keys api.definitions,
    Export.sanitize first = Export.sanitize second → first = second

namespace Export

variable {dialect : Dialect} {api : Api} {visits : List Visit} {next : Agenda} {name : String}

/-- The names of positions are those of schemas or of definitions. -/
theorem known_of_named {position : Position} (named : position.Named api)
    (names : position.schema.NamesIn (· ∈ Table.keys api.definitions))
    (here : position.name? = some name) : name ∈ Table.keys api.definitions := by
  cases named with
  | site site => exact names.root name here
  | entry entry listed =>
    cases here
    exact List.mem_map_of_mem listed

theorem known_of_visited (known : api.Known)
    (run : Run (WalkStep dialect api) (.start api) visits next) {visit : Visit}
    (member : visit ∈ visits) (named : visit.position.name? = some name) :
    name ∈ Table.keys api.definitions := by
  obtain ⟨names, source⟩ := carried_of_visited known (by simp [bare]) run visit member
  exact known_of_named source names named

/-- A name that was met has the sanitized form it stands under, and a definition. -/
theorem owner_of_run (known : api.Known)
    (run : Run (WalkStep dialect api) (.start api) visits next) {key owner : String}
    (met : next.names.get? key = some owner) :
    sanitize owner = key ∧ owner ∈ Table.keys api.definitions := by
  have member := Table.mem_of_get? met
  rw [names_of_run run, Agenda.start, List.nil_append] at member
  obtain ⟨entry, begun, same⟩ := List.mem_map.mp member
  cases same
  obtain ⟨visit, visited, named⟩ := visited_of_begun run begun
  exact ⟨rfl, known_of_visited known run visited named⟩

/-- The walk can fail at a name only where another name stands under its sanitized form. -/
theorem collision_of_failure (known : api.Known)
    (run : Run (WalkStep dialect api) (.start api) visits next) {error : ExportError}
    (failed : next.failure? api = some error) :
    ∃ first ∈ Table.keys api.definitions, ∃ second ∈ Table.keys api.definitions,
      first ≠ second ∧ sanitize first = sanitize second ∧
        error = .nameCollision (sanitize second) first second := by
  have carries := carries_of_run known (by simp [bare]) run
  unfold Agenda.failure? at failed
  split at failed
  · next name schema rest pending =>
    obtain ⟨names, source⟩ := carries ⟨some name, schema⟩ (by simp [pending])
    have listed := known_of_named source names rfl
    split at failed
    · next owner met =>
      obtain ⟨same, owned⟩ := owner_of_run known run met
      split at failed
      · cases failed
      · next apart =>
        cases failed
        exact ⟨owner, owned, name, listed, apart, same, rfl⟩
    · have found := Option.isSome_iff_exists.mp (Table.contains_iff_mem_keys.mpr listed)
      obtain ⟨definition, found⟩ := found
      simp [body?, found] at failed
  · cases failed

/-- Where every canonical name leads to a definition, a document is missing only because of a
collision. -/
theorem collision_of_error (known : api.Known) {error : ExportError}
    (failed : document dialect api = .error error) :
    ∃ first ∈ Table.keys api.definitions, ∃ second ∈ Table.keys api.definitions,
      first ≠ second ∧ sanitize first = sanitize second ∧
        error = .nameCollision (sanitize second) first second := by
  obtain ⟨visits, last, run, ends⟩ := walk_trail dialect api
  rw [document_eq_error failed] at ends
  exact collision_of_failure known run ends

/-- Behind a document stand definitions with keys of different sanitized forms. -/
theorem separate_of_ok {text : Json} (exported : document dialect api = .ok text) : api.Separate := by
  obtain ⟨visits, last, run, ends⟩ := walk_trail dialect api
  obtain ⟨_, after, ran, -⟩ := document_eq_ok exported
  rw [ran] at ends
  intro first firstListed second secondListed same
  have there := get?_of_met run ends.1 (.inl firstListed)
  rw [same, get?_of_met run ends.1 (.inl secondListed)] at there
  exact (Option.some.inj there).symm

/-- Where every canonical name leads to a definition, the keys of the definitions decide whether
there is a document. -/
theorem document_of_known (known : api.Known) (dialect : Dialect) :
    (∃ text, document dialect api = .ok text) ↔ api.Separate := by
  constructor
  · rintro ⟨text, exported⟩
    exact separate_of_ok exported
  · intro separate
    cases exported : document dialect api with
    | ok text => exact ⟨text, rfl⟩
    | error error =>
      obtain ⟨first, listed, second, listedToo, apart, same, -⟩ := collision_of_error known exported
      exact absurd (separate first listed second listedToo same) apart

/-- Exporting a built interface never misses a definition. It fails exactly if two keys of the
definitions have one sanitized form, and then reports two such keys; otherwise it succeeds. So
whether it succeeds does not depend on the version. -/
theorem buildApi_exports (config : Config) (catalog : Catalog) (routes : List RouteDescriptor)
    (dialect : Dialect) :
    let api := buildApi config { catalog } routes
    (∀ name, document dialect api ≠ .error (.missingDefinition name)) ∧
      ((∃ sanitized first second,
        document dialect api = .error (.nameCollision sanitized first second)) ↔ ¬api.Separate) ∧
      (∀ sanitized first second,
        document dialect api = .error (.nameCollision sanitized first second) →
          first ≠ second ∧ first ∈ Table.keys api.definitions ∧
            second ∈ Table.keys api.definitions ∧ sanitize first = sanitized ∧
              sanitize second = sanitized) ∧
      ((∃ text, document dialect api = .ok text) ↔ api.Separate) ∧
      ∀ other, (∃ text, document dialect api = .ok text) ↔ ∃ text, document other api = .ok text := by
  intro api
  have known : api.Known := buildApi_known config catalog routes
  refine ⟨?_, ?_, ?_, document_of_known known dialect, ?_⟩
  · intro name missing
    obtain ⟨_, _, _, _, _, _, impossible⟩ := collision_of_error known missing
    cases impossible
  · rw [← document_of_known known dialect]
    constructor
    · rintro ⟨sanitized, first, second, collided⟩ ⟨text, exported⟩
      rw [collided] at exported
      cases exported
    · intro refused
      cases exported : document dialect api with
      | ok text => exact absurd ⟨text, exported⟩ refused
      | error error =>
        obtain ⟨first, _, second, _, _, _, rfl⟩ := collision_of_error known exported
        exact ⟨_, first, second, rfl⟩
  · intro sanitized first second collided
    obtain ⟨one, listed, another, listedToo, apart, same, reported⟩ :=
      collision_of_error known collided
    cases reported
    exact ⟨apart, listed, listedToo, same, rfl⟩
  · intro other
    rw [document_of_known known dialect, document_of_known known other]

end Export

end ApiDoc
