import ApiDoc.Generator
import ApiDoc.Proofs.Tables

/-! # Loading manifests

The catalog of a generator holds one entity for each name, and a later one takes the place of an earlier
one without a word. What keeps a manifest from losing entities so is the check behind its reading: it goes
through the names with those that it has seen, and stops at the first one among them
(`firstRepeated?_eq_some_iff`). A manifest that passes has distinct names, and then every entity is added
behind the ones before it (`registerAll_of_nodup`). So a manifest is refused exactly if two entities have
one name, and otherwise none of them is lost (`manifests_load`).
-/

namespace ApiDoc

/-- The first name of a list that occurred before it. -/
def RepeatsFirst (names : List String) (name : String) : Prop :=
  ∃ early late, names = early ++ name :: late ∧ early.Nodup ∧ name ∈ early

namespace Manifest

variable {seen names : List String} {name : String}

theorem firstRepeated?_append {early : List String} (late : List String) (distinct : early.Nodup)
    (new : ∀ other ∈ early, other ∉ seen) (repeated : name ∈ early ∨ name ∈ seen) :
    firstRepeated? seen (early ++ name :: late) = some name := by
  induction early generalizing seen with
  | nil =>
    rw [List.nil_append, firstRepeated?, if_pos (repeated.resolve_left List.not_mem_nil)]
  | cons other early ih =>
    rw [List.forall_mem_cons] at new
    rw [List.nodup_cons] at distinct
    rw [List.cons_append, firstRepeated?, if_neg new.1]
    refine ih distinct.2 (fun later member => ?_) ?_
    · rw [List.mem_cons, not_or]
      exact ⟨fun same => distinct.1 (same ▸ member), new.2 later member⟩
    · rw [List.mem_cons, or_assoc] at repeated
      rw [List.mem_cons]
      tauto

/-- With some names seen, the loop stops at the first name that was seen or occurred before. -/
theorem firstRepeated?_eq_some_iff : firstRepeated? seen names = some name ↔
    ∃ early late, names = early ++ name :: late ∧ early.Nodup ∧ (∀ other ∈ early, other ∉ seen) ∧
      (name ∈ early ∨ name ∈ seen) := by
  constructor
  · intro found
    induction names generalizing seen with
    | nil => cases found
    | cons other names ih =>
      rw [firstRepeated?] at found
      split at found
      · next here =>
        cases found
        exact ⟨[], names, rfl, List.nodup_nil, by simp, .inr here⟩
      · next new =>
        obtain ⟨early, late, rfl, distinct, others, repeated⟩ := ih found
        simp only [List.mem_cons, not_or] at others repeated
        refine ⟨other :: early, late, rfl, ?_, ?_, ?_⟩
        · exact List.nodup_cons.mpr ⟨fun member => (others other member).1 rfl, distinct⟩
        · exact List.forall_mem_cons.mpr ⟨new, fun later member => (others later member).2⟩
        · rw [List.mem_cons]
          tauto
  · rintro ⟨early, late, rfl, distinct, new, repeated⟩
    exact firstRepeated?_append late distinct new repeated

theorem firstRepeated?_eq_none_iff : firstRepeated? seen names = none ↔
    names.Nodup ∧ ∀ name ∈ names, name ∉ seen := by
  induction names generalizing seen with
  | nil => simp [firstRepeated?]
  | cons name names ih =>
    rw [firstRepeated?]
    split
    · next here => simp [here]
    · next new =>
      rw [ih, List.nodup_cons, List.forall_mem_cons]
      simp only [List.mem_cons, not_or]
      constructor
      · rintro ⟨distinct, others⟩
        have alone : name ∉ names := fun member => (others name member).1 rfl
        exact ⟨⟨alone, distinct⟩, new, fun other member => (others other member).2⟩
      · rintro ⟨⟨alone, distinct⟩, -, others⟩
        exact ⟨distinct, fun other member => ⟨fun same => alone (same ▸ member), others other member⟩⟩

end Manifest

namespace Catalog

variable {catalog : Catalog} {entities : List Entity}

/-- Entities with new names, none of them twice, are added behind those that are there. -/
theorem registerAll_eq_append (distinct : (entities.map Entity.name).Nodup)
    (new : ∀ entity ∈ entities, entity.name ∉ Table.keys catalog) :
    catalog.registerAll entities = catalog ++ entities.map fun entity => (entity.name, entity) := by
  induction entities generalizing catalog with
  | nil => exact (List.append_nil catalog).symm
  | cons entity entities ih =>
    rw [List.map_cons, List.nodup_cons] at distinct
    rw [List.forall_mem_cons] at new
    have added : catalog.register entity = catalog ++ [(entity.name, entity)] :=
      Table.insert_of_not_mem new.1 entity
    have later : ∀ other ∈ entities, other.name ∉ Table.keys (catalog.register entity) := by
      intro other member
      rw [register, Table.mem_keys_insert, not_or]
      exact ⟨fun same => distinct.1 (same ▸ List.mem_map_of_mem member), new.2 other member⟩
    calc
      catalog.registerAll (entity :: entities) = (catalog.register entity).registerAll entities := rfl
      _ = catalog.register entity ++ entities.map fun entity => (entity.name, entity) := ih distinct.2 later
      _ = _ := by rw [added, List.append_assoc, List.map_cons, List.singleton_append]

theorem registerAll_of_nodup (distinct : (entities.map Entity.name).Nodup) :
    registerAll [] entities = entities.map fun entity => (entity.name, entity) :=
  registerAll_eq_append distinct fun _ _ => List.not_mem_nil

end Catalog

/-- What a manifest that could be read is loaded as. -/
structure Loads (manifest : Manifest) (result : Except ManifestError Manifest) : Prop where
  /-- It is refused exactly if two entities have one name. -/
  refused : (∃ name, result = .error (.duplicateEntity name)) ↔ ¬(manifest.entities.map Entity.name).Nodup
  /-- The name told is that of the first entity whose name occurred before. -/
  named : ∀ name, result = .error (.duplicateEntity name) ↔
    RepeatsFirst (manifest.entities.map Entity.name) name
  /-- Otherwise it is loaded as it is. A new generator takes over all its entities in their order, and
  leaves it the routes. -/
  loaded : (manifest.entities.map Entity.name).Nodup → result = .ok manifest ∧
    ∀ config : Config, Generator.registerEntities { config } manifest =
      ({ config, catalog := manifest.entities.map fun entity => (entity.name, entity) },
        { routes := manifest.routes, entities := [] })

/-- What a text is loaded as, by whether it can be read as a manifest. -/
inductive LoadedFrom (error : ManifestError) (result : Except ManifestError Manifest) :
    Option Manifest → Prop
  | unreadable : result = .error error → LoadedFrom error result none
  | readable {manifest : Manifest} : Loads manifest result → LoadedFrom error result (some manifest)

namespace Manifest

theorem validate_eq_ok (manifest : Manifest) (distinct : (manifest.entities.map Entity.name).Nodup) :
    manifest.validate = .ok manifest := by
  have none_repeated : firstRepeated? [] (manifest.entities.map Entity.name) = none :=
    firstRepeated?_eq_none_iff.mpr ⟨distinct, fun _ _ => List.not_mem_nil⟩
  rw [validate, none_repeated]

theorem validate_eq_error_iff (manifest : Manifest) (name : String) :
    manifest.validate = .error (.duplicateEntity name) ↔
      RepeatsFirst (manifest.entities.map Entity.name) name := by
  have repeats : RepeatsFirst (manifest.entities.map Entity.name) name ↔
      firstRepeated? [] (manifest.entities.map Entity.name) = some name := by
    rw [firstRepeated?_eq_some_iff]
    simp [RepeatsFirst]
  rw [repeats, validate]
  cases firstRepeated? [] (manifest.entities.map Entity.name) <;> simp

theorem registerEntities_of_nodup (manifest : Manifest) (distinct : (manifest.entities.map Entity.name).Nodup)
    (config : Config) : Generator.registerEntities { config } manifest =
      ({ config, catalog := manifest.entities.map fun entity => (entity.name, entity) },
        { routes := manifest.routes, entities := [] }) := by
  unfold Generator.registerEntities
  rw [Catalog.registerAll_of_nodup distinct]

theorem validate_loads (manifest : Manifest) : Loads manifest manifest.validate where
  refused := by
    constructor
    · rintro ⟨name, failed⟩ distinct
      rw [manifest.validate_eq_ok distinct] at failed
      cases failed
    · intro repeated
      cases found : firstRepeated? [] (manifest.entities.map Entity.name) with
      | none => exact absurd (firstRepeated?_eq_none_iff.mp found).1 repeated
      | some name => exact ⟨name, by rw [validate, found]⟩
  named := manifest.validate_eq_error_iff
  loaded distinct := ⟨manifest.validate_eq_ok distinct, manifest.registerEntities_of_nodup distinct⟩

/-- Loading a manifest ends with the check of what could be read. -/
theorem load_loadedFrom (read? : String → Option Manifest) (error : ManifestError) (text : String) :
    LoadedFrom error (load read? error text) (read? text) := by
  unfold load
  cases read? text with
  | none => exact .unreadable rfl
  | some manifest => exact .readable manifest.validate_loads

/-- Every manifest that is loaded has entities with distinct names. -/
theorem nodup_of_loadedFrom {error : ManifestError} {read? : Option Manifest} {manifest : Manifest}
    (loaded : LoadedFrom error (.ok manifest) read?) : (manifest.entities.map Entity.name).Nodup := by
  cases loaded with
  | unreadable failed => cases failed
  | @readable read loads =>
    have distinct : (read.entities.map Entity.name).Nodup := by
      by_contra repeated
      obtain ⟨name, failed⟩ := loads.refused.mpr repeated
      cases failed
    cases (loads.loaded distinct).1
    exact distinct

end Manifest

/-- However texts are read in the two formats: one that reads as a manifest is refused exactly if two of its
entities have one name, and the name told is the first one that occurred before. All others are loaded as they
are read, and a new generator takes over every entity that they have, in their order, and leaves them their
routes. -/
theorem manifests_load (readers : Manifest.Readers) (text : String) :
    LoadedFrom .json (readers.fromJson text) (readers.json? text) ∧
      LoadedFrom .yaml (readers.fromYaml text) (readers.yaml? text) := by
  constructor
  · exact Manifest.load_loadedFrom readers.json? .json text
  · exact Manifest.load_loadedFrom readers.yaml? .yaml text

def repeatedText : String :=
  "\x7b\"entities\":[\x7b\"name\":\"A\"\x7d,\x7b\"name\":\"B\"\x7d,\x7b\"name\":\"A\"\x7d]\x7d"

theorem manifests_load_repeated : Manifest.ofJson repeatedText = .error (.duplicateEntity "A") := by
  have reads : Manifest.readers.json? repeatedText =
      some { entities := [{ name := "A" }, { name := "B" }, { name := "A" }] } := by cbv
  have loads := (manifests_load Manifest.readers repeatedText).1
  rw [reads] at loads
  cases loads with
  | readable loads => exact (loads.named "A").mpr ⟨["A", "B"], [], rfl, by decide, by decide⟩

end ApiDoc
