import ApiDoc.Proofs.Schema.WellFormed
import ApiDoc.Proofs.Tables
import ApiDoc.Proofs.Type.Merging

/-! # What fields make required

The fields of an entity are written in turn, those of a structure that is spliced in where its merge
field stands. The last field under a key decides what the property is. It also decides whether the
property is required, unless a merge field brings it: what is spliced in adds to what is required and
takes nothing back (`Exposures.Keeps`). So a field under a condition may be required, if it comes
through a merge field behind a required one (`required_outlasts_condition`); where no merge field does so,
the last field decides (`session_exposes`).
-/

namespace ApiDoc

def Field.Requires (field : Field) : Prop := field.documentation.required = true ∧ field.condition = none

instance (field : Field) : Decidable field.Requires := inferInstanceAs (Decidable (_ ∧ _))

/-- Fields that are written in turn: those of a structure, with those of the structures that are spliced
in where the merge fields stand. -/
inductive Exposures where
  | nil
  | own (field : Field) (rest : Exposures)
  | spliced (parts rest : Exposures)

namespace Exposures

variable {exposures parts rest : Exposures} {field : Field} {key : String}

/-- All fields in the order in which they are written. -/
def writes : Exposures → List Field
  | nil => []
  | own field rest => field :: rest.writes
  | spliced parts rest => parts.writes ++ rest.writes

/-- The last field that is written under a key. -/
def last? (exposures : Exposures) (key : String) : Option Field :=
  exposures.writes.reverse.find? (·.key == key)

theorem last?_own (field : Field) (rest : Exposures) (key : String) :
    (own field rest).last? key =
      (rest.last? key).or (if field.key = key then some field else none) := by
  unfold last?
  rw [writes, List.reverse_cons, List.find?_append]
  by_cases here : field.key = key <;> simp [here]

theorem last?_spliced (parts rest : Exposures) (key : String) :
    (spliced parts rest).last? key = (rest.last? key).or (parts.last? key) := by
  unfold last?
  rw [writes, List.reverse_append, List.find?_append]

theorem mem_writes_of_last? (last : exposures.last? key = some field) :
    field ∈ exposures.writes ∧ field.key = key :=
  ⟨List.mem_reverse.mp (List.mem_of_find?_eq_some last), by simpa using List.find?_some last⟩

theorem last?_eq_none_iff :
    exposures.last? key = none ↔ ∀ field ∈ exposures.writes, field.key ≠ key := by
  unfold last?
  simp

/-- A field of the structure itself under the key does not require it. -/
def Withdraws (key : String) : Exposures → Prop
  | nil => False
  | own field rest => (field.key = key ∧ ¬field.Requires) ∨ rest.Withdraws key
  | spliced _ rest => rest.Withdraws key

/-- Some field requires the key, and no later field of the same structure takes that back. -/
def Keeps (key : String) : Exposures → Prop
  | nil => False
  | own field rest => (field.key = key ∧ field.Requires ∧ ¬rest.Withdraws key) ∨ rest.Keeps key
  | spliced parts rest => (parts.Keeps key ∧ ¬rest.Withdraws key) ∨ rest.Keeps key

/-- A merge field brings a field under the key that does not require it. -/
def Relaxes (key : String) : Exposures → Prop
  | nil => False
  | own _ rest => rest.Relaxes key
  | spliced parts rest =>
    (∃ field ∈ parts.writes, field.key = key ∧ ¬field.Requires) ∨ rest.Relaxes key

/-- Behind a field that requires the key a merge field brings one that does not. -/
def Demotes (key : String) : Exposures → Prop
  | nil => False
  | own field rest => (field.key = key ∧ field.Requires ∧ rest.Relaxes key) ∨ rest.Demotes key
  | spliced parts rest =>
    ((∃ field ∈ parts.writes, field.key = key ∧ field.Requires) ∧ rest.Relaxes key) ∨
      parts.Demotes key ∨ rest.Demotes key

theorem Withdraws.mem_writes (withdraws : exposures.Withdraws key) :
    ∃ field ∈ exposures.writes, field.key = key ∧ ¬field.Requires := by
  induction exposures with
  | nil => exact withdraws.elim
  | own field rest ih =>
    rcases withdraws with here | later
    · exact ⟨field, List.mem_cons_self, here⟩
    · obtain ⟨other, written, here⟩ := ih later
      exact ⟨other, List.mem_cons_of_mem _ written, here⟩
  | spliced parts rest _ ih =>
    obtain ⟨other, written, here⟩ := ih withdraws
    exact ⟨other, List.mem_append_right _ written, here⟩

theorem Keeps.mem_writes (keeps : exposures.Keeps key) :
    ∃ field ∈ exposures.writes, field.key = key ∧ field.Requires := by
  induction exposures with
  | nil => exact keeps.elim
  | own field rest ih =>
    rcases keeps with ⟨here, requires, -⟩ | later
    · exact ⟨field, List.mem_cons_self, here, requires⟩
    · obtain ⟨other, written, here⟩ := ih later
      exact ⟨other, List.mem_cons_of_mem _ written, here⟩
  | spliced parts rest inParts inRest =>
    rcases keeps with ⟨inside, -⟩ | later
    · obtain ⟨other, written, here⟩ := inParts inside
      exact ⟨other, List.mem_append_left _ written, here⟩
    · obtain ⟨other, written, here⟩ := inRest later
      exact ⟨other, List.mem_append_right _ written, here⟩

/-- A field that does not require its key is one of the structure itself, or a merge field brings it. -/
theorem withdraws_or_relaxes (written : field ∈ exposures.writes) (optional : ¬field.Requires) :
    exposures.Withdraws field.key ∨ exposures.Relaxes field.key := by
  induction exposures with
  | nil => cases written
  | own first rest ih =>
    rcases List.mem_cons.mp written with rfl | later
    · exact .inl (.inl ⟨rfl, optional⟩)
    · exact (ih later).imp .inr id
  | spliced parts rest _ ih =>
    rcases List.mem_append.mp written with inside | later
    · exact .inr (.inl ⟨field, inside, rfl, optional⟩)
    · exact (ih later).imp id .inr

/-- Where the last field under a key does not require it and none of the structure itself takes it back,
a merge field brings one that does not require it. -/
theorem relaxes_of_last? (last : exposures.last? key = some field) (optional : ¬field.Requires)
    (kept : ¬exposures.Withdraws key) : exposures.Relaxes key := by
  obtain ⟨written, rfl⟩ := mem_writes_of_last? last
  exact (withdraws_or_relaxes written optional).resolve_left kept

/-- What the last field under a key requires is kept. -/
theorem keeps_of_last? (last : exposures.last? key = some field) (requires : field.Requires) :
    exposures.Keeps key := by
  have untouched {rest : Exposures} (unwritten : rest.last? key = none) : ¬rest.Withdraws key := by
    intro withdraws
    obtain ⟨other, written, here, -⟩ := withdraws.mem_writes
    exact last?_eq_none_iff.mp unwritten other written here
  induction exposures with
  | nil => cases last
  | own first rest ih =>
    rw [last?_own] at last
    cases later : rest.last? key with
    | some other =>
      rw [later, Option.some_or] at last
      exact .inr (ih (later.trans last))
    | none =>
      rw [later, Option.none_or] at last
      split at last
      · next here =>
        cases last
        exact .inl ⟨here, requires, untouched later⟩
      · cases last
  | spliced parts rest inParts inRest =>
    rw [last?_spliced] at last
    cases later : rest.last? key with
    | some other =>
      rw [later, Option.some_or] at last
      exact .inr (inRest (later.trans last))
    | none =>
      rw [later, Option.none_or] at last
      exact .inl ⟨inParts last, untouched later⟩

/-- What the last field under a key does not require is not kept, unless a merge field brings such a
field behind one that requires the key. -/
theorem not_keeps_of_last? (last : exposures.last? key = some field) (optional : ¬field.Requires)
    (undemoted : ¬exposures.Demotes key) : ¬exposures.Keeps key := by
  induction exposures with
  | nil => cases last
  | own first rest ih =>
    simp only [Demotes, not_or] at undemoted
    rw [last?_own] at last
    cases later : rest.last? key with
    | some other =>
      rw [later, Option.some_or] at last
      have inRest := later.trans last
      rintro (⟨here, requires, kept⟩ | keeps)
      · exact undemoted.1 ⟨here, requires, relaxes_of_last? inRest optional kept⟩
      · exact ih inRest undemoted.2 keeps
    | none =>
      rw [later, Option.none_or] at last
      rintro (⟨here, requires, -⟩ | keeps)
      · rw [if_pos here] at last
        cases last
        exact optional requires
      · obtain ⟨other, written, here, -⟩ := keeps.mem_writes
        exact last?_eq_none_iff.mp later other written here
  | spliced parts rest inParts inRest =>
    simp only [Demotes, not_or] at undemoted
    obtain ⟨unrelaxed, inside, behind⟩ := undemoted
    rw [last?_spliced] at last
    cases later : rest.last? key with
    | some other =>
      rw [later, Option.some_or] at last
      have lastInRest := later.trans last
      rintro (⟨keeps, kept⟩ | keeps)
      · exact unrelaxed ⟨keeps.mem_writes, relaxes_of_last? lastInRest optional kept⟩
      · exact inRest lastInRest behind keeps
    | none =>
      rw [later, Option.none_or] at last
      rintro (⟨keeps, -⟩ | keeps)
      · exact inParts last inside keeps
      · obtain ⟨other, written, here, -⟩ := keeps.mem_writes
        exact last?_eq_none_iff.mp later other written here

/-- Where no merge field relaxes what was required, the last field under a key decides. -/
theorem keeps_iff_of_last? (last : exposures.last? key = some field)
    (undemoted : ¬exposures.Demotes key) : exposures.Keeps key ↔ field.Requires := by
  constructor
  · intro keeps
    by_contra optional
    exact not_keeps_of_last? last optional undemoted keeps
  · exact keeps_of_last? last

end Exposures

/-- No property of the schema stands twice, and none is required twice. -/
structure Schema.Tidy (schema : Schema) : Prop where
  properties : (Table.keys schema.properties).Nodup
  required : schema.required.Nodup

/-- The fields turn a schema into another one: under each key they have the last word about the property,
and whether it is required follows the fields too. -/
structure Exposures.Turn (exposures : Exposures) (target answer : Schema) : Prop where
  tidy : answer.Tidy
  required_iff : ∀ key, key ∈ answer.required ↔
    exposures.Keeps key ∨ key ∈ target.required ∧ ¬exposures.Withdraws key
  untouched : ∀ key, exposures.last? key = none →
    Table.get? answer.properties key = Table.get? target.properties key
  written : ∀ key field, exposures.last? key = some field →
    ∃ property, Table.get? answer.properties key = some property ∧
      (field.condition.isSome = true → property.nullable = true)

section
variable {target answer base : Schema} {field : Field} {key : String} {exposures parts rest : Exposures}

theorem Schema.tidy_of_plain {schema : Schema} (properties : schema.properties = [])
    (required : schema.required = []) : schema.Tidy :=
  ⟨by rw [properties]; exact List.nodup_nil, by rw [required]; exact List.nodup_nil⟩

theorem Field.addBase_properties (field : Field) (base target : Schema) : ∃ property,
    (field.addBase base target).properties = Table.insert target.properties field.key property ∧
      (field.condition.isSome = true → property.nullable = true) := by
  unfold addBase addProperty
  dsimp only
  split
  · exact ⟨_, rfl, fun _ => rfl⟩
  · next unconditional => exact ⟨_, rfl, fun conditional => absurd conditional unconditional⟩

theorem Field.addBase_required (field : Field) (base target : Schema) :
    (field.addBase base target).required =
      if field.Requires then target.required.add field.key else target.required.remove field.key := by
  unfold addBase addProperty
  cases condition : field.condition <;> simp [Requires, condition, Schema.addProperty]

theorem Schema.Tidy.addBase (tidy : target.Tidy) (field : Field) (base : Schema) :
    (field.addBase base target).Tidy := by
  obtain ⟨property, properties, -⟩ := field.addBase_properties base target
  refine ⟨?_, ?_⟩
  · rw [properties]
    exact Table.nodup_keys_insert tidy.properties _ _
  · rw [field.addBase_required]
    split
    · exact NameSet.nodup_add tidy.required _
    · exact tidy.required.erase _

theorem Schema.Tidy.mergeProperties (tidy : target.Tidy) (parts : Schema) :
    (target.mergeProperties parts).Tidy :=
  ⟨Table.nodup_keys_extend tidy.properties _, NameSet.nodup_addAll tidy.required _⟩

/-- A property is required behind the fields if one of its own requires it, or if it was before and it is
another property. -/
theorem Field.mem_addBase_required (tidy : target.Tidy) (field : Field) (base : Schema) (key : String) :
    key ∈ (field.addBase base target).required ↔
      if field.key = key then field.Requires else key ∈ target.required := by
  rw [field.addBase_required]
  by_cases requires : field.Requires
  · rw [if_pos requires, NameSet.mem_add]
    split
    · next here => simp [here, requires]
    · next apart => simp [Ne.symm apart]
  · rw [if_neg requires, NameSet.remove, tidy.required.mem_erase_iff]
    split
    · next here => simp [here, requires]
    · next apart => simp [Ne.symm apart]

theorem Exposures.Turn.nil (tidy : target.Tidy) : Exposures.nil.Turn target target where
  tidy := tidy
  required_iff key := by simp [Keeps, Withdraws]
  untouched key _ := rfl
  written key field last := by cases last

/-- A field of the structure itself is written before the rest. -/
theorem Exposures.Turn.own (tidy : target.Tidy) (turn : rest.Turn (field.addBase base target) answer) :
    (Exposures.own field rest).Turn target answer := by
  obtain ⟨property, properties, nullable⟩ := field.addBase_properties base target
  constructor
  case tidy => exact turn.tidy
  case required_iff =>
    intro key
    rw [turn.required_iff, field.mem_addBase_required tidy]
    simp only [Keeps, Withdraws]
    by_cases here : field.key = key
    · simp only [here, if_true, true_and]
      tauto
    · simp only [here, if_false, false_and, false_or]
  case untouched =>
    intro key unwritten
    rw [last?_own, Option.or_eq_none_iff] at unwritten
    obtain ⟨inRest, apart⟩ := unwritten
    rw [turn.untouched key inRest, properties, Table.get?_insert, if_neg]
    intro here
    simp [here] at apart
  case written =>
    intro key other last
    rw [last?_own] at last
    cases later : rest.last? key with
    | some found =>
      rw [later, Option.some_or] at last
      exact turn.written key other (later.trans last)
    | none =>
      rw [later, Option.none_or] at last
      split at last
      · next here =>
        cases last
        refine ⟨property, ?_, nullable⟩
        rw [turn.untouched key later, properties, Table.get?_insert, if_pos here]
      · cases last

/-- A structure that is spliced in is written before the rest. -/
theorem Exposures.Turn.spliced {start merged : Schema} (inParts : parts.Turn start merged)
    (properties : start.properties = []) (required : start.required = [])
    (turn : rest.Turn (target.mergeProperties merged) answer) :
    (Exposures.spliced parts rest).Turn target answer := by
  have found (key : String) : Table.get? (target.mergeProperties merged).properties key =
      (Table.get? merged.properties key).or (Table.get? target.properties key) :=
    Table.get?_extend inParts.tidy.properties _ key
  constructor
  case tidy => exact turn.tidy
  case required_iff =>
    intro key
    have merges : key ∈ (target.mergeProperties merged).required ↔
        key ∈ target.required ∨ key ∈ merged.required := NameSet.mem_addAll
    rw [turn.required_iff, merges, inParts.required_iff, required]
    simp only [Keeps, Withdraws, List.not_mem_nil, false_and, or_false]
    tauto
  case untouched =>
    intro key unwritten
    rw [last?_spliced, Option.or_eq_none_iff] at unwritten
    rw [turn.untouched key unwritten.1, found, inParts.untouched key unwritten.2, properties]
    rfl
  case written =>
    intro key field last
    rw [last?_spliced] at last
    cases later : rest.last? key with
    | some other =>
      rw [later, Option.some_or] at last
      exact turn.written key field (later.trans last)
    | none =>
      rw [later, Option.none_or] at last
      obtain ⟨property, inMerged, nullable⟩ := inParts.written key field last
      refine ⟨property, ?_, nullable⟩
      rw [turn.untouched key later, found, inMerged, Option.some_or]

end

/-- The fields of an entity, with those of the structures that its merge fields bring. An entity that is
complete before the owner brings its own fields, expanded in the same way; one that is still being walked
then brings nothing, and neither does a type that is no entity. -/
inductive Expands (catalog : Catalog) (final : Progress) : String → List Field → Exposures → Prop
  | nil {owner : String} : Expands catalog final owner [] .nil
  | own {owner : String} {field : Field} {fields : List Field} {rest : Exposures} :
      field.spliced? catalog = none → Expands catalog final owner fields rest →
      Expands catalog final owner (field :: fields) (.own field rest)
  | inline {owner : String} {field : Field} {fields nested : List Field} {start : Schema}
      {parts rest : Exposures} : field.spliced? catalog = some (.fields nested start) →
      Expands catalog final owner nested parts → Expands catalog final owner fields rest →
      Expands catalog final owner (field :: fields) (.spliced parts rest)
  | entity {owner target : String} {field : Field} {fields : List Field} {entity : Entity}
      {parts rest : Exposures} : field.spliced? catalog = some (.entity target) →
      catalog.get? target = some entity → final.Precedes target owner →
      Expands catalog final target entity.fields parts → Expands catalog final owner fields rest →
      Expands catalog final owner (field :: fields) (.spliced parts rest)
  | skipped {owner target : String} {field : Field} {fields : List Field} {rest : Exposures} :
      field.spliced? catalog = some (.entity target) → ¬final.Precedes target owner →
      Expands catalog final owner fields rest →
      Expands catalog final owner (field :: fields) (.spliced .nil rest)

variable {catalog : Catalog} {final progress next : Progress} {history : List VisitEvent} {task : Task}
  {answer : Schema} {name owner : String} {fields : List Field}

/-- There is one way to expand fields. -/
theorem Expands.unique {exposures other : Exposures} (first : Expands catalog final owner fields exposures)
    (second : Expands catalog final owner fields other) : exposures = other := by
  induction first generalizing other with
  | nil =>
    cases second
    rfl
  | own plain _ ih =>
    cases second with
    | own _ rest => rw [ih rest]
    | inline spliced | entity spliced | skipped spliced => simp [plain] at spliced
  | inline found _ _ inside ih =>
    cases second with
    | own plain => simp [found] at plain
    | inline spliced parts rest =>
      cases found.symm.trans spliced
      rw [inside parts, ih rest]
    | entity spliced | skipped spliced => simp [found] at spliced
  | entity found listed precedes _ _ inside ih =>
    cases second with
    | own plain => simp [found] at plain
    | inline spliced => simp [found] at spliced
    | entity spliced other _ parts rest =>
      cases found.symm.trans spliced
      cases listed.symm.trans other
      rw [inside parts, ih rest]
    | skipped spliced late =>
      cases found.symm.trans spliced
      exact absurd precedes late
  | skipped found late _ ih =>
    cases second with
    | own plain => simp [found] at plain
    | inline spliced => simp [found] at spliced
    | entity spliced _ precedes =>
      cases found.symm.trans spliced
      exact absurd precedes late
    | skipped spliced _ rest => rw [ih rest]

/-- The definition is what the expanded fields of the entity turn an empty object into. -/
def Exposed (catalog : Catalog) (final : Progress) (name : String) (definition : Schema) : Prop :=
  ∃ entity exposures, catalog.get? name = some entity ∧
    Expands catalog final name entity.fields exposures ∧ exposures.Turn (.namedObject name) definition

/-- A part of the walk of an entity: what is in progress before it is not complete before the entity, and
what is defined behind it is. -/
structure Inside (final : Progress) (owner : String) (progress next : Progress) : Prop where
  walking : ∀ outer, progress.state outer = .inProgress → ¬final.Precedes outer owner
  known : ∀ target parts, (target, parts) ∈ next.definitions →
    final.Precedes target owner ∧ final.definition? target = some parts

/-- Tasks that add fields turn a schema into their answer by the expanded fields. A field does so in front
of any others. -/
def Task.Exposes (catalog : Catalog) (final : Progress) (owner : String) : Task → Schema → Prop
  | .fields listed target, answer => target.Tidy →
    ∃ exposures, Expands catalog final owner listed exposures ∧ exposures.Turn target answer
  | .field first target, answer => target.Tidy → answer.Tidy ∧
    ∀ others rest last, Expands catalog final owner others rest → rest.Turn answer last →
      ∃ exposures, Expands catalog final owner (first :: others) exposures ∧ exposures.Turn target last
  | _, _ => True

theorem Primitive.schema_plain (name : String) :
    (Primitive.schema name).properties = [] ∧ (Primitive.schema name).required = [] :=
  (Schema.bare_law.primitive name).root

theorem Schema.mergeProperties_object (schema : Schema) : schema.mergeProperties .object = schema := by
  cases schema
  rfl

theorem Progress.definition?_finish (progress : Progress) (name : String) (schema : Schema) :
    (progress.finish name schema).definition? name = some schema := by
  simp [definition?, Table.get?_insert]

/-- What is no entity is never complete. -/
theorem not_precedes_of_absent (coherent : final.Coherent catalog) {target : String}
    (absent : catalog.get? target = none) : ¬final.Precedes target owner := by
  have undefined : target ∉ Table.keys final.definitions := by
    intro defined
    have complete := (coherent.complete_iff target).mpr defined
    exact Table.get?_eq_none_iff.mp absent (coherent.catalogued target (by simp [complete]))
  unfold Progress.Precedes
  rw [List.idxOf_eq_length undefined]
  exact Nat.not_lt.mpr List.idxOf_le_length

/-- A field that takes over a definition adds what the expanded fields of the definition add. -/
theorem exposes_of_defined {target definition : Schema}
    (earlier : ∀ target parts, final.Precedes target owner → final.definition? target = some parts →
      Exposed catalog final target parts)
    (found : field.spliced? catalog = some (.entity name)) (precedes : final.Precedes name owner)
    (defined : final.definition? name = some definition) :
    (Task.field field target).Exposes catalog final owner (target.mergeProperties definition) := by
  obtain ⟨entity, parts, listed, expands, inParts⟩ := earlier name definition precedes defined
  refine fun tidy => ⟨tidy.mergeProperties definition, fun fields rest last others turn => ?_⟩
  exact ⟨.spliced parts rest, .entity found listed precedes expands others, inParts.spliced rfl rfl turn⟩

/-- A field that takes over nothing of an entity adds nothing. -/
theorem exposes_of_skipped {target parts : Schema} (found : field.spliced? catalog = some (.entity name))
    (apart : ¬final.Precedes name owner) (properties : parts.properties = []) (required : parts.required = []) :
    (Task.field field target).Exposes catalog final owner (target.mergeProperties parts) := by
  refine fun tidy => ⟨tidy.mergeProperties _, fun fields rest last others turn => ?_⟩
  have nothing := Exposures.Turn.nil (Schema.tidy_of_plain properties required)
  exact ⟨.spliced .nil rest, .skipped found apart others, nothing.spliced properties required turn⟩

/-- Within the walk of an entity fields are added as they expand, if that is so of the entities that are
complete before it. -/
theorem Introspects.exposes (derived : Introspects catalog task progress history answer next)
    (coherent : progress.Coherent catalog) (whole : final.Coherent catalog)
    (earlier : ∀ target parts, final.Precedes target owner → final.definition? target = some parts →
      Exposed catalog final target parts)
    (inside : Inside final owner progress next) : task.Exposes catalog final owner answer := by
  induction derived with
  | stub | plain | walk | named | array | oneOf | noVariants | variant => trivial
  | noFields => exact fun tidy => ⟨.nil, .nil, .nil tidy⟩
  | @oneField _ middle _ _ _ _ _ _ _ _ first rest early late =>
    intro tidy
    have behind := coherent_of_run first.run coherent
    have grown := definitions_prefix_of_run rest.run behind
    obtain ⟨tidy, put⟩ := early coherent
      ⟨inside.walking, fun target parts member => inside.known target parts (grown.subset member)⟩ tidy
    obtain ⟨exposures, expands, turn⟩ := late behind
      ⟨fun outer walking => inside.walking outer (first.inProgress walking), inside.known⟩ tidy
    exact put _ _ _ expands turn
  | @skipped _ _ answer _ found walking =>
    have skips : (Task.field _ answer).Exposes catalog final owner (answer.mergeProperties .object) :=
      exposes_of_skipped found (inside.walking _ walking) rfl rfl
    rwa [Schema.mergeProperties_object] at skips
  | copied found _ defined =>
    obtain ⟨precedes, same⟩ := inside.known _ _ (Table.mem_of_get? defined)
    exact exposes_of_defined earlier found precedes same
  | merged found unvisited inner ih =>
    rcases Field.spliced?_cases found with ⟨name, rfl⟩ | rfl
    · cases inner with
      | stub visited => exact absurd (unvisited name rfl) visited
      | plain _ absent =>
        obtain ⟨properties, required⟩ := Primitive.schema_plain name
        exact exposes_of_skipped found (not_precedes_of_absent whole absent) properties required
      | walk =>
        obtain ⟨precedes, same⟩ :=
          inside.known name _ (Table.mem_of_get? (Progress.definition?_finish ..))
        exact exposes_of_defined earlier found precedes same
    · obtain ⟨parts, expands, inParts⟩ := ih coherent inside (Schema.tidy_of_plain rfl rfl)
      refine fun tidy => ⟨tidy.mergeProperties _, fun fields rest last others turn => ?_⟩
      exact ⟨.spliced parts rest, .inline found expands others, inParts.spliced rfl rfl turn⟩
  | property plain =>
    refine fun tidy => ⟨tidy.addBase _ _, fun fields rest last others turn => ?_⟩
    exact ⟨.own _ rest, .own plain others, turn.own tidy⟩
  | untyped plain =>
    refine fun tidy => ⟨tidy.addBase _ _, fun fields rest last others turn => ?_⟩
    exact ⟨.own _ rest, .own plain others, turn.own tidy⟩

/-- What is defined when the walk of an entity ends is complete before the entity. -/
theorem Walk.inside (walk : Walk catalog final name) (coherent : final.Coherent catalog) :
    Inside final name (walk.before.start name) walk.after where
  walking := walk.not_precedes
  known target parts member := by
    obtain ⟨rest, split⟩ := walk.definitions_eq
    have defined : target ∈ Table.keys walk.after.definitions := List.mem_map_of_mem member
    have keys : Table.keys final.definitions =
        Table.keys walk.after.definitions ++ name :: Table.keys rest := by
      rw [split, Table.keys, List.map_append]
      rfl
    constructor
    · unfold Progress.Precedes
      rw [keys, List.idxOf_append, if_pos defined, List.idxOf_append, if_neg walk.name_not_mem,
        List.idxOf_cons_self]
      have before := List.idxOf_lt_length_of_mem defined
      omega
    · refine Table.get?_of_mem coherent.distinct ?_
      rw [split]
      exact List.mem_append_left _ member

/-- Every definition is exposed, one after the other in the order of their completion. -/
theorem exposed_of_walks (coherent : final.Coherent catalog)
    (walks : ∀ name, final.state name = .complete → Nonempty (Walk catalog final name))
    {definition : Schema} (defined : final.definition? name = some definition) :
    Exposed catalog final name definition := by
  induction place : (Table.keys final.definitions).idxOf name using Nat.strongRecOn
    generalizing name definition with
  | ind place ih =>
    obtain ⟨walk⟩ := walks name ((coherent.complete_iff name).mpr (Table.mem_keys_of_get? defined))
    obtain rfl := Option.some.inj ((walk.definition?_eq coherent).symm.trans defined)
    have begins := walk.coherent.start walk.fresh (Table.mem_keys_of_get? walk.listed)
    have exposes := walk.derived.exposes begins coherent
      (fun target parts precedes found => ih _ (place ▸ precedes) found rfl) (walk.inside coherent)
    obtain ⟨exposures, expands, turn⟩ := exposes (Schema.tidy_of_plain rfl rfl)
    exact ⟨walk.entity, exposures, walk.listed, expands, turn⟩

/-- What the last field under a key says of a property. -/
structure Schema.Follows (definition : Schema) (exposures : Exposures) (key : String) : Prop where
  mem_keys_iff : key ∈ definition.keys ↔ ∃ field, exposures.last? key = some field
  required_iff : key ∈ definition.required ↔ exposures.Keeps key
  decided : ∀ field, exposures.last? key = some field → ¬exposures.Demotes key →
    (key ∈ definition.required ↔ field.Requires)
  conditional : ∀ field, exposures.last? key = some field → field.condition.isSome = true →
    ∃ property, Table.get? definition.properties key = some property ∧ property.nullable = true

theorem Exposures.Turn.follows {exposures : Exposures} {target definition : Schema}
    (turn : exposures.Turn target definition) (properties : target.properties = [])
    (required : target.required = []) (key : String) : definition.Follows exposures key := by
  have required_iff : key ∈ definition.required ↔ exposures.Keeps key := by
    rw [turn.required_iff, required]
    simp
  constructor
  case mem_keys_iff =>
    unfold Schema.keys
    rw [← Table.contains_iff_mem_keys, Table.contains]
    cases last : exposures.last? key with
    | none =>
      rw [turn.untouched key last, properties]
      simp [Table.get?]
    | some field =>
      obtain ⟨property, found, -⟩ := turn.written key field last
      simp [found]
  case required_iff => exact required_iff
  case decided =>
    intro field last undemoted
    rw [required_iff, keeps_iff_of_last? last undemoted]
  case conditional =>
    intro field last conditional
    obtain ⟨property, found, nullable⟩ := turn.written key field last
    exact ⟨property, found, nullable conditional⟩

/-- Whatever is called, the fields of a defined entity expand in one way. The definition has the keys they
are written under, and requires those that a field requires and no later field of the same structure takes
back. That is what the last field says, unless a merge field brings one that does not require the key
behind one that does. If the last field is under a condition, the property is there and nullable. -/
theorem session_exposes (catalog : Catalog) (calls : List Call) :
    ∀ entry ∈ (session catalog calls).2.definitions, ∃ entity exposures,
      catalog.get? entry.1 = some entity ∧
        Expands catalog (session catalog calls).2 entry.1 entity.fields exposures ∧
        (∀ other, Expands catalog (session catalog calls).2 entry.1 entity.fields other →
          other = exposures) ∧
        ∀ key, entry.2.Follows exposures key := by
  obtain ⟨history, derived⟩ := session_history catalog calls
  have coherent := (derived.settled settled_empty).1.toCoherent
  have walks (name : String) (complete : (session catalog calls).2.state name = .complete) :
      Nonempty (Walk catalog (session catalog calls).2 name) :=
    derived.walk_of_complete settled_empty rfl complete
  intro entry member
  have defined := Table.get?_of_mem coherent.distinct member
  obtain ⟨entity, exposures, listed, expands, turn⟩ := exposed_of_walks coherent walks defined
  exact ⟨entity, exposures, listed, expands, fun other again => again.unique expands,
    turn.follows rfl rfl⟩

/-- A member is presented as a person, except that the mail address is optional. -/
def memberEntities : Catalog :=
  [("Person",
      { name := "Person"
        fields :=
          [{ name := "email", type := some (.named "String"), documentation := { required := true } }] }),
    ("Member",
      { name := "Member"
        fields :=
          [{ name := "person", presenter := some "Person", merge := true },
            { name := "email", type := some (.named "String"), condition := some "shared" }] })]

theorem session_exposes_members : ∃ definition exposures,
    ("Member", definition) ∈ (session memberEntities [.introspect "Member"]).2.definitions ∧
      (∀ key, definition.Follows exposures key) ∧
      "email" ∈ definition.keys ∧ "email" ∉ definition.required := by
  have stored : Table.keys (session memberEntities [.introspect "Member"]).2.definitions =
      ["Person", "Member"] := rfl
  have first : (session memberEntities [.introspect "Member"]).2.Precedes "Person" "Member" := by
    unfold Progress.Precedes
    rw [stored]
    decide
  obtain ⟨⟨_, definition⟩, member, rfl⟩ : ∃ entry ∈
      (session memberEntities [.introspect "Member"]).2.definitions, entry.1 = "Member" :=
    List.mem_map.mp (by rw [← Table.keys, stored]; decide)
  obtain ⟨entity, exposures, listed, -, only, follows⟩ :=
    session_exposes memberEntities [.introspect "Member"] _ member
  cases listed
  obtain rfl := only _ (.entity rfl rfl first (.own rfl .nil) (.own rfl .nil))
  refine ⟨definition, _, member, follows, (follows "email").mem_keys_iff.mpr ⟨_, rfl⟩, ?_⟩
  rw [(follows "email").decided _ rfl (by simp [Exposures.Demotes, Exposures.Relaxes])]
  decide

/-- An account whose secret is required at first, and shown to administrators only by a merged block. -/
def secretAccount : Entity where
  name := "Account"
  fields :=
    [{ name := "secret", type := some (.named "String"), documentation := { required := true } },
      { name := "restricted"
        merge := true
        nested := [{ name := "secret", type := some (.named "String"), condition := some "admin" }] }]

def secretAccounts : Catalog := [("Account", secretAccount)]

/-- The last field under a key does not always decide: the secret of the account is under a condition and
still required. -/
theorem required_outlasts_condition : ¬∀ (catalog : Catalog) (calls : List Call) (name : String)
    (definition : Schema) (entity : Entity) (exposures : Exposures) (key : String) (field : Field),
      (session catalog calls).2.definition? name = some definition → catalog.get? name = some entity →
      Expands catalog (session catalog calls).2 name entity.fields exposures →
      exposures.last? key = some field → (key ∈ definition.required ↔ field.Requires) := by
  intro decides
  have expands : Expands secretAccounts (session secretAccounts [.introspect "Account"]).2 "Account"
      secretAccount.fields _ := .own rfl (.inline rfl (.own rfl .nil) .nil)
  have required : ((session secretAccounts [.introspect "Account"]).2.definition? "Account").map
      Schema.required = some ["secret"] := rfl
  obtain ⟨definition, defined, same⟩ := Option.map_eq_some_iff.mp required
  have decided := decides secretAccounts [.introspect "Account"] "Account" definition secretAccount _
    "secret" _ defined rfl expands rfl
  rw [same] at decided
  exact absurd (decided.mp List.mem_cons_self) (by decide)

end ApiDoc
