import ApiDoc.Proofs.Export.References
import ApiDoc.Proofs.Json.Related
import ApiDoc.Proofs.Schema.Parts

/-! # Null in 3.0 and in 3.1

A schema is written in one way in 3.0 and in 3.1, until it admits null. `NullForms` lists the four ways
to say that in both versions, for a reference and for three kinds of content. What a schema renders to
where it is used differs by these forms, at the schema and at any part below it, and in nothing else
(`siteText_sited`).
-/

namespace ApiDoc.Export

open Json

/-- How it is said in 3.0 and in 3.1 that a schema admits null; `plain` and `plain'` are what is written
of it otherwise. -/
inductive NullForms : Fields → Fields → Fields → Fields → Prop
  /-- What stands beside a reference is ignored in 3.0, so it is wrapped there, too. -/
  | reference (target : String) :
      NullForms [("$ref", string target)] [("$ref", string target)]
        [("allOf", array [object [("$ref", string target)]]), ("nullable", bool true)]
        [("oneOf", array [object [("$ref", string target)], object [("type", string "null")]])]
  | alternatives {plain plain' : Fields} {variants : List Json} :
      plain'.get? "oneOf" = some (array variants) →
      NullForms plain plain' (plain ++ [("nullable", bool true)])
        (plain'.insert "oneOf" (array (variants ++ [object [("type", string "null")]])))
  | typed {plain plain' : Fields} {name : String} :
      plain'.get? "oneOf" = none → plain'.get? "type" = some (string name) →
      NullForms plain plain' (plain ++ [("nullable", bool true)])
        (plain'.insert "type" (array [string name, string "null"]))
  | other {plain plain' : Fields} : plain'.get? "$ref" = none → plain'.get? "oneOf" = none →
      plain'.get? "type" = none →
      NullForms plain plain' (plain ++ [("nullable", bool true)])
        [("oneOf", array [object plain', object [("type", string "null")]])]

/-- What a schema is in 3.0 and in 3.1, from what is written of it without nullability and extensions.
The extensions stand behind the forms of null. -/
def Forms (schema : Schema) (plain plain' : Fields) (left right : Json) : Prop :=
  ∃ form form', (if schema.nullable then NullForms plain plain' form form' else form = plain ∧ form' = plain') ∧
    left = object (form ++ Table.ofEntries schema.extensions) ∧
      right = object (form' ++ Table.ofEntries schema.extensions)

/-- The parts of a content that may differ, if `below` relates the parts of the schema. -/
def contentParts (below : Schema → Json → Json → Prop) (schema : Schema) : Table String (Json → Json → Prop) :=
  [("oneOf", Rows schema.oneOf below), ("properties", Columns schema.properties below),
    ("items", schema.items.elim Eq below)]

/-- What stands in 3.0 and in 3.1 where a schema is used. -/
inductive Sited : Schema → Json → Json → Prop
  | reference {site : Schema} {name : String} {left right : Json} : site.canonicalName = some name →
      Forms site [("$ref", string (refText .v30 name))] [("$ref", string (refText .v30 name))] left right →
      Sited site left right
  /-- `below` relates what stands in the places of the parts. -/
  | inline {site : Schema} {below : Schema → Json → Json → Prop} {plain plain' : Fields} {left right : Json} :
      (∀ part left right, below part left right → Sited part left right) → site.canonicalName = none →
      Table.Related (Under (contentParts below site)) plain plain' → Forms site plain plain' left right →
      Sited site left right

/-- What may stand in a content in 3.0 and 3.1. -/
inductive ContentEntry : String → Json → Prop
  | type (name : String) : ContentEntry "type" (string name)
  | alternatives (variants : List Json) : ContentEntry "oneOf" (array variants)
  | other {key : String} (value : Json) : key ∈ ["format", "description", "properties", "required", "items",
      "enum", "default", "example"] → ContentEntry key value

theorem ContentEntry.value {key : String} {value : Json} (entry : ContentEntry key value) :
    (key = "type" → ∃ name, value = string name) ∧ (key = "oneOf" → ∃ variants, value = array variants) := by
  cases entry with
  | type name => exact ⟨fun _ => ⟨name, rfl⟩, fun same => absurd same (by decide)⟩
  | alternatives variants => exact ⟨fun same => absurd same (by decide), fun _ => ⟨variants, rfl⟩⟩
  | other value listed =>
    refine ⟨fun same => ?_, fun same => ?_⟩
    · exact absurd (same ▸ listed) (by decide)
    · exact absurd (same ▸ listed) (by decide)

/-- The values under a key of a content differ in the parts of the schema only. -/
def SameContent (below : Schema → Json → Json → Prop) (schema : Schema) (key : String) (left right : Json) :
    Prop :=
  Under (contentParts below schema) key left right ∧ ContentEntry key left ∧ ContentEntry key right

def PartTexts (schema part : Schema) (left right : Json) : Prop :=
  part.Part schema ∧ left = siteText .v30 part ∧ right = siteText .v31 part

variable {schema site : Schema} {plain plain' : Fields}

theorem typeFields_v31 (schema : Schema) : typeFields .v31 schema = typeFields .v30 schema := by
  unfold typeFields
  split <;> rfl

theorem typeFields_entries {entry : String × Json} (member : entry ∈ typeFields .v30 schema) :
    ContentEntry entry.1 entry.2 ∧ (entry.1 = "type" ∨ entry.1 = "format") := by
  unfold typeFields at member
  split at member
  · rcases List.mem_cons.mp member with rfl | member
    · exact ⟨.type _, .inl rfl⟩
    · obtain rfl := List.mem_singleton.mp member
      exact ⟨.other _ (by decide), .inr rfl⟩
  · cases formatted : schema.format with
    | none =>
      rw [formatted] at member
      obtain rfl := List.mem_singleton.mp member
      exact ⟨.type _, .inl rfl⟩
    | some format =>
      rw [formatted] at member
      rcases Table.mem_of_mem_insert member with rfl | member
      · exact ⟨.other _ (by simp), .inr rfl⟩
      · obtain rfl := List.mem_singleton.mp member
        exact ⟨.type _, .inl rfl⟩
  · cases member

/-- What a content starts with is written in one way, apart from the alternatives. -/
theorem plainStart_related (schema : Schema) :
    Table.Related (SameContent (PartTexts schema) schema)
      (plainStart .v30 schema (schema.oneOf.map (siteText .v30)))
      (plainStart .v31 schema (schema.oneOf.map (siteText .v31))) := by
  unfold plainStart
  split
  · rw [typeFields_v31]
    refine List.forall₂_same.mpr fun entry member => ⟨rfl, ?_⟩
    obtain ⟨shape, key⟩ := typeFields_entries member
    refine ⟨.same ?_ entry.2, shape, shape⟩
    rcases key with key | key <;> rw [key] <;> rfl
  · refine .cons ⟨rfl, .here rfl ?_, .alternatives _, .alternatives _⟩ .nil
    exact rows_map fun variant member => ⟨.variant member, rfl, rfl⟩

/-- What follows on the start of a content is written in one way, apart from properties and items. -/
theorem plainAssemble_related {holds : String → Json → Json → Prop} {start start' properties properties' : Fields}
    {items items' : Json} (same : ∀ key ∈ ["description", "required", "enum", "default", "example"],
      ∀ value, holds key value value)
    (inStart : Table.Related holds start start')
    (inProperties : holds "properties" (object properties) (object properties'))
    (inItems : schema.isType .array = true → holds "items" items items') :
    Table.Related holds (plainAssemble schema start properties items)
      (plainAssemble schema start' properties' items') := by
  have optional (key : String) (listed : key ∈ ["description", "required", "enum", "default", "example"])
      (value? : Option Json) : Option.Rel (holds key) value? value? := by
    cases value? with
    | none => exact .none
    | some value => exact .some (same key listed value)
  have described := inStart.insertSome (optional "description" (by decide) (schema.description.map string))
  have withProperties := Table.Related.ite (schema.properties.isEmpty = true) (fun _ => described)
    fun _ => described.insert inProperties
  have withRequired := Table.Related.ite (schema.required.isEmpty = true) (fun _ => withProperties)
    fun _ => withProperties.insert (same "required" (by decide) (strings schema.required))
  have withItems := Table.Related.ite (schema.isType .array = true)
    (fun array => withRequired.insert (inItems array)) fun _ => withRequired
  have withEnum := related_insertList withItems rfl (same "enum" (by decide) (array schema.enumValues))
  exact (withEnum.insertSome (optional "default" (by decide) _)).insertSome (optional "example" (by decide) _)

/-- The contents of a schema differ in its parts only. -/
theorem plainContent_related (schema : Schema) :
    Table.Related (SameContent (PartTexts schema) schema) (plainContent .v30 schema)
      (plainContent .v31 schema) := by
  rw [plainContent_unfold, plainContent_unfold]
  simp only [plainVariants_eq, plainProperties_eq, plainItems_eq]
  refine plainAssemble_related ?_ (plainStart_related schema) ?_ fun _ => ?_
  · have apart : ∀ key ∈ ["description", "required", "enum", "default", "example"],
        key ∉ ["oneOf", "properties", "items"] := by decide
    have listed : ∀ key ∈ ["description", "required", "enum", "default", "example"],
        key ∈ ["format", "description", "properties", "required", "items", "enum", "default", "example"] := by
      decide
    intro key member value
    have shape : ContentEntry key value := .other value (listed key member)
    exact ⟨.same (Table.get?_eq_none_iff.mpr (apart key member)) value, shape, shape⟩
  · refine ⟨.here rfl ?_, .other _ (by decide), .other _ (by decide)⟩
    exact columns_map fun name property member => ⟨.property member, rfl, rfl⟩
  · refine ⟨.here rfl ?_, .other _ (by decide), .other _ (by decide)⟩
    cases present : schema.items with
    | none => exact congrArg object (typeFields_v31 .string).symm
    | some items => exact ⟨.items present, rfl, rfl⟩

theorem content_entries (schema : Schema) :
    (∀ entry ∈ plainContent .v30 schema, ContentEntry entry.1 entry.2) ∧
      ∀ entry ∈ plainContent .v31 schema, ContentEntry entry.1 entry.2 := by
  have content := plainContent_related schema
  constructor
  · intro entry member
    obtain ⟨_, -, _, _, shape, -⟩ := exists_of_mem_left content member
    exact shape
  · intro entry member
    obtain ⟨_, -, same, _, -, shape⟩ := exists_of_mem_right content member
    exact same ▸ shape

def Unmarked (fields : Fields) : Prop := ∀ key ∈ Table.keys fields, key.toList.head? ≠ some 'x'

theorem key_of_entries (entries : ∀ entry ∈ plain, ContentEntry entry.1 entry.2) {key : String}
    (member : key ∈ Table.keys plain) : key ∈ ["type", "oneOf", "format", "description", "properties",
      "required", "items", "enum", "default", "example"] := by
  obtain ⟨⟨_, value⟩, listed, rfl⟩ := List.mem_map.mp member
  have shape := entries _ listed
  dsimp only at shape ⊢
  cases shape with
  | type => decide
  | alternatives => decide
  | other _ other => exact List.mem_cons_of_mem _ (List.mem_cons_of_mem _ other)

theorem unmarked_of_entries (entries : ∀ entry ∈ plain, ContentEntry entry.1 entry.2) : Unmarked plain := by
  have unmarked : ∀ key ∈ ["type", "oneOf", "format", "description", "properties", "required", "items",
      "enum", "default", "example"], key.toList.head? ≠ some 'x' := by decide
  exact fun key member => unmarked key (key_of_entries entries member)

theorem Unmarked.insert (unmarked : Unmarked plain) {key : String} (here : key.toList.head? ≠ some 'x')
    (value : Json) : Unmarked (plain.insert key value) :=
  Table.forall_keys_insert unmarked here value

/-- Extensions stand behind all other fields. -/
theorem extend_extensions (unmarked : Unmarked plain) {extensions : Table String Json}
    (marked : ∀ key ∈ Table.keys extensions, ∃ rest, key = "x-" ++ rest) :
    Table.extend plain extensions = plain ++ Table.ofEntries extensions := by
  refine Table.extend_eq_append fun key extension member => ?_
  obtain ⟨rest, same⟩ := marked key extension
  exact ne_extension (unmarked key member) same

/-- In 3.0 a content says behind everything else that it admits null. -/
theorem nullable30_of_entries (entries : ∀ entry ∈ plain, ContentEntry entry.1 entry.2) :
    Dialect.nullable30 plain = plain ++ [("nullable", bool true)] := by
  have noReference : "$ref" ∉ Table.keys plain := fun member =>
    absurd (key_of_entries entries member) (by decide)
  have notSaid : "nullable" ∉ Table.keys plain := fun member =>
    absurd (key_of_entries entries member) (by decide)
  unfold Dialect.nullable30
  rw [if_neg (mt Table.contains_iff_mem_keys.mp noReference), Table.insert_of_not_mem notSaid]

/-- In 3.1 null joins the alternatives or the type of a content, or else the content is wrapped. -/
theorem nullForms_of_entries (plain : Fields) (entries : ∀ entry ∈ plain', ContentEntry entry.1 entry.2) :
    NullForms plain plain' (plain ++ [("nullable", bool true)]) (Dialect.nullable31 plain') ∧
      Unmarked (Dialect.nullable31 plain') := by
  have unmarked := unmarked_of_entries entries
  unfold Dialect.nullable31
  cases alternatives : plain'.get? "oneOf" with
  | some value =>
    obtain ⟨variants, rfl⟩ := (entries _ (Table.mem_of_get? alternatives)).value.2 rfl
    exact ⟨.alternatives alternatives, unmarked.insert (by decide) _⟩
  | none =>
    cases typed : plain'.get? "type" with
    | some value =>
      obtain ⟨name, rfl⟩ := (entries _ (Table.mem_of_get? typed)).value.1 rfl
      exact ⟨.typed alternatives typed, unmarked.insert (by decide) _⟩
    | none =>
      have noReference : plain'.get? "$ref" = none := Table.get?_eq_none_iff.mpr fun member =>
        absurd (key_of_entries entries member) (by decide)
      refine ⟨.other noReference alternatives typed, fun key member => ?_⟩
      obtain rfl : key = "oneOf" := List.mem_singleton.mp member
      decide

/-- A content is written in its forms, whatever is said of null and whatever extensions it has. -/
theorem forms_of_entries (marked : schema.Marked) (entries : ∀ entry ∈ plain, ContentEntry entry.1 entry.2)
    (entries' : ∀ entry ∈ plain', ContentEntry entry.1 entry.2) :
    Forms schema plain plain' (object (decorate .v30 schema plain)) (object (decorate .v31 schema plain')) := by
  unfold Forms decorate
  cases schema.nullable with
  | false =>
    refine ⟨plain, plain', ⟨rfl, rfl⟩, ?_, ?_⟩
    · exact congrArg object (extend_extensions (unmarked_of_entries entries) marked.root)
    · exact congrArg object (extend_extensions (unmarked_of_entries entries') marked.root)
  | true =>
    obtain ⟨forms, unmarked'⟩ := nullForms_of_entries plain entries'
    have unmarked : Unmarked (Dialect.nullable30 plain) := by
      rw [nullable30_of_entries entries]
      intro key member
      rw [Table.keys, List.map_append] at member
      rcases List.mem_append.mp member with old | new
      · exact unmarked_of_entries entries key old
      · obtain rfl := List.mem_singleton.mp new
        decide
    refine ⟨Dialect.nullable30 plain, Dialect.nullable31 plain', ?_, ?_, ?_⟩
    · rw [nullable30_of_entries entries]
      exact forms
    · exact congrArg object (extend_extensions unmarked marked.root)
    · exact congrArg object (extend_extensions unmarked' marked.root)

/-- A reference is written in its forms. -/
theorem forms_of_reference (marked : site.Marked) (target : String) :
    Forms site [("$ref", string target)] [("$ref", string target)]
      (object (decorate .v30 site [("$ref", string target)]))
      (object (decorate .v31 site [("$ref", string target)])) := by
  have unmarked : Unmarked [("$ref", string target)] := by simp [Unmarked, Table.keys]
  have unmarked30 : Unmarked (Dialect.nullable30 [("$ref", string target)]) :=
    have apart : ∀ key ∈ ["allOf", "nullable"], key.toList.head? ≠ some 'x' := by decide
    apart
  have unmarked31 : Unmarked (Dialect.nullable31 [("$ref", string target)]) :=
    have apart : ∀ key ∈ ["oneOf"], key.toList.head? ≠ some 'x' := by decide
    apart
  have extended {form : Fields} (unmarked : Unmarked form) :
      object (Table.extend form site.extensions) = object (form ++ Table.ofEntries site.extensions) :=
    congrArg object (extend_extensions unmarked marked.root)
  unfold Forms decorate
  cases site.nullable with
  | false => exact ⟨_, _, ⟨rfl, rfl⟩, extended unmarked, extended unmarked⟩
  | true => exact ⟨_, _, .reference target, extended unmarked30, extended unmarked31⟩

/-- Where a schema is used, it renders in 3.0 and in 3.1 to the same, apart from the forms of null. -/
theorem siteText_sited (site : Schema) (marked : site.Marked) :
    Sited site (siteText .v30 site) (siteText .v31 site) := by
  induction site using Schema.ofParts with
  | node site ih =>
    unfold siteText plainUse
    cases named : site.canonicalName with
    | some name => exact .reference named (forms_of_reference marked _)
    | none =>
      have content := plainContent_related site
      obtain ⟨entries, entries'⟩ := content_entries site
      refine .inline ?_ named (content.imp fun _ _ _ here => here.1) (forms_of_entries marked entries entries')
      rintro part _ _ ⟨inside, rfl, rfl⟩
      exact ih part inside (Schema.All.part marked inside)

def unnamed (schema : Schema) : Schema := { schema with canonicalName := none }

/-- A definition renders to what its schema renders to without its name. -/
theorem siteText_unnamed (dialect : Dialect) (body : Schema) :
    siteText dialect (unnamed body) = object (plainBody dialect body) := by
  unfold siteText plainUse plainBody
  rw [plainContent_unfold, plainContent_unfold body]
  rfl

/-- A definition renders in 3.0 and in 3.1 to the same, apart from the forms of null. -/
theorem plainBody_sited (body : Schema) (marked : body.Marked) :
    Sited (unnamed body) (object (plainBody .v30 body)) (object (plainBody .v31 body)) := by
  obtain ⟨root, properties, items, variants⟩ := Schema.all_iff.mp marked
  have unnamedToo : (unnamed body).Marked := Schema.all_iff.mpr ⟨root, properties, items, variants⟩
  have sited := siteText_sited (unnamed body) unnamedToo
  rwa [siteText_unnamed, siteText_unnamed] at sited

end ApiDoc.Export
