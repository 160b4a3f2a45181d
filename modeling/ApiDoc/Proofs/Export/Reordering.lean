import ApiDoc.Proofs.Build.Reordering
import ApiDoc.Proofs.Export.Alike
import ApiDoc.Proofs.Export.Outcome
import ApiDoc.Proofs.Export.SameText
import ApiDoc.Proofs.Export.Success
import ApiDoc.Proofs.Json.Related

/-! # Documents of reordered interfaces

Interfaces that differ in nothing but orders, and in schemas that no use tells apart, have documents
that differ in nothing but orders (`document_reordered`). For the definitions it takes that the walk
begins every definition of the interface, whichever way it comes to it, and nothing else
(`begun_perm`).
-/

namespace ApiDoc

namespace Json

/-- Objects with the same keys in some order, and related values under them. -/
def ReorderedFields (same : Json → Json → Prop) (first second : Json) : Prop :=
  ∃ left right, first = object left ∧ second = object right ∧ Table.Reordered same left right

def ReorderedItems (first second : Json) : Prop :=
  ∃ left right, first = array left ∧ second = array right ∧ left.Perm right

end Json

/-- What may stand under a key of the components of two documents that are equal up to order. -/
inductive SameComponent : String → Json → Json → Prop
  | same (key : String) (value : Json) : SameComponent key value value
  | definitions {first second : Json} : Json.ReorderedFields Eq first second →
      SameComponent "schemas" first second

/-- What may stand under a key of two documents that are equal up to order: tags, paths, the methods
of a path and definitions may stand in another order. -/
inductive SamePart : String → Json → Json → Prop
  | same (key : String) (value : Json) : SamePart key value value
  | tags {first second : Json} : Json.ReorderedItems first second → SamePart "tags" first second
  | paths {first second : Json} : Json.ReorderedFields (Json.ReorderedFields Eq) first second →
      SamePart "paths" first second
  | definitions {first second : Json} : Json.ReorderedFields Eq first second →
      SamePart "definitions" first second
  | components {first second : Json} : Json.RelatedFields SameComponent first second →
      SamePart "components" first second

/-- Documents that are equal up to the order of their paths, of the methods of a path, of their tags
and of their definitions. -/
def Json.SameUpToOrder : Json → Json → Prop := Json.RelatedFields SamePart

theorem Method.key_injective : Function.Injective Method.key := by
  intro first second same
  cases first <;> cases second <;> first | rfl | exact absurd same (by decide)

namespace Export

open Json

variable {dialect : Dialect} {api api' : Api} {visits : List Visit} {next : Agenda}

/-- A walk to the end begins exactly the definitions of an interface, if every canonical name leads to
one. -/
theorem begun_perm (known : api.Known) (distinct : (Table.keys api.definitions).Nodup)
    (run : Run (WalkStep dialect api) (.start api) visits next) (empty : next.pending = []) :
    (begun visits).Perm api.definitions := by
  have once : (begun visits).Nodup := (nodup_keys_begun run).of_map Prod.fst
  have listed : ∀ entry ∈ begun visits, entry ∈ api.definitions := by
    intro entry member
    obtain ⟨visit, visited, named⟩ := visited_of_begun run member
    obtain ⟨site, found⟩ := body_of_begun run member
    have present := Table.contains_iff_mem_keys.mpr (known_of_visited known run visited named)
    obtain ⟨definition, defined⟩ := Option.isSome_iff_exists.mp present
    unfold body? at found
    rw [defined] at found
    cases found
    exact Table.mem_of_get? defined
  -- All definitions are on the first agenda, so the walk cannot end before it has met their names.
  refine (List.perm_ext_iff_of_nodup once (distinct.of_map Prod.fst)).mpr fun entry => ⟨listed entry, ?_⟩
  intro member
  have met : next.names.get? (sanitize entry.1) = some entry.1 :=
    get?_of_met run empty (.inl (List.mem_map_of_mem member))
  have begins := Table.mem_of_get? met
  rw [names_of_run run, Agenda.start, List.nil_append] at begins
  obtain ⟨other, begun, same⟩ := List.mem_map.mp begins
  have sameName : other.1 = entry.1 := (Prod.mk.inj same).2
  have sameEntry : other = entry := by
    have found := Table.get?_of_mem distinct (listed other begun)
    rw [sameName, Table.get?_of_mem distinct member] at found
    exact Prod.ext sameName (Option.some.inj found).symm
  exact sameEntry ▸ begun

/-- What is made of operations for different methods stands under different keys. -/
theorem nodup_keys_methods {β : Type} {operations : Table Method Operation}
    (distinct : (Table.keys operations).Nodup) (text : Operation → β) :
    (Table.keys (operations.map fun entry => (entry.1.key, text entry.2))).Nodup := by
  have apart : ((operations.map Prod.fst).map Method.key).Nodup := distinct.map Method.key_injective
  rw [List.map_map] at apart
  rw [Table.keys_map]
  exact apart

/-- Operations for different methods stand side by side. -/
theorem operationTexts_nil {operations : Table Method Operation}
    (distinct : (Table.keys operations).Nodup) :
    operationTexts dialect operations [] =
      operations.map fun entry => (entry.1.key, operationText dialect entry.2) := by
  unfold operationTexts
  exact Table.extend_nil (nodup_keys_methods distinct (operationText dialect))

/-- Different paths stand side by side. -/
theorem pathTexts_nil (distinct : api.Distinct) : pathTexts dialect api.paths [] =
    api.byPath.map fun entry => (entry.1, object (operationTexts dialect entry.2 [])) := by
  have sameTexts : (api.byPath.map fun entry => (entry.1, object (operationTexts dialect entry.2 []))) =
      api.paths.map fun item => (item.template, object (operationTexts dialect item.operations [])) := by
    unfold Api.byPath
    rw [List.map_map]
    rfl
  unfold pathTexts
  rw [← sameTexts]
  refine Table.extend_nil ?_
  rw [Table.keys_map]
  exact distinct.paths

theorem pathTexts_reordered (reordered : api.Reordered api') (distinct : api.Distinct)
    (distinct' : api'.Distinct) :
    Table.Reordered (ReorderedFields Eq) (pathTexts dialect api.paths [])
      (pathTexts dialect api'.paths []) := by
  rw [pathTexts_nil distinct, pathTexts_nil distinct']
  refine reordered.paths.map fun template operations operations' here there same => ⟨rfl, ?_⟩
  refine ⟨_, _, rfl, rfl, ?_⟩
  rw [operationTexts_nil (distinct.methods _ here), operationTexts_nil (distinct'.methods _ there)]
  exact same.map fun method one other _ _ related =>
    ⟨rfl, operationText_eq (related.imp (fun _ _ => siteText_eq) fun _ _ => siteText_eq)⟩

variable {fields fields' : Fields}

theorem related_finish (related : Table.Related SamePart fields fields') {definitions definitions' : Fields}
    (reordered : Table.Reordered Eq definitions definitions') (securitySchemes : Fields) :
    Table.Related SamePart (dialect.finish fields definitions securitySchemes)
      (dialect.finish fields' definitions' securitySchemes) := by
  have sameEmptiness := reordered.isEmpty_eq
  have objects : ReorderedFields Eq (object definitions) (object definitions') :=
    ⟨_, _, rfl, rfl, reordered⟩
  have components : Table.Related SameComponent
      (Dialect.insertObject (Dialect.insertObject [] "schemas" definitions) "securitySchemes"
        securitySchemes)
      (Dialect.insertObject (Dialect.insertObject [] "schemas" definitions') "securitySchemes"
        securitySchemes) :=
    related_insertObject (related_insertObject .nil sameEmptiness (.definitions objects)) rfl (.same _ _)
  cases dialect with
  | v20 =>
    exact related_insertObject (related_insertObject related sameEmptiness (.definitions objects)) rfl
      (.same _ _)
  | v30 | v31 =>
    exact related_insertObject related components.isEmpty_eq (.components ⟨_, _, rfl, rfl, components⟩)

/-- Interfaces that differ in nothing but orders, and in schemas that no use tells apart, have
documents that are equal up to order. -/
theorem document_reordered (reordered : api.Reordered api') (distinct : api.Distinct)
    (distinct' : api'.Distinct) (known : api.Known) (known' : api'.Known) {text text' : Json}
    (exported : document dialect api = .ok text) (exported' : document dialect api' = .ok text') :
    text.SameUpToOrder text' := by
  obtain ⟨visits, last, run, empty, rfl⟩ := document_text exported
  obtain ⟨visits', last', run', empty', rfl⟩ := document_text exported'
  unfold documentText
  have begunOnes : Table.Reordered Schema.AlikeParts (begun visits) (begun visits') := by
    have permuted := begun_perm known distinct.definitions run empty
    have permuted' := begun_perm known' distinct'.definitions run' empty'
    exact (reordered.definitions.of_perm permuted).trans_perm permuted'.symm
  have definitions : Table.Reordered Eq (defined dialect visits) (defined dialect visits') :=
    begunOnes.map fun name first second _ _ same => ⟨rfl, congrArg object (plainBody_eq same)⟩
  have head : dialect.head api' = dialect.head api := by
    rw [reordered.frame]
    cases dialect <;> rfl
  have securitySchemes : api'.securitySchemes = api.securitySchemes := by rw [reordered.frame]
  have tags := reordered.tags.map tagObject
  have start := related_insertList (Table.Related.refl SamePart.same (dialect.head api)) tags.isEmpty_eq
    (.tags ⟨_, _, rfl, rfl, tags⟩)
  have texts : Table.Reordered (ReorderedFields Eq) (pathTexts dialect api.paths [])
      (pathTexts dialect api'.paths []) := pathTexts_reordered reordered distinct distinct'
  have paths := start.insert (.paths ⟨_, _, rfl, rfl, texts⟩)
  rw [head, securitySchemes]
  exact ⟨_, _, rfl, rfl, related_finish paths definitions _⟩

/-- Reordered interfaces define the same names. -/
theorem separate_iff_of_reordered (reordered : api.Reordered api') : api.Separate ↔ api'.Separate := by
  unfold Api.Separate
  simp only [reordered.definitions.keys_perm.mem_iff]

end Export

end ApiDoc
