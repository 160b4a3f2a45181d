import ApiDoc.Proofs.Export.Sites
import ApiDoc.Proofs.Tables

/-! # References and the definitions they lead to

A document is closed: whatever a use position refers to stands in the container of definitions,
rendered once, and nothing else stands there. The keys of the container are the sanitized forms of
the names that the walk meets, no two of which share a key (`Closed`). The main statement
(`document_closed`) holds for every interface whose extensions cannot hide a reference, whether its
definitions refer to each other or only to names that use positions define.
-/

namespace ApiDoc

def Schema.Marked (schema : Schema) : Prop :=
  schema.All fun node => ∀ key ∈ Table.keys node.extensions, ∃ rest, key = "x-" ++ rest

/-- The extensions of all schemas of the interface have keys that start with `x-`. -/
def Api.Marked (api : Api) : Prop :=
  api.All fun node => ∀ key ∈ Table.keys node.extensions, ∃ rest, key = "x-" ++ rest

namespace Export

open Json

variable {dialect : Dialect} {api : Api} {agenda next : Agenda} {visits : List Visit} {one : Visit}
  {site : Schema}

theorem marked_of_visited (marked : api.Marked)
    (run : Run (WalkStep dialect api) (.start api) visits next) {visit : Visit}
    (member : visit ∈ visits) : visit.position.schema.Marked :=
  (carried_of_visited marked (by simp [bare, Table.keys]) run visit member).1

/-- The schema that stands first in the list under a key. -/
def firstOf? (rendered : Json) (key : String) : Option Json :=
  ((rendered.field? key).bind items?).bind List.head?

/-- The target of a rendered reference: it stands under `$ref`, or under the `$ref` of the first
schema of an `allOf` or a `oneOf` that says that null is admitted, too. -/
def refTarget? (rendered : Json) : Option String :=
  let direct (rendered : Json) : Option String := (rendered.field? "$ref").bind string?
  ((direct rendered).or ((firstOf? rendered "allOf").bind direct)).or
    ((firstOf? rendered "oneOf").bind direct)

theorem ne_extension {key rest : String} (unmarked : key.toList.head? ≠ some 'x') :
    key ≠ "x-" ++ rest := by
  rintro rfl
  simp at unmarked

/-- Neither nullability nor extensions hide the target of a reference. -/
theorem refTarget?_decorate (marked : site.Marked) (target : String) :
    refTarget? (object (decorate dialect site [("$ref", string target)])) = some target := by
  have kept : ∀ (fields : Fields) (key : String), key.toList.head? ≠ some 'x' →
      (Table.extend fields site.extensions).get? key = fields.get? key := by
    intro fields key unmarked
    refine Table.get?_extend_of_not_mem fun member => ?_
    obtain ⟨rest, same⟩ := marked.root key member
    exact ne_extension unmarked same
  have reference := fun fields => kept fields "$ref" (by decide)
  have all := fun fields => kept fields "allOf" (by decide)
  have first := fun fields => kept fields "oneOf" (by decide)
  unfold decorate
  simp only [refTarget?, firstOf?, field?, reference, all, first]
  cases site.nullable <;> cases dialect <;> rfl

/-- What the walk writes at a position: a reference if it is named, otherwise the schema. -/
def written (dialect : Dialect) (position : Position) : Json :=
  match position.name? with
  | some name => object (decorate dialect position.schema [("$ref", string (refText dialect name))])
  | none => object (decorate dialect position.schema (plainContent dialect position.schema))

theorem siteText_eq_written (site : Schema) : siteText dialect site = written dialect (.ofSite site) := by
  unfold siteText plainUse written Position.ofSite
  cases site.canonicalName <;> rfl

/-- Whatever has been defined before, a use position answers what is written at it. -/
theorem useSite_answer {table : Definitions} {state after : State} {text : Json}
    (ran : (useSite dialect table site (content dialect table site)).run state = .ok (text, after)) :
    text = written dialect (.ofSite site) := by
  rw [useSite_eq] at ran
  cases visited : (visit dialect table site).run state with
  | error error =>
    rw [run_bind_of_error visited] at ran
    cases ran
  | ok result =>
    obtain ⟨⟨⟩, behind⟩ := result
    rw [run_bind_of_ok visited] at ran
    cases ran
    exact siteText_eq_written site

/-- The definitions of a document, where its version has them. -/
def container (dialect : Dialect) (document : Json) : Fields :=
  let place :=
    match dialect with
    | .v20 => document.field? "definitions"
    | .v30 | .v31 => (document.field? "components").bind fun components => components.field? "schemas"
  (place.bind fields?).getD []

theorem get?_insertObject (fields value : Fields) (key other : String) :
    (Dialect.insertObject fields key value).get? other =
      if key = other ∧ value ≠ [] then some (object value) else fields.get? other := by
  unfold Dialect.insertObject
  cases value with
  | nil => simp
  | cons => simp [Table.get?_insert]

theorem get?_insertList (fields : Fields) (key other : String) (items : List Json) :
    (Dialect.insertList fields key items).get? other =
      if key = other ∧ items ≠ [] then some (array items) else fields.get? other := by
  unfold Dialect.insertList
  cases items with
  | nil => simp
  | cons => simp [Table.get?_insert]

theorem get?_insertList_of_ne {key other : String} (apart : key ≠ other) (fields : Fields)
    (items : List Json) : (Dialect.insertList fields key items).get? other = fields.get? other := by
  rw [get?_insertList, if_neg fun both => apart both.1]

theorem get?_insertSome_of_ne {key other : String} (apart : key ≠ other) (fields : Fields)
    (value? : Option Json) : (Table.insertSome fields key value?).get? other = fields.get? other := by
  rw [Table.get?_insertSome, if_neg apart]

/-- A document that has no container yet gets one when it is finished, unless it would be empty. -/
theorem container_finish {start : Fields} (definitions securitySchemes : Fields)
    (noDefinitions : start.get? "definitions" = none) (noComponents : start.get? "components" = none) :
    container dialect (object (dialect.finish start definitions securitySchemes)) = definitions := by
  cases dialect with
  | v20 =>
    simp only [container, Dialect.finish, field?, get?_insertObject, noDefinitions]
    cases definitions <;> simp [fields?]
  | v30 | v31 =>
    simp only [container, Dialect.finish, field?, get?_insertObject, noComponents]
    cases definitions <;> cases securitySchemes <;>
      simp [fields?, Dialect.insertObject, Table.insert, Table.get?]

theorem get?_head {key : String} (absent : key ∉ ["swagger", "openapi", "info", "host", "basePath",
    "schemes", "servers"]) : (dialect.head api).get? key = none := by
  simp only [List.mem_cons, List.not_mem_nil, or_false, not_or] at absent
  obtain ⟨swagger, openapi, info, host, basePath, schemes, servers⟩ := absent
  cases dialect with
  | v20 =>
    rw [Dialect.head, get?_insertList_of_ne (Ne.symm schemes), get?_insertSome_of_ne (Ne.symm basePath),
      get?_insertSome_of_ne (Ne.symm host)]
    simp [Table.get?, Ne.symm swagger, Ne.symm info]
  | v30 | v31 =>
    rw [Dialect.head, get?_insertList_of_ne (Ne.symm servers)]
    simp [Table.get?, Ne.symm openapi, Ne.symm info]

/-- The walk answers the text of the paths, whatever it defines. -/
theorem walk_answer {text : Fields} {after : State} (ran : (walk dialect api).run {} = .ok (text, after)) :
    text = pathTexts dialect api.paths [] := by
  rw [walk_eq] at ran
  cases visited : (visitPositions dialect (definitionsOf dialect api) (Agenda.start api).pending).run {} with
  | error error =>
    rw [run_bind_of_error visited] at ran
    cases ran
  | ok result =>
    rw [run_bind_of_ok visited] at ran
    cases ran
    rfl

/-- A document is the text of the paths with the definitions of the walk in its container. -/
theorem document_eq_ok {document : Json} (exported : Export.document dialect api = .ok document) :
    ∃ text after, (walk dialect api).run {} = .ok (text, after) ∧
      document = documentText dialect api after.definitions ∧
        container dialect document = after.definitions := by
  unfold Export.document at exported
  cases ran : (walk dialect api).run {} with
  | error error =>
    rw [ran] at exported
    cases exported
  | ok result =>
    rw [ran] at exported
    cases exported
    refine ⟨result.1, result.2, rfl, ?_, container_finish _ _ ?_ ?_⟩
    · simp only [documentText, ← walk_answer ran]
    all_goals
      rw [Table.get?_insert, if_neg (by decide), get?_insertList_of_ne (by decide)]
      exact get?_head (by decide)

theorem document_eq_error {error : ExportError}
    (exported : Export.document dialect api = .error error) : (walk dialect api).run {} = .error error := by
  unfold Export.document at exported
  cases ran : (walk dialect api).run {} with
  | error other =>
    rw [ran] at exported
    cases exported
    rfl
  | ok result =>
    rw [ran] at exported
    cases exported

theorem isNameChar_of_mem_sanitizeChars (chars : List Char) :
    ∀ c ∈ sanitizeChars chars, isNameChar c = true := by
  fun_induction sanitizeChars chars with
  | case1 rest ih =>
    intro c member
    rcases List.mem_cons.mp member with rfl | later
    · decide
    · exact ih c later
  | case2 first rest _ ih =>
    intro c member
    rcases List.mem_cons.mp member with rfl | later
    · split
      · assumption
      · decide
    · exact ih c later
  | case3 => intro c member; cases member

/-- A sanitized name has no character that a reference would have to escape. -/
theorem isNameChar_of_mem_sanitize (name : String) : ∀ c ∈ (sanitize name).toList, isNameChar c = true := by
  rw [sanitize, String.toList_ofList]
  exact isNameChar_of_mem_sanitizeChars name.toList

/-- `Met api visits name`: the interface defines the name, or the walk visits a position of it. -/
def Met (api : Api) (visits : List Visit) (name : String) : Prop :=
  name ∈ Table.keys api.definitions ∨ ∃ visit ∈ visits, visit.position.name? = some name

/-- What the definitions of a document and the visits of the walk owe to each other. -/
structure Closed (dialect : Dialect) (api : Api) (visits : List Visit) (definitions : Fields) :
    Prop where
  /-- All sites and definitions are visited, and the parts of whatever is rendered. -/
  starts : ∀ position ∈ (Agenda.start api).pending, ∃ visit ∈ visits, visit.position = position
  inside : ∀ visit ∈ visits, ∀ body, visit.content? = some body → ∀ part ∈ parts dialect body,
    ∃ other ∈ visits, other.position = .ofSite part
  /-- The definitions are the bodies that visits begin, each rendered once, none left reserved. -/
  rendered : definitions = defined dialect visits
  once : (Table.keys definitions).Nodup
  filled : ∀ entry ∈ definitions, entry.2 ≠ null
  /-- What is written at a named position refers to a definition. -/
  referred : ∀ visit ∈ visits, ∀ name, visit.position.name? = some name →
    sanitize name ∈ Table.keys definitions ∧
      refTarget? (written dialect visit.position) = some (dialect.refBase ++ sanitize name)
  /-- Only schemas without a name are written inline. -/
  inline : ∀ visit ∈ visits, visit.position.name? = none → visit.position.schema.canonicalName = none
  /-- The keys are the sanitized forms of the names met, and a key belongs to one name. -/
  keys_iff : ∀ key, key ∈ Table.keys definitions ↔ ∃ name, Met api visits name ∧ sanitize name = key
  apart : ∀ first second, Met api visits first → Met api visits second →
    sanitize first = sanitize second → first = second
  escaped : ∀ key ∈ Table.keys definitions, ∀ c ∈ key.toList, isNameChar c = true

theorem keys_defined (visits : List Visit) :
    Table.keys (defined dialect visits) = (begun visits).map fun entry => sanitize entry.1 := by
  simp only [Table.keys, defined, List.map_map]
  rfl

/-- Behind a run to an empty agenda every name met is there under its sanitized form. -/
theorem get?_of_met (run : Run (WalkStep dialect api) (.start api) visits next)
    (empty : next.pending = []) {name : String} (met : Met api visits name) :
    next.names.get? (sanitize name) = some name := by
  rcases met with listed | ⟨visit, member, named⟩
  · obtain ⟨entry, member, rfl⟩ := List.mem_map.mp listed
    have pending : Position.ofEntry entry ∈ (Agenda.start api).pending :=
      List.mem_append_right _ (List.mem_map_of_mem member)
    obtain ⟨visit, visited, here⟩ := visited_of_pending run empty pending
    exact met_of_visited run visited (by rw [here]; rfl)
  · exact met_of_visited run member named

theorem closed_of_run (marked : api.Marked)
    (run : Run (WalkStep dialect api) (.start api) visits next) (empty : next.pending = []) :
    Closed dialect api visits (defined dialect visits) := by
  have names : next.names = (begun visits).map fun entry => (sanitize entry.1, entry.1) :=
    names_of_run run
  have keys : ∀ key, key ∈ Table.keys next.names ↔ key ∈ Table.keys (defined dialect visits) := by
    intro key
    rw [keys_defined, names, Table.keys, List.map_map]
    rfl
  have kept : ∀ name, Met api visits name → sanitize name ∈ Table.keys (defined dialect visits) :=
    fun name met => (keys _).mp (Table.mem_keys_of_get? (get?_of_met run empty met))
  have sources : ∀ key, key ∈ Table.keys (defined dialect visits) →
      ∃ name, Met api visits name ∧ sanitize name = key := by
    intro key member
    rw [keys_defined] at member
    obtain ⟨entry, begun, rfl⟩ := List.mem_map.mp member
    exact ⟨entry.1, .inr (visited_of_begun run begun), rfl⟩
  refine ⟨?_, ?_, rfl, ?_, ?_, ?_, ?_, ?_, ?_, ?_⟩
  · exact fun position => visited_of_pending run empty
  · exact fun visit member body rendered part => visited_of_content run empty member rendered
  · rw [keys_defined]
    exact nodup_begun run
  · intro entry member
    obtain ⟨source, -, rfl⟩ := List.mem_map.mp member
    simp
  · intro visit member name named
    refine ⟨kept name (.inr ⟨visit, member, named⟩), ?_⟩
    rw [written, named]
    exact refTarget?_decorate (marked_of_visited marked run member) _
  · intro visit member
    exact (carried_of_visited marked (by simp [bare, Table.keys]) run visit member).2.canonicalName
  · intro key
    refine ⟨sources key, ?_⟩
    rintro ⟨name, met, rfl⟩
    exact kept name met
  · intro first second metFirst metSecond same
    have there := get?_of_met run empty metFirst
    rw [same, get?_of_met run empty metSecond] at there
    exact (Option.some.inj there).symm
  · intro key member
    obtain ⟨name, -, rfl⟩ := sources key member
    exact isNameChar_of_mem_sanitize name

/-- Where the walk ends, every run of its trail ends: it is the beginning of the one that ends
there. -/
theorem initial_of_run {last : Agenda} (run : Run (WalkStep dialect api) agenda visits last)
    (stuck : ∀ one next, ¬WalkStep dialect api last one next) {others : List Visit}
    (other : Run (WalkStep dialect api) agenda others next) : others <+: visits := by
  rcases run.comparable WalkStep.deterministic other with ⟨rest, rfl, more⟩ | ⟨rest, rfl, -⟩
  · cases more with
    | done => simp
    | step move => exact absurd move (stuck _ _)
  · exact List.prefix_append _ _

theorem Ends.stuck {result : Except ExportError (Fields × State)} {last : Agenda}
    (ends : Ends dialect api visits last result) : ∀ one next, ¬WalkStep dialect api last one next := by
  intro one next move
  cases result with
  | ok result =>
    obtain ⟨rest, split, -⟩ := move.pending_eq
    have empty := ends.1
    rw [split] at empty
    cases empty
  | error error =>
    have fine := Agenda.failure?_eq_none_iff.mpr (.inr ⟨one, next, move⟩)
    exact absurd (fine.symm.trans ends) (by simp)

/-- The visits of the export of an interface form one finite run. Every run of them is a beginning
of it and renders the definition of no name twice. A schema is written alike wherever it is used, by
the walk and in the text of the paths. The run ends where the export fails, or else nothing is left to
visit, and the document is the text of the paths with a container of definitions, and closed. -/
theorem document_closed (dialect : Dialect) (api : Api) (marked : api.Marked) :
    ∃ visits last, Run (WalkStep dialect api) (.start api) visits last ∧
      (∀ others next, Run (WalkStep dialect api) (.start api) others next → others <+: visits) ∧
      ((begun visits).map Prod.fst).Nodup ∧
      (∀ (table : Definitions) (site : Schema) (state after : State) (text : Json),
        (useSite dialect table site (content dialect table site)).run state = .ok (text, after) →
          text = written dialect (.ofSite site)) ∧
      (∀ (site : Schema) (state after : State) (text : Json),
        (schema dialect api site).run state = .ok (text, after) → text = written dialect (.ofSite site)) ∧
      (∀ site, siteText dialect site = written dialect (.ofSite site)) ∧
      match document dialect api with
      | .ok document =>
        last.pending = [] ∧ document = documentText dialect api (container dialect document) ∧
          Closed dialect api visits (container dialect document)
      | .error error => last.failure? api = some error := by
  obtain ⟨visits, last, run, ends⟩ := walk_trail dialect api
  have once : ((begun visits).map Prod.fst).Nodup := by
    have apart : (((begun visits).map Prod.fst).map sanitize).Nodup := by
      rw [List.map_map]
      exact nodup_begun run
    exact List.Pairwise.of_map sanitize (fun _ _ other same => other (congrArg sanitize same)) apart
  refine ⟨visits, last, run, fun others next other => initial_of_run run ends.stuck other, once,
    fun table site state after text => useSite_answer, fun site state after text => useSite_answer,
    siteText_eq_written, ?_⟩
  cases exported : document dialect api with
  | ok document =>
    obtain ⟨text, after, ran, whole, there⟩ := document_eq_ok exported
    rw [ran] at ends
    refine ⟨ends.1, there ▸ whole, there ▸ ends.2 ▸ closed_of_run marked run ends.1⟩
  | error error =>
    rw [document_eq_error exported] at ends
    exact ends

/-- Two types that refer to each other, and a name that only a response defines. -/
def mutualApi : Api where
  title := "Mutual"
  version := "1"
  paths := [{
    template := "/"
    operations := [(.get, {
      method := .get
      responses := [("200", {
        code := "200"
        description := "OK"
        schema := some ((Schema.namedObject "Page").addProperty "first"
          (.reference "store::Item") true) })] })] }]
  definitions := [
    ("store::Item", (Schema.namedObject "store::Item").addProperty "owner"
      { Schema.reference "Owner" with nullable := true, extensions := [("x-note", bool true)] } true),
    ("Owner", (Schema.namedObject "Owner").addProperty "items" (.array (.reference "store::Item")) true)]

private theorem marked_addProperty {schema property : Schema} (marked : schema.Marked) (inside : property.Marked)
    (name : String) (required : Bool) : (schema.addProperty name property required).Marked := by
  obtain ⟨root, properties, items, variants⟩ := Schema.all_iff.mp marked
  refine Schema.all_iff.mpr ⟨root, ?_, items, variants⟩
  intro entry member
  rcases Table.mem_of_mem_insert member with rfl | member
  · exact inside
  · exact properties entry member

private theorem mutualApi_marked : mutualApi.Marked := by
  have named (name : String) : (Schema.namedObject name).Marked :=
    Schema.all_of_leaf (by simp [Schema.namedObject, Schema.object, Table.keys]) rfl rfl rfl
  have stub (name : String) : (Schema.reference name).Marked :=
    Schema.all_of_leaf (by simp [Schema.reference, Table.keys]) rfl rfl rfl
  refine ⟨?_, ?_⟩
  · intro site used
    obtain rfl := List.mem_singleton.mp used
    exact marked_addProperty (named _) (stub _) _ _
  · intro entry listed
    rcases List.mem_cons.mp listed with rfl | listed
    · refine marked_addProperty (named _) (Schema.all_of_leaf ?_ rfl rfl rfl) _ _
      intro key member
      obtain rfl := List.mem_singleton.mp member
      exact ⟨"note", rfl⟩
    · obtain rfl := List.mem_singleton.mp listed
      refine marked_addProperty (named _) (Schema.all_iff.mpr ⟨?_, ?_, ?_, ?_⟩) _ _
      · simp [Schema.array, Table.keys]
      · simp [Schema.array]
      · intro items present
        cases present
        exact stub _
      · simp [Schema.array]

theorem document_closed_mutual : mutualApi.Marked ∧ ∃ visits document,
    Export.document .v31 mutualApi = .ok document ∧
      Table.keys (container .v31 document) = ["Page", "store_Item", "Owner"] ∧
        Closed .v31 mutualApi visits (container .v31 document) := by
  obtain ⟨visits, _, -, -, -, -, -, -, -, -, closed⟩ := document_closed .v31 mutualApi mutualApi_marked
  refine ⟨mutualApi_marked, visits, _, rfl, rfl, ?_⟩
  exact closed

end Export

end ApiDoc
