import ApiDoc.Proofs.Export.Outcome
import ApiDoc.Proofs.Export.SameText
import ApiDoc.Proofs.Export.Success
import ApiDoc.Proofs.Schema.Stubs

/-! # Schemas that an export takes for each other

Two interfaces may differ in schemas that have one text and one name where they are used, and whose
parts differ in no other way (`Exchange`). Then the walks of both go side by side: they visit the same
names in the same order, whatever the positions hold beside them. So both export one document, or fail
for one reason (`Exchange.document_eq`).
-/

namespace ApiDoc

/-- Interfaces that agree in everything but their schemas: `use` relates those of the paths, and `body`
the definitions. -/
structure Api.Exchanged (use body : Schema → Schema → Prop) (api api' : Api) : Prop where
  frame : api' = { api with paths := api'.paths, definitions := api'.definitions }
  paths : List.Forall₂ (PathItem.Related use) api.paths api'.paths
  definitions : Table.Related (fun _ => body) api.definitions api'.definitions

namespace Export

open Json Schema

/-- An export takes the schemas for each other that `use` relates, where they are used, and the
definitions that `body` relates. -/
structure Exchange (dialect : Dialect) (use body : Schema → Schema → Prop) : Prop where
  sameText : ∀ first second, use first second → SameText dialect first second
  sameName : ∀ first second, use first second → second.canonicalName = first.canonicalName
  /-- The walk goes into a schema without a name. -/
  unnamed : ∀ first second, use first second → first.canonicalName = none → body first second
  sameBody : ∀ first second, body first second → plainBody dialect first = plainBody dialect second
  inside : ∀ first second, body first second →
    List.Forall₂ use (parts dialect first) (parts dialect second)

variable {dialect : Dialect} {use body : Schema → Schema → Prop} {api api' : Api}
  {agenda agenda' next : Agenda} {visits visits' : List Visit} {one : Visit} {first second : Schema}

/-- The parts that an export shows of schemas with related parts are related. -/
theorem parts_related (related : first.RelatedParts use second) :
    List.Forall₂ use (parts dialect first) (parts dialect second) := by
  have sameType : second.isType .array = first.isType .array := by
    rw [related.frame]
    rfl
  refine List.rel_append ?_ (List.rel_append related.properties.values ?_)
  · unfold shownVariants
    split
    · exact related.variants
    · exact List.forall₂_take 1 related.variants
  · unfold shownItems
    rw [sameType]
    split
    · exact forall₂_toList related.items
    · exact .nil

/-- Positions with one name, or without a name and with related parts. -/
inductive Position.Matches (dialect : Dialect) (use : Schema → Schema → Prop) : Position → Position → Prop
  | named (name : String) (schema schema' : Schema) :
      Matches dialect use ⟨some name, schema⟩ ⟨some name, schema'⟩
  | unnamed {schema schema' : Schema} :
      List.Forall₂ use (parts dialect schema) (parts dialect schema') →
      Matches dialect use ⟨none, schema⟩ ⟨none, schema'⟩

/-- Visits that begin one name with related definitions, or none. -/
def Visit.Matches (body : Schema → Schema → Prop) (first second : Visit) : Prop :=
  Option.Rel (fun entry entry' => entry.1 = entry'.1 ∧ body entry.2 entry'.2) first.begun second.begun

/-- Agendas with the same names met and matching positions to visit. The schemas of the first one have
names of definitions only. -/
structure Agenda.Matches (dialect : Dialect) (use : Schema → Schema → Prop) (api : Api)
    (first second : Agenda) : Prop where
  names : second.names = first.names
  pending : List.Forall₂ (Position.Matches dialect use) first.pending second.pending
  carries : first.Carries api fun node =>
    ∀ name, node.canonicalName = some name → name ∈ Table.keys api.definitions

/-- Under a name of the definitions both interfaces have a definition, and these are related. -/
theorem body?_exchanged (exchanged : api.Exchanged use body api') {name : String}
    (listed : name ∈ Table.keys api.definitions) (schema schema' : Schema) : ∃ found found',
      body? api name schema = some found ∧ body? api' name schema' = some found' ∧ body found found' := by
  rcases exchanged.definitions.get? name with ⟨missing, -⟩ | ⟨found, found', here, there, related⟩
  · exact absurd listed (Table.get?_eq_none_iff.mp missing)
  · exact ⟨found, found', by simp [body?, here], by simp [body?, there], related⟩

/-- At matching agendas both walks fail for one reason, or neither does. -/
theorem failure?_exchanged (exchanged : api.Exchanged use body api')
    (here : agenda.Matches dialect use api agenda') : agenda'.failure? api' = agenda.failure? api := by
  obtain ⟨pending', names'⟩ := agenda'
  obtain ⟨pending, names⟩ := agenda
  obtain ⟨sameNames, positions, carries⟩ := here
  cases sameNames
  cases positions with
  | nil => rfl
  | cons atHead _ =>
    cases atHead with
    | unnamed => rfl
    | named name schema schema' =>
      obtain ⟨inside, source⟩ := carries ⟨some name, schema⟩ List.mem_cons_self
      obtain ⟨found, found', defined, defined', -⟩ :=
        body?_exchanged exchanged (known_of_named source inside rfl) schema schema'
      unfold Agenda.failure?
      simp only [defined, defined', Option.isNone_some]

section
variable (exchange : Exchange dialect use body)
include exchange

theorem Exchange.ofSite (related : use first second) :
    (Position.ofSite first).Matches dialect use (.ofSite second) := by
  unfold Position.ofSite
  rw [exchange.sameName _ _ related]
  cases here : first.canonicalName with
  | none => exact .unnamed (exchange.inside _ _ (exchange.unnamed _ _ related here))
  | some name => exact .named name first second

theorem Exchange.ofSites {sites sites' : List Schema} (related : List.Forall₂ use sites sites') :
    List.Forall₂ (Position.Matches dialect use) (sites.map .ofSite) (sites'.map .ofSite) :=
  List.rel_map (fun _ _ here => exchange.ofSite here) related

theorem Exchange.start (known : api.Known) (exchanged : api.Exchanged use body api') :
    (Agenda.start api).Matches dialect use api (.start api') where
  names := rfl
  pending := by
    refine List.rel_append ?_ (List.rel_map ?_ exchanged.definitions)
    · exact exchange.ofSites (List.rel_flatMap exchanged.paths fun _ _ here => here.sites)
    · rintro ⟨name, definition⟩ ⟨_, definition'⟩ ⟨rfl, -⟩
      exact .named name definition definition'
  carries := Agenda.start_carries known

/-- A step of the first walk is one of the second walk, too. -/
theorem Exchange.step (known : api.Known) (exchanged : api.Exchanged use body api')
    (move : WalkStep dialect api agenda one next) (here : agenda.Matches dialect use api agenda') :
    ∃ one' next', WalkStep dialect api' agenda' one' next' ∧ one.Matches body one' ∧
      next.Matches dialect use api next' := by
  obtain ⟨pending', names'⟩ := agenda'
  obtain ⟨sameNames, pending, carries⟩ := here
  have later := WalkStep.carries known (by simp [bare]) _ _ _ move carries
  cases sameNames
  cases move with
  | inline =>
    cases pending with
    | cons atHead others =>
      cases atHead with
      | unnamed inside =>
        exact ⟨_, _, .inline, .none, rfl, List.rel_append (exchange.ofSites inside) others, later⟩
  | known met =>
    cases pending with
    | cons atHead others =>
      cases atHead with
      | named => exact ⟨_, _, .known met, .none, rfl, others, later⟩
  | @fresh name schema content rest names free found =>
    cases pending with
    | cons atHead others =>
      cases atHead with
      | named _ _ schema' =>
        obtain ⟨inside, source⟩ := carries ⟨some name, schema⟩ List.mem_cons_self
        obtain ⟨_, content', defined, defined', related⟩ :=
          body?_exchanged exchanged (known_of_named source inside rfl) schema schema'
        obtain rfl := Option.some.inj (found.symm.trans defined)
        have parts := exchange.ofSites (exchange.inside _ _ related)
        exact ⟨_, _, .fresh free defined', .some ⟨rfl, related⟩, rfl, List.rel_append parts others, later⟩

theorem Exchange.defined_eq (matched : List.Forall₂ (Visit.Matches body) visits visits') :
    defined dialect visits = defined dialect visits' := by
  have entries := List.rel_filterMap (fun _ _ here => here) matched
  refine map_eq_of_forall₂ (fun entry entry' here => ?_) entries
  rw [here.1, exchange.sameBody _ _ here.2]

theorem Exchange.documentText_eq (exchanged : api.Exchanged use body api') :
    documentText dialect api' = documentText dialect api := by
  have paths : pathTexts dialect api.paths [] = pathTexts dialect api'.paths [] := by
    refine pathTexts_eq (List.Forall₂.imp (fun _ _ here => ?_) exchanged.paths) []
    exact here.imp exchange.sameText
  have head : dialect.head api' = dialect.head api := by
    rw [exchanged.frame]
    cases dialect <;> rfl
  funext definitions
  unfold documentText
  rw [← paths, head, exchanged.frame]

/-- If every canonical name of an interface leads to a definition, schemas that are exchanged change
nothing of what it exports, neither a document nor an error. -/
theorem Exchange.document_eq (known : api.Known) (exchanged : api.Exchanged use body api') :
    document dialect api' = document dialect api := by
  obtain ⟨visits, last, run, stuck, exported⟩ := document_trail dialect api
  obtain ⟨visits', last', run', sameVisits, here⟩ :=
    run.matched (fun _ _ _ _ move => exchange.step known exchanged move) (exchange.start known exchanged)
  have failed := failure?_exchanged exchanged here
  have stuck' : last'.Stuck dialect api' := by
    rw [Agenda.stuck_iff] at stuck ⊢
    rw [failed]
    exact stuck.imp_left fun empty => List.forall₂_nil_left_iff.mp (empty ▸ here.pending)
  rw [exported, document_of_run run' stuck']
  unfold outcome
  rw [failed, exchange.documentText_eq exchanged, exchange.defined_eq sameVisits]

end

end Export

end ApiDoc
