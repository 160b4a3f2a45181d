import ApiDoc.Generator
import ApiDoc.Proofs.Build.Redeclared
import ApiDoc.Proofs.Export.Reordering

/-! # Generated documents

What a generator with the built-in resolvers and versions makes of routes. The order of the routes
decides which types are met first, and so which schemas are stubs, what is merged from a definition
and what is walked anew, and in which order names are defined. Of all this a document shows nothing
but orders (`generate_reordered`), and nothing at all of routes that are declared again
(`generate_redeclared`).
-/

namespace ApiDoc

open Export

/-- No document was generated, because two names are defined under one sanitized form. -/
def Collides (result : Except GenerateError Json) : Prop :=
  ∃ sanitized first second, result = .error (.document (.nameCollision sanitized first second))

namespace Generator

variable {catalog : Catalog} {config : Config} {routes routes' : List RouteDescriptor}
  {version : String}

/-- A generator exports the interface of the routes in the dialect of the version. -/
theorem generate_of_registered (registered : Exporters.builtIn.isRegistered version = true) :
    ∃ dialect, ∀ (catalog : Catalog) (config : Config) (routes : List RouteDescriptor),
      ({ catalog, config } : Generator).generate routes version =
        (document dialect (ApiDoc.buildApi config { catalog } routes)).mapError .document := by
  unfold Exporters.isRegistered Table.contains at registered
  obtain ⟨dialect, found⟩ := Option.isSome_iff_exists.mp registered
  refine ⟨dialect, fun catalog config routes => ?_⟩
  unfold generate exportApi dialect? Exporters.dialect?
  dsimp only
  rw [found]
  rfl

/-- Whether a document is generated depends on the keys of the definitions alone; if not, two of them
collide. -/
theorem generate_cases (registered : Exporters.builtIn.isRegistered version = true) :
    ∃ dialect, ∀ (catalog : Catalog) (config : Config) (routes : List RouteDescriptor),
      (∃ text, document dialect (ApiDoc.buildApi config { catalog } routes) = .ok text ∧
        ({ catalog, config } : Generator).generate routes version = .ok text) ∧
          (ApiDoc.buildApi config { catalog } routes).Separate ∨
      Collides (({ catalog, config } : Generator).generate routes version) ∧
        ¬(ApiDoc.buildApi config { catalog } routes).Separate := by
  obtain ⟨dialect, generated⟩ := generate_of_registered registered
  refine ⟨dialect, fun catalog config routes => ?_⟩
  have known := buildApi_known config catalog routes
  have separate := document_of_known known dialect
  rw [generated]
  cases exported : document dialect (ApiDoc.buildApi config { catalog } routes) with
  | ok text => exact .inl ⟨⟨text, rfl, rfl⟩, separate.mp ⟨text, exported⟩⟩
  | error error =>
    obtain ⟨first, _, second, _, _, _, rfl⟩ := collision_of_error known exported
    refine .inr ⟨⟨_, first, second, rfl⟩, fun apart => ?_⟩
    obtain ⟨text, impossible⟩ := separate.mpr apart
    rw [exported] at impossible
    cases impossible

/-- Routes in another order are documented by the same up to order, or not at all, because names
collide. The visible routes have to have places and ids of their own, no entity may be reached from one
that it merges, and no parameter may be nested in another one whose type mentions an entity. -/
theorem generate_reordered (permuted : routes.Perm routes') (distinguished : Distinguished config routes)
    (forward : catalog.MergesForward) (unmixed : ∀ route ∈ visibleRoutes routes, route.Unmixed catalog)
    (registered : Exporters.builtIn.isRegistered version = true) :
    (∃ text text', ({ catalog, config } : Generator).generate routes version = .ok text ∧
      ({ catalog, config } : Generator).generate routes' version = .ok text' ∧
        text.SameUpToOrder text') ∨
    Collides (({ catalog, config } : Generator).generate routes version) ∧
      Collides (({ catalog, config } : Generator).generate routes' version) := by
  obtain ⟨reordered, distinct, distinct'⟩ := buildApi_reordered forward unmixed distinguished permuted
  have separate_iff : (ApiDoc.buildApi config { catalog } routes).Separate ↔
      (ApiDoc.buildApi config { catalog } routes').Separate := separate_iff_of_reordered reordered
  obtain ⟨dialect, cases⟩ := generate_cases registered
  rcases cases catalog config routes with ⟨⟨text, exported, here⟩, separate⟩ | ⟨here, mixed⟩
  · rcases cases catalog config routes' with ⟨⟨text', exported', there⟩, -⟩ | ⟨-, mixed⟩
    · refine .inl ⟨text, text', here, there, ?_⟩
      exact document_reordered reordered distinct distinct' (buildApi_known config catalog routes)
        (buildApi_known config catalog routes') exported exported'
    · exact absurd (separate_iff.mp separate) mixed
  · rcases cases catalog config routes' with ⟨-, separate⟩ | ⟨there, -⟩
    · exact absurd (separate_iff.mpr separate) mixed
    · exact .inr ⟨here, there⟩

/-- Persons with the parts of a contact, and contacts. -/
def contacts : Catalog :=
  [("Person", {
      name := "Person"
      fields := [{ name := "name", type := some (.named "String") },
        { Field.presentedBy "contact" "Contact" with merge := true }, .presentedBy "partner" "Person"] }),
    ("Contact", { name := "Contact", fields := [{ name := "phone", type := some (.named "String") }] })]

/-- A route that takes a person and answers it, and one that answers a contact. -/
def contactRoutes : List RouteDescriptor :=
  [{ path := "/people"
     method := .post
     operationId := some "createPerson"
     params := [("person", {
         type := some (.named "Person")
         documentation := { location := some "body" } })]
     entity := some (.named "Person") },
    { path := "/contacts"
      method := .get
      operationId := some "showContact"
      entity := some (.named "Contact") }]

theorem contact_reaches_no_person : ¬contacts.Reaches "Contact" "Person" := by
  intro reaches
  rcases reaches.eq_or_through with same | ⟨entity, listed, field, member, between, mentions, later⟩
  · exact absurd same (by decide)
  · cases listed
    obtain rfl := List.mem_singleton.mp member
    obtain rfl : between = "String" := by
      cases mentions with
      | presenter presented => cases presented
      | merged _ merges => cases merges.1
      | nested _ _ inside => cases inside
      | declared _ _ _ declared names =>
        cases declared
        cases names
        rfl
    rcases later.eq_or_through with same | ⟨entity, listed, -⟩
    · exact absurd same (by decide)
    · cases listed

theorem contacts_mergesForward : contacts.MergesForward := by
  intro name entity listed field member target _ merges
  have entry := Table.mem_of_get? listed
  simp only [contacts, List.mem_cons, List.not_mem_nil, or_false, Prod.mk.injEq] at entry
  rcases entry with ⟨rfl, rfl⟩ | ⟨rfl, rfl⟩
  · simp only [List.mem_cons, List.not_mem_nil, or_false] at member
    rcases member with rfl | rfl | rfl
    · cases merges with
      | here merge => cases merge
      | nested inside => cases inside
    · cases merges with
      | here _ presented =>
        cases presented
        exact contact_reaches_no_person
      | nested inside => cases inside
    · cases merges with
      | here merge => cases merge
      | nested inside => cases inside
  · obtain rfl := List.mem_singleton.mp member
    cases merges with
    | here merge => cases merge
    | nested inside => cases inside

theorem contactRoutes_distinguished : Distinguished {} contactRoutes where
  places := by decide
  named route visible := by
    have listed := (mem_visibleRoutes.mp visible).1
    simp only [contactRoutes, List.mem_cons, List.not_mem_nil, or_false] at listed
    rcases listed with rfl | rfl <;> exact ⟨_, rfl⟩
  ids := by decide

theorem contactRoutes_unmixed : ∀ route ∈ visibleRoutes contactRoutes, route.Unmixed contacts := by
  intro route visible
  have listed := (mem_visibleRoutes.mp visible).1
  simp only [contactRoutes, List.mem_cons, List.not_mem_nil, or_false] at listed
  rcases listed with rfl | rfl
  · exact List.pairwise_singleton _ _
  · exact .nil

theorem contactRoutes_documented :
    (({ catalog := contacts } : Generator).generate contactRoutes "3.1").isOk = true := by
  decide +kernel

/-- Described from its last route to its first one, the interface of persons and contacts has the same
document up to order. -/
theorem generate_reordered_contacts :
    contactRoutes.Perm contactRoutes.reverse ∧ Distinguished {} contactRoutes ∧ contacts.MergesForward ∧
      (∀ route ∈ visibleRoutes contactRoutes, route.Unmixed contacts) ∧
        Exporters.builtIn.isRegistered "3.1" = true ∧
          ∃ text text', ({ catalog := contacts } : Generator).generate contactRoutes "3.1" = .ok text ∧
            ({ catalog := contacts } : Generator).generate contactRoutes.reverse "3.1" = .ok text' ∧
              text.SameUpToOrder text' := by
  have permuted : contactRoutes.Perm contactRoutes.reverse := (List.reverse_perm _).symm
  have registered : Exporters.builtIn.isRegistered "3.1" = true := by decide
  refine ⟨permuted, contactRoutes_distinguished, contacts_mergesForward, contactRoutes_unmixed,
    registered, ?_⟩
  rcases generate_reordered permuted contactRoutes_distinguished contacts_mergesForward
    contactRoutes_unmixed registered with documents | ⟨⟨_, _, _, collides⟩, -⟩
  · exact documents
  · have documented := contactRoutes_documented
    rw [collides] at documented
    cases documented

/-- Routes that are all declared again give what they gave before in every version, one document or one
error. No two visible routes may have one place, and no parameter may be nested in another one whose type
mentions an entity. -/
theorem generate_redeclared (distinct : ((visibleRoutes routes).map (RouteDescriptor.place config)).Nodup)
    (unmixed : ∀ route ∈ visibleRoutes routes, route.Unmixed catalog) (exporters : Exporters)
    (version : String) :
    ({ catalog, config, exporters } : Generator).generate (routes ++ routes) version =
      ({ catalog, config, exporters } : Generator).generate routes version := by
  have exchanged := buildApi_redeclared distinct unmixed fun _ visible => visible
  have known := buildApi_known config catalog routes
  have same (dialect : Dialect) :
      document dialect (ApiDoc.buildApi config { catalog } (routes ++ routes)) =
        document dialect (ApiDoc.buildApi config { catalog } routes) :=
    (alike_exchange dialect).document_eq known exchanged
  unfold generate exportApi buildApi lexicon
  dsimp only
  simp only [same]

/-- Routes that ask for one id, the first of which takes a person with a note. -/
def savingRoutes : List RouteDescriptor :=
  [{ path := "/people"
     method := .post
     operationId := some "save"
     params := [("person", {
         type := some (.named "Person")
         documentation := { location := some "body" } }), ("note", .typed "String")]
     entity := some (.named "Person") },
    { path := "/contacts"
      method := .post
      operationId := some "save"
      entity := some (.named "Contact") }]

/-- Declared twice, they have the document that they have if they are declared once. -/
theorem generate_redeclared_saving :
    ((visibleRoutes savingRoutes).map (RouteDescriptor.place {})).Nodup ∧
      (∀ route ∈ visibleRoutes savingRoutes, route.Unmixed contacts) ∧
      (({ catalog := contacts } : Generator).generate savingRoutes "2.0").isOk = true ∧
      ({ catalog := contacts } : Generator).generate (savingRoutes ++ savingRoutes) "2.0" =
        ({ catalog := contacts } : Generator).generate savingRoutes "2.0" := by
  have distinct : ((visibleRoutes savingRoutes).map (RouteDescriptor.place {})).Nodup := by decide
  have unmixed : ∀ route ∈ visibleRoutes savingRoutes, route.Unmixed contacts := by
    intro route visible
    have listed := (mem_visibleRoutes.mp visible).1
    simp only [savingRoutes, List.mem_cons, List.not_mem_nil, or_false] at listed
    rcases listed with rfl | rfl
    · exact List.pairwise_pair.mpr ⟨fun _ => by decide, fun _ => by decide⟩
    · exact .nil
  exact ⟨distinct, unmixed, by decide +kernel, generate_redeclared distinct unmixed _ "2.0"⟩

end Generator

end ApiDoc
