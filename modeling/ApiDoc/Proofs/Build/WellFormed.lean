import ApiDoc.Proofs.Build.Reachable
import ApiDoc.Proofs.Type.WellFormed

/-! # Built interfaces are well formed

An object stays consistent whatever property it is given, and parameters are put into objects only:
whatever is to hold nested parameters is made an object or an array of objects first. So all
schemas of an interface are well formed if its tokens come from texts or manifests
(`buildApi_wellFormed`).
-/

namespace ApiDoc

open Schema

theorem consistent_objectLaw : ObjectLaw Schema.Consistent where
  toNodeLaw := consistent_law
  receives _ here object name property _ listed := here.insertProperty object name property listed
  withItems _ items here array :=
    consistent_law.superficial _ _ (face_withItems (here.items.mpr array) items) here

variable {catalog : Catalog} {routes : List RouteDescriptor}

/-- If the tokens of the catalog and of the visible routes were read from texts or manifests, every
node of every schema of the interface is consistent: of parameters, request bodies, responses,
headers and definitions. -/
theorem buildApi_wellFormed (config : Config)
    (inCatalog : ∀ entry ∈ catalog, ∀ field ∈ entry.2.fields, ∀ token, field.Declares token →
      token.Written)
    (inRoutes : ∀ route ∈ routes, route.hidden = false → ∀ token, route.Uses token → token.Written) :
    (buildApi config { catalog } routes).All Schema.Consistent := by
  obtain ⟨history, derived⟩ := session_history catalog (routeCalls routes)
  have branching : catalog.Branching := fun entry listed field member token declares =>
    (inCatalog entry listed field member token declares).branching
  have calls : ∀ call ∈ routeCalls routes, call.task.WellFormed := by
    intro call member
    obtain ⟨token, used, rfl⟩ := List.mem_map.mp member
    obtain ⟨route, visible, inTokens⟩ := List.mem_flatMap.mp used
    obtain ⟨listed, shows⟩ := mem_visibleRoutes.mp visible
    exact (inRoutes route listed shows token (RouteDescriptor.mem_tokens.mp inTokens)).branching
  obtain ⟨answers, definitions⟩ :=
    derived.wellFormed branching calls fun entry member => by cases member
  refine ⟨buildApi_sites consistent_objectLaw config answers, fun entry member => ?_⟩
  rw [buildApi_definitions] at member
  exact definitions entry member

def friends : Catalog :=
  [("Person", {
      name := "Person"
      fields := [.typed "name" "String", .typed "friends" "[Person]"] })]

/-- A route that takes a person with tags and answers it. -/
def friendRoutes : List RouteDescriptor :=
  [{ path := "/people"
     method := .post
     params := [("person", (ParamSpec.typed "Person").located "body"),
       ("person[tags][]", .typed "[Integer, String]")]
     entity := some (.parse "Person") }]

theorem friends_written : ∀ entry ∈ friends, ∀ field ∈ entry.2.fields, ∀ token,
    field.Declares token → token.Written := by
  intro entry listed field member token declares
  obtain rfl := List.mem_singleton.mp listed
  rcases List.mem_cons.mp member with rfl | member
  · cases declares with
    | own declared => exact Option.some.inj declared ▸ .text "String"
    | nested inside => cases inside
  · obtain rfl := List.mem_singleton.mp member
    cases declares with
    | own declared => exact Option.some.inj declared ▸ .text "[Person]"
    | nested inside => cases inside

theorem friendRoutes_written : ∀ route ∈ friendRoutes, route.hidden = false → ∀ token,
    route.Uses token → token.Written := by
  intro route listed _ token uses
  obtain rfl := List.mem_singleton.mp listed
  cases uses with
  | entity answer => exact Option.some.inj answer ▸ .text "Person"
  | model _ member => cases member
  | responseHeader _ _ member => cases member
  | header _ member => cases member
  | parameter entry member _ _ typed =>
    rcases List.mem_cons.mp member with rfl | member
    · exact Option.some.inj typed ▸ .text "Person"
    · obtain rfl := List.mem_singleton.mp member
      exact Option.some.inj typed ▸ .text "[Integer, String]"

/-- The interface of persons is well formed. -/
theorem buildApi_wellFormed_friends :
    (∀ entry ∈ friends, ∀ field ∈ entry.2.fields, ∀ token, field.Declares token → token.Written) ∧
      (∀ route ∈ friendRoutes, route.hidden = false → ∀ token, route.Uses token → token.Written) ∧
        (buildApi {} { catalog := friends } friendRoutes).All Schema.Consistent :=
  ⟨friends_written, friendRoutes_written, buildApi_wellFormed {} friends_written friendRoutes_written⟩

end ApiDoc
