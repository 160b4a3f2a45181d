import ApiDoc.Proofs.Build.Interface

/-! # The canonical names in a built interface

That every canonical name leads to a definition is a law of schemas: what operations do to schemas
brings in no names, and what a build resolves has names of definitions only. So every canonical
name that occurs in a built interface, at any depth, is a key of its definitions
(`buildApi_known`).
-/

namespace ApiDoc

open Schema

/-- Neither properties nor items change the name of a node. -/
theorem names_objectLaw (known : String → Prop) :
    ObjectLaw fun node => ∀ name, node.canonicalName = some name → known name where
  toNodeLaw := names_law known
  receives _ here _ _ _ _ _ := here
  withItems _ _ here _ := here

/-- Every canonical name that occurs in the interface is a key of its definitions. -/
def Api.Known (api : Api) : Prop :=
  api.All fun node => ∀ name, node.canonicalName = some name → name ∈ Table.keys api.definitions

/-- In a built interface every canonical name leads to a definition. -/
theorem buildApi_known (config : Config) (catalog : Catalog) (routes : List RouteDescriptor) :
    (buildApi config { catalog } routes).Known := by
  obtain ⟨history, derived⟩ := session_history catalog (routeCalls routes)
  obtain ⟨settled, names⟩ := derived.settled settled_empty
  unfold Api.Known
  rw [buildApi_definitions]
  refine ⟨buildApi_sites (names_objectLaw _) config names, fun entry member => ?_⟩
  rw [buildApi_definitions] at member
  exact settled.closed entry member

end ApiDoc
