import ApiDoc.Proofs.Build.Operations
import ApiDoc.Proofs.Export.Sites
import ApiDoc.Proofs.Schema.Parts

/-! # Stubs in the place of schemas

A build keeps the full schema of a name in the definitions of an interface; wherever else the name
occurs, a stub says enough. `Stubbed` puts stubs in the place of any named nodes of a schema, at any
depth, and of an interface, where only the roots of its definitions have to stay.
-/

namespace ApiDoc

namespace Schema

/-- The stub in the place of a schema: its name, whether it admits null, and its extensions. -/
def stub (schema : Schema) : Schema where
  canonicalName := schema.canonicalName
  nullable := schema.nullable
  extensions := schema.extensions

/-- The second schema is the first one with stubs in the place of some of its named nodes. -/
inductive Stubbed : Schema → Schema → Prop
  | stub {schema : Schema} : schema.canonicalName.isSome = true → Stubbed schema schema.stub
  /-- The schema stays, and `below` relates its parts to those in their places. -/
  | inside {first second : Schema} {below : Schema → Schema → Prop} :
      (∀ part part', below part part' → Stubbed part part') → first.RelatedParts below second →
      Stubbed first second

/-- There may be no stub at all. -/
theorem Stubbed.refl (schema : Schema) : schema.Stubbed schema := by
  induction schema using ofParts with
  | node schema ih =>
    have itself : schema.RelatedParts (fun part part' => part.Part schema ∧ part = part') schema :=
      schema.relatedParts_self fun part inside => ⟨inside, rfl⟩
    refine .inside (fun part part' here => ?_) itself
    obtain ⟨inside, rfl⟩ := here
    exact ih part inside

theorem Stubbed.canonicalName_eq {first second : Schema} (stubbed : first.Stubbed second) :
    second.canonicalName = first.canonicalName := by
  cases stubbed with
  | stub => rfl
  | inside _ related => rw [related.frame]

/-- A schema without a name stays, with stubs below it. -/
theorem Stubbed.parts_of_unnamed {first second : Schema} (stubbed : first.Stubbed second)
    (unnamed : first.canonicalName = none) : first.RelatedParts Stubbed second := by
  cases stubbed with
  | stub named => simp [unnamed] at named
  | inside below related => exact related.imp below

end Schema

/-- The second interface is the first one with stubs in the place of some named nodes of its schemas,
apart from the roots of its definitions. -/
structure Api.Stubbed (api api' : Api) : Prop where
  frame : api' = { api with paths := api'.paths, definitions := api'.definitions }
  paths : List.Forall₂ (PathItem.Related Schema.Stubbed) api.paths api'.paths
  definitions : Table.Related (fun _ => Schema.RelatedParts Schema.Stubbed) api.definitions api'.definitions

variable {site : Schema → Schema → Prop}

theorem Response.Related.sites {response response' : Response} (related : response.Related site response') :
    List.Forall₂ site response.sites response'.sites := by
  exact List.rel_append (forall₂_toList related.schema)
    (List.rel_map (fun _ _ here => here.2) related.headers.values)

theorem Operation.Related.sites {operation operation' : Operation}
    (related : operation.Related site site operation') :
    List.Forall₂ site operation.sites operation'.sites := by
  refine List.rel_append ?_ (List.rel_append ?_ ?_)
  · exact List.rel_map (fun _ _ here => here.2) related.parameters
  · exact forall₂_elim (fun _ _ here => List.rel_map (fun _ _ media => media.2) here.content)
      related.requestBody
  · exact List.rel_flatMap related.responses.values fun _ _ here => here.sites

theorem PathItem.Related.sites {item item' : PathItem} (related : item.Related site item') :
    List.Forall₂ site item.sites item'.sites :=
  List.rel_flatMap related.operations.values fun _ _ here => here.sites

end ApiDoc
