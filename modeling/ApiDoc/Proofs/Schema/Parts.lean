import ApiDoc.Proofs.Schema.Nodes
import ApiDoc.Proofs.Tables

/-! # Schemas with related parts

The parts of a schema are the schemas of its properties, its items and its alternatives. Two schemas
that agree in everything else are compared by their parts (`RelatedParts`), and what holds of a schema
if it holds of its parts holds of every schema (`ofParts`).
-/

namespace ApiDoc.Schema

variable {same same' : Schema → Schema → Prop} {first second : Schema}

/-- Schemas that agree in everything but their parts, which are related. -/
structure RelatedParts (same : Schema → Schema → Prop) (first second : Schema) : Prop where
  frame : second = { first with
    properties := second.properties
    items := second.items
    oneOf := second.oneOf }
  properties : Table.Related (fun _ => same) first.properties second.properties
  items : Option.Rel same first.items second.items
  variants : List.Forall₂ same first.oneOf second.oneOf

theorem RelatedParts.imp (weaker : ∀ first second, same first second → same' first second)
    (related : first.RelatedParts same second) : first.RelatedParts same' second where
  frame := related.frame
  properties := related.properties.imp fun _ => weaker
  items := optionRel_imp weaker related.items
  variants := List.Forall₂.imp weaker related.variants

/-- `Part part schema`: the schema has the part. -/
inductive Part (part schema : Schema) : Prop
  | property {name : String} : (name, part) ∈ schema.properties → Part part schema
  | items : schema.items = some part → Part part schema
  | variant : part ∈ schema.oneOf → Part part schema

theorem Part.sizeOf_lt {part schema : Schema} (inside : part.Part schema) : sizeOf part < sizeOf schema := by
  cases inside with
  | property member =>
    have below := List.sizeOf_lt_of_mem member
    cases schema
    simp only [Prod.mk.sizeOf_spec, mk.sizeOf_spec] at below ⊢
    omega
  | items present =>
    cases schema
    cases present
    simp only [mk.sizeOf_spec, Option.some.sizeOf_spec]
    omega
  | variant member =>
    have below := List.sizeOf_lt_of_mem member
    cases schema
    simp only [mk.sizeOf_spec] at below ⊢
    omega

/-- What every node of a schema has, every node of a part has. -/
theorem All.part {holds : Schema → Prop} {part schema : Schema} (all : schema.All holds)
    (inside : part.Part schema) : part.All holds := by
  cases inside with
  | property member => exact all.properties _ member
  | items present => exact all.items part present
  | variant member => exact all.variants part member

/-- What holds of a schema if it holds of its parts holds of every schema. -/
theorem ofParts {motive : Schema → Prop}
    (node : ∀ schema, (∀ part : Schema, part.Part schema → motive part) → motive schema) (schema : Schema) :
    motive schema :=
  node schema fun part inside =>
    have _smaller := inside.sizeOf_lt
    ofParts node part
termination_by sizeOf schema

/-- A schema is related to itself by what relates its parts to themselves. -/
theorem relatedParts_self (schema : Schema) (itself : ∀ part : Schema, part.Part schema → same part part) :
    schema.RelatedParts same schema where
  frame := by cases schema; rfl
  properties := List.forall₂_same.mpr fun _ member => ⟨rfl, itself _ (.property member)⟩
  items := by
    cases present : schema.items with
    | none => exact .none
    | some items => exact .some (itself items (.items present))
  variants := List.forall₂_same.mpr fun variant member => itself variant (.variant member)

end ApiDoc.Schema
