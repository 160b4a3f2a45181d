import ApiDoc.Proofs.Schema.Faces

/-! # The canonical names in a schema

`NamesIn known schema` says that every canonical name that occurs in a schema, at any depth, is
known. Each operation that builds or rewrites schemas brings in no other names than those of the
schemas it is given; primitive types have none.
-/

namespace ApiDoc

namespace Schema

/-- Every canonical name that occurs in the schema is known. -/
def NamesIn (known : String → Prop) (schema : Schema) : Prop :=
  schema.All fun node => ∀ name, node.canonicalName = some name → known name

variable {known known' : String → Prop} {schema other : Schema}

theorem NamesIn.imp (wider : ∀ name, known name → known' name) (names : schema.NamesIn known) :
    schema.NamesIn known' :=
  All.imp (fun _ here name named => wider name (here name named)) names

/-- A node without a name has the property, and the name is part of its face. -/
theorem names_law (known : String → Prop) :
    NodeLaw fun node => ∀ name, node.canonicalName = some name → known name where
  superficial first second same here name named :=
    here name ((congrArg Face.canonicalName same).trans named)
  plain schema type same _ name named := by
    have unnamed : schema.canonicalName = none := congrArg Face.canonicalName same
    simp [unnamed] at named
  array items name named := by cases named

theorem namesIn_string : Schema.string.NamesIn known := (names_law known).string

theorem namesIn_object : Schema.object.NamesIn known := (names_law known).object

theorem namesIn_named (name : String) (here : known name) : (namedObject name).NamesIn known :=
  all_of_leaf (by simpa [namedObject] using here) rfl rfl rfl

theorem namesIn_reference (name : String) (here : known name) : (reference name).NamesIn known :=
  all_of_leaf (by simpa [reference] using here) rfl rfl rfl

theorem NamesIn.array (names : schema.NamesIn known) : (Schema.array schema).NamesIn known :=
  All.array (names_law known) names

theorem namesIn_ofVariants {variants : List Schema}
    (names : ∀ variant ∈ variants, variant.NamesIn known) : (ofVariants variants).NamesIn known :=
  All.ofVariants (by simp [ofVariants]) names

theorem NamesIn.arrayIf (names : schema.NamesIn known) (wanted : Bool) :
    (Schema.arrayIf wanted schema).NamesIn known :=
  All.arrayIf (names_law known) names wanted

theorem NamesIn.mergeProperties (names : schema.NamesIn known) (inOther : other.NamesIn known) :
    (schema.mergeProperties other).NamesIn known :=
  All.mergeProperties names inOther names.root

end Schema

open Schema

variable {known : String → Prop}

theorem Primitive.schema_namesIn (name : String) : (Primitive.schema name).NamesIn known :=
  (names_law known).primitive name

theorem Field.addProperty_namesIn {base target : Schema} (inBase : base.NamesIn known)
    (inTarget : target.NamesIn known) (field : Field) :
    (field.addProperty base target).NamesIn known :=
  All.addField (names_law known).superficial inBase inTarget field fun _ _ => inTarget.root

end ApiDoc
