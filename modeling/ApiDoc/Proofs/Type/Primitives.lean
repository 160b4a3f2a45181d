import ApiDoc.Proofs.Schema.Faces
import ApiDoc.Proofs.Type.Levels

/-! # Primitive types

A token is primitive if its names are left to the resolver of primitive names, alone or inside
arrays and choices. It resolves to the schema that the table of primitive names gives, whatever was
introspected before (`resolveWith?_primitive`), and nothing is documented in that schema
(`primitiveSchema_silent`).
-/

namespace ApiDoc

/-- The names of a token are left to the resolver of primitive names. -/
inductive IsPrimitive (answering : TypeToken → Option Resolver) : TypeToken → Prop
  | direct {token : TypeToken} : answering token = some .primitive → IsPrimitive answering token
  | array {item : TypeToken} : answering (.arrayOf item) = some .array → IsPrimitive answering item →
      IsPrimitive answering (.arrayOf item)
  | oneOf {variants : List TypeToken} : answering (.oneOf variants) = some .oneOf →
      (∀ variant ∈ variants, IsPrimitive answering variant) → IsPrimitive answering (.oneOf variants)

variable {lexicon : Lexicon} {token : TypeToken}

/-- Alternatives that resolve to what the table gives do so in turn. -/
theorem resolveAllWith_primitive (deeper : Descent) {variants : List TypeToken}
    (each : ∀ variant ∈ variants,
      lexicon.resolveWith? deeper variant = pure (some variant.primitiveSchema)) :
    lexicon.resolveAllWith deeper variants = pure (TypeToken.primitiveSchemas variants) := by
  induction variants with
  | nil => rw [Lexicon.resolveAllWith, TypeToken.primitiveSchemas]
  | cons variant rest ih =>
    obtain ⟨first, others⟩ := List.forall_mem_cons.mp each
    rw [Lexicon.resolveAllWith, first, pure_bind, ih others, pure_bind, TypeToken.primitiveSchemas]
    rfl

/-- A primitive token resolves to what the table gives. -/
theorem resolveWith?_primitive (deeper : Descent)
    (primitive : IsPrimitive (lexicon.chain.answering? lexicon.catalog) token) :
    lexicon.resolveWith? deeper token = pure (some token.primitiveSchema) := by
  induction primitive with
  | direct answered => exact Lexicon.resolveWith?_of_primitive answered deeper
  | array answered _ ih =>
    simp only [Lexicon.resolveWith?_arrayOf, answered, ih, pure_bind, TypeToken.primitiveSchema,
      Option.getD_some]
  | oneOf answered _ each =>
    simp only [Lexicon.resolveWith?_oneOf, answered, resolveAllWith_primitive deeper each, pure_bind,
      TypeToken.primitiveSchema]

mutual

/-- Without entities every token is primitive to the built-in chain. -/
theorem isPrimitive_builtIn : ∀ token : TypeToken, IsPrimitive (Chain.builtIn.answering? []) token
  | .named name => .direct (builtIn_named [] name)
  | .arrayOf item => .array rfl (isPrimitive_builtIn item)
  | .oneOf variants => .oneOf rfl (all_isPrimitive_builtIn variants)

/-- Without entities all of several tokens are primitive to the built-in chain. -/
theorem all_isPrimitive_builtIn : ∀ variants : List TypeToken,
    ∀ variant ∈ variants, IsPrimitive (Chain.builtIn.answering? []) variant
  | [] => List.forall_mem_nil _
  | first :: rest =>
    List.forall_mem_cons.mpr ⟨isPrimitive_builtIn first, all_isPrimitive_builtIn rest⟩

end

/-- Nothing is documented in a schema. -/
structure Schema.Silent (schema : Schema) : Prop where
  description : schema.description = none
  exampleValue : schema.exampleValue = none
  extensions : schema.extensions = []

theorem schema?_silent {name : String} {schema : Schema} (known : Primitive.schema? name = some schema) :
    schema.Silent := by
  unfold Primitive.schema? at known
  split at known <;> cases known <;> exact ⟨rfl, rfl, rfl⟩

/-- The table documents nothing. -/
theorem primitiveSchema_silent (token : TypeToken) : token.primitiveSchema.Silent := by
  cases token with
  | arrayOf | oneOf =>
    rw [TypeToken.primitiveSchema]
    exact ⟨rfl, rfl, rfl⟩
  | named name =>
    rw [TypeToken.primitiveSchema]
    rcases Schema.primitive_cases name with string | ⟨listed, known⟩
    · exact string ▸ ⟨rfl, rfl, rfl⟩
    · exact schema?_silent known

end ApiDoc
