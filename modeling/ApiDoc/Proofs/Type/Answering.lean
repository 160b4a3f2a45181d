import ApiDoc.Type.Introspection

/-! # Resolvers that look at the token only

A custom resolver asks nothing of the build that it works for. Which resolver of a chain answers a
token is then settled by the catalog alone (`choose?_eq_answering?`), and what the chain resolves a
token to is read off that resolver.
-/

namespace ApiDoc

/-- A build of which nothing but the entities is seen. -/
def Surroundings.ofCatalog (catalog : Catalog) : Surroundings where
  names := []
  catalog := catalog
  deeper := { entity := fun _ => pure .string, token? := fun _ => pure none }

theorem Resolver.handles_ofCatalog (resolver : Resolver) (around : Surroundings) (progress : Progress)
    (token : TypeToken) :
    resolver.handles around progress token =
      resolver.handles (.ofCatalog around.catalog) {} token := by
  cases resolver <;> cases token <;> rfl

def Chain.answering? (chain : Chain) (catalog : Catalog) (token : TypeToken) : Option Resolver :=
  chain.choose? (.ofCatalog catalog) {} token

theorem Chain.choose?_eq_answering? (chain : Chain) (around : Surroundings) (progress : Progress)
    (token : TypeToken) :
    chain.choose? around progress token = chain.answering? around.catalog token := by
  unfold answering? choose?
  simp only [Resolver.handles_ofCatalog _ around progress]

namespace Lexicon

theorem choose?_eq (lexicon : Lexicon) (deeper : Descent) (token : TypeToken) :
    lexicon.choose? deeper token = pure (lexicon.chain.answering? lexicon.catalog token) := by
  funext progress
  exact congrArg (·, progress) (Chain.choose?_eq_answering? ..)

theorem plainSchema?_eq (lexicon : Lexicon) (deeper : Descent) (name : String) :
    lexicon.plainSchema? deeper name =
      match lexicon.chain.answering? lexicon.catalog (.named name) with
      | some .primitive => return some (Primitive.schema name)
      | some (.custom resolver) => return some (← resolver.reply.answer deeper)
      | _ => return none := by
  rw [plainSchema?, choose?_eq, pure_bind]
  rcases lexicon.chain.answering? lexicon.catalog (.named name) with - | (- | - | - | - | -) <;> rfl

theorem resolveWith?_named (lexicon : Lexicon) (deeper : Descent) (name : String) :
    lexicon.resolveWith? deeper (.named name) =
      match lexicon.chain.answering? lexicon.catalog (.named name) with
      | some .entity => return some (← lexicon.visitEntity deeper name)
      | _ => lexicon.plainSchema? deeper name := by
  rw [resolveWith?, choose?_eq, pure_bind]
  rcases lexicon.chain.answering? lexicon.catalog (.named name) with - | (- | - | - | - | -) <;> rfl

theorem resolveWith?_arrayOf (lexicon : Lexicon) (deeper : Descent) (item : TypeToken) :
    lexicon.resolveWith? deeper (.arrayOf item) =
      match lexicon.chain.answering? lexicon.catalog (.arrayOf item) with
      | some .array => return some (.array ((← lexicon.resolveWith? deeper item).getD .string))
      | some (.custom resolver) => return some (← resolver.reply.answer deeper)
      | some _ => return some (TypeToken.primitiveSchema (.arrayOf item))
      | none => return none := by
  rw [resolveWith?, choose?_eq, pure_bind]
  rcases lexicon.chain.answering? lexicon.catalog (.arrayOf item) with - | (- | - | - | - | -) <;> rfl

theorem resolveWith?_oneOf (lexicon : Lexicon) (deeper : Descent) (variants : List TypeToken) :
    lexicon.resolveWith? deeper (.oneOf variants) =
      match lexicon.chain.answering? lexicon.catalog (.oneOf variants) with
      | some .oneOf => return some (.ofVariants (← lexicon.resolveAllWith deeper variants))
      | some (.custom resolver) => return some (← resolver.reply.answer deeper)
      | some _ => return some (TypeToken.primitiveSchema (.oneOf variants))
      | none => return none := by
  rw [resolveWith?, choose?_eq, pure_bind]
  rcases lexicon.chain.answering? lexicon.catalog (.oneOf variants) with - | (- | - | - | - | -) <;> rfl

variable {lexicon : Lexicon} {token : TypeToken}

theorem resolveWith?_of_primitive
    (answered : lexicon.chain.answering? lexicon.catalog token = some .primitive) (deeper : Descent) :
    lexicon.resolveWith? deeper token = pure (some token.primitiveSchema) := by
  cases token <;>
    simp only [resolveWith?_named, plainSchema?_eq, resolveWith?_arrayOf, resolveWith?_oneOf, answered,
      TypeToken.primitiveSchema]

theorem resolveWith?_of_custom {resolver : CustomResolver}
    (answered : lexicon.chain.answering? lexicon.catalog token = some (.custom resolver))
    (deeper : Descent) :
    lexicon.resolveWith? deeper token = return some (← resolver.reply.answer deeper) := by
  cases token <;>
    simp only [resolveWith?_named, plainSchema?_eq, resolveWith?_arrayOf, resolveWith?_oneOf, answered]

theorem resolveWith?_of_none (missed : lexicon.chain.answering? lexicon.catalog token = none)
    (deeper : Descent) : lexicon.resolveWith? deeper token = pure none := by
  cases token <;>
    simp only [resolveWith?_named, plainSchema?_eq, resolveWith?_arrayOf, resolveWith?_oneOf, missed]

end Lexicon

end ApiDoc
