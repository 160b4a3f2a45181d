import ApiDoc.Type.Introspection

/-! # Chains that answer alike

Two chains over the same entities may differ in resolvers that never answer. If the ones that do
answer cannot tell the chains apart either, every token is answered by the same resolver in the same
way (`Lexicon.Concurs`). What a resolver resolves in turn goes through the chain again, one level
deeper, so whatever is resolved or introspected is the same at every depth (`descent_eq`).
-/

namespace ApiDoc

variable {κ : Type} [TypeResolver κ]

/-- Two lexicons have the same entities, and the same resolvers of theirs answer tokens alike. -/
structure Lexicon.Concurs (lexicon other : Lexicon κ) : Prop where
  catalog : other.catalog = lexicon.catalog
  choose? : ∀ deeper progress token,
    other.chain.choose? (other.around deeper) progress token =
      lexicon.chain.choose? (lexicon.around deeper) progress token
  build : ∀ resolver, .custom resolver ∈ lexicon.chain → ∀ deeper token,
    TypeResolver.build resolver (other.around deeper) token =
      TypeResolver.build resolver (lexicon.around deeper) token

variable {lexicon other : Lexicon κ}

namespace Field

theorem exposeWith_congr (same : other.catalog = lexicon.catalog) (deeper : Descent)
    (inline : Build Schema) (field : Field) (target : Schema) :
    field.exposeWith other deeper inline target = field.exposeWith lexicon deeper inline target := by
  simp only [exposeWith, mergedSchema, same]

mutual

/-- Of a lexicon, fields see the entities only. -/
theorem expose_congr (same : other.catalog = lexicon.catalog) (deeper : Descent) :
    ∀ (field : Field) (target : Schema),
      field.expose other deeper target = field.expose lexicon deeper target
  | { nested := parts, .. }, target => by
    rw [expose, expose, exposeAll_congr same deeper parts, exposeWith_congr same]

theorem exposeAll_congr (same : other.catalog = lexicon.catalog) (deeper : Descent) :
    ∀ (fields : List Field) (target : Schema),
      exposeAll other deeper fields target = exposeAll lexicon deeper fields target
  | [], target => by rw [exposeAll, exposeAll]
  | field :: rest, target => by
    rw [exposeAll, exposeAll, expose_congr same deeper field target]
    exact congrArg _ (funext fun between => exposeAll_congr same deeper rest between)

end

end Field

namespace Lexicon.Concurs

/-- What is done with the resolver that answers a token needs to be the same for those of the chain. -/
theorem choose?_bind {α : Type} (concurs : lexicon.Concurs other) {deeper : Descent}
    {token : TypeToken} {behind behindOther : Option (Resolver κ) → Build α}
    (same : ∀ answering, (∀ resolver, answering = some resolver → resolver ∈ lexicon.chain) →
      behindOther answering = behind answering) :
    other.choose? deeper token >>= behindOther = lexicon.choose? deeper token >>= behind := by
  funext progress
  change behindOther (other.chain.choose? (other.around deeper) progress token) progress =
    behind (lexicon.chain.choose? (lexicon.around deeper) progress token) progress
  rw [concurs.choose?, same]
  exact fun resolver found => List.mem_of_find?_eq_some found

theorem plainSchema?_eq (concurs : lexicon.Concurs other) (deeper : Descent) (name : String) :
    other.plainSchema? deeper name = lexicon.plainSchema? deeper name := by
  refine concurs.choose?_bind fun answering listed => ?_
  rcases answering with - | (- | - | - | - | resolver)
  case some.custom => simp only [concurs.build resolver (listed _ rfl)]
  all_goals rfl

theorem visitEntity_eq (concurs : lexicon.Concurs other) (deeper : Descent) (name : String) :
    other.visitEntity deeper name = lexicon.visitEntity deeper name := by
  simp only [visitEntity, concurs.catalog, concurs.plainSchema?_eq,
    Field.exposeAll_congr concurs.catalog]

mutual

theorem resolveWith?_eq (concurs : lexicon.Concurs other) (deeper : Descent) :
    ∀ token, other.resolveWith? deeper token = lexicon.resolveWith? deeper token
  | .named name => by
    rw [resolveWith?, resolveWith?, concurs.plainSchema?_eq, concurs.visitEntity_eq]
    exact concurs.choose?_bind fun _ _ => rfl
  | .arrayOf item => by
    rw [resolveWith?, resolveWith?, resolveWith?_eq concurs deeper item]
    refine concurs.choose?_bind fun answering listed => ?_
    rcases answering with - | (- | - | - | - | resolver)
    case some.custom => simp only [concurs.build resolver (listed _ rfl)]
    all_goals rfl
  | .oneOf variants => by
    rw [resolveWith?, resolveWith?, resolveAllWith_eq concurs deeper variants]
    refine concurs.choose?_bind fun answering listed => ?_
    rcases answering with - | (- | - | - | - | resolver)
    case some.custom => simp only [concurs.build resolver (listed _ rfl)]
    all_goals rfl

theorem resolveAllWith_eq (concurs : lexicon.Concurs other) (deeper : Descent) :
    ∀ tokens, other.resolveAllWith deeper tokens = lexicon.resolveAllWith deeper tokens
  | [] => by rw [resolveAllWith, resolveAllWith]
  | first :: rest => by
    rw [resolveAllWith, resolveAllWith, resolveWith?_eq concurs deeper first,
      resolveAllWith_eq concurs deeper rest]

end

/-- One level below another, the same is resolved. -/
theorem descent_eq (concurs : lexicon.Concurs other) (levels : Nat) :
    other.descent levels = lexicon.descent levels := by
  induction levels with
  | zero => rfl
  | succ levels ih =>
    simp only [descent, ih, Descent.mk.injEq]
    exact ⟨funext (concurs.visitEntity_eq _), funext (concurs.resolveWith?_eq _)⟩

theorem resolveWithin?_eq (concurs : lexicon.Concurs other) (levels : Nat) (token : TypeToken) :
    other.resolveWithin? levels token = lexicon.resolveWithin? levels token := by
  rw [resolveWithin?, resolveWithin?, concurs.descent_eq, concurs.resolveWith?_eq]

theorem entityWithin_eq (concurs : lexicon.Concurs other) (levels : Nat) (name : String) :
    other.entityWithin levels name = lexicon.entityWithin levels name := by
  rw [entityWithin, entityWithin, concurs.descent_eq, concurs.visitEntity_eq]

end Lexicon.Concurs

end ApiDoc
