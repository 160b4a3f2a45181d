import ApiDoc.Schema.Primitive
import ApiDoc.Type.Chain
import ApiDoc.Type.Progress

/-! # Resolving types and introspecting entities

The meaning of a type name depends on the resolver chain and on the catalog. The first time a
build meets an entity it walks the fields and answers the full schema; afterwards, and while the
walk is still going on, it answers a reference stub. A merge field takes over the parts of a
complete entity from its definition, and nothing from one that is still being walked.

Tokens and nested fields are walked by recursion on themselves. Going into another entity and
whatever a resolver that is not built in resolves are left to a `Descent`, the resolution one level
deeper; `Lexicon.descent` stacks levels.
-/

namespace ApiDoc

/-- What type names mean: a resolver chain and the entities. -/
structure Lexicon (κ : Type := CustomResolver) [TypeResolver κ] where
  chain : Chain κ := Chain.builtIn
  catalog : Catalog := []

variable {κ : Type} [TypeResolver κ]

/-- Writes what is documented of a field over its schema. -/
def FieldDocumentation.apply (documentation : FieldDocumentation) (schema : Schema) : Schema :=
  let schema := schema.describe documentation.description
  let schema := { schema with
    nullable := documentation.nullable || schema.nullable
    format := documentation.format.or schema.format }
  let schema := schema.restrict documentation.values
  { schema with
    exampleValue := documentation.exampleValue.or schema.exampleValue
    defaultValue := documentation.defaultValue.or schema.defaultValue
    extensions := Table.extend schema.extensions (vendorExtensions documentation.extra) }

namespace Field

/-- The entity that a field presents: its presenter, or the catalogued entity its type names. -/
def entity? (catalog : Catalog) (field : Field) : Option String :=
  match field.presenter with
  | some name => some name
  | none =>
    match field.declaredType with
    | some (.named name) => if catalog.contains name then some name else none
    | _ => none

/-- The structure that a merge field gives to its parent; none if it has no parts. `inline` makes
the object of its nested fields. -/
def mergedSchema (lexicon : Lexicon κ) (deeper : Descent) (inline : Build Schema) (field : Field) :
    Build (Option Schema) := do
  match field.entity? lexicon.catalog with
  | some name =>
    let progress ← get
    match progress.state name with
    | .inProgress => return some .object
    | .complete => return progress.definition? name
    | .unvisited => return some (← deeper.entity name)
  | none => if field.nested.isEmpty then return none else return some (← inline)

/-- The schema of a field before its documentation. `inline` makes the object of its nested
fields. -/
def baseSchema (deeper : Descent) (inline : Build Schema) (field : Field) : Build Schema := do
  let base ←
    match field.presenter with
    | some name => deeper.entity name
    | none =>
      if !field.nested.isEmpty then inline
      else
        match field.declaredType with
        | some token => deeper.token token
        | none => pure .string
  return base.arrayIf (field.isArray || field.documentation.isArray)

/-- Adds a field as a property of its own; a field under a condition is optional and nullable. -/
def addProperty (field : Field) (base target : Schema) : Schema :=
  let property := field.documentation.apply base
  if field.condition.isSome then
    target.addProperty field.key { property with nullable := true } false
  else target.addProperty field.key property field.documentation.required

def exposeWith (lexicon : Lexicon κ) (deeper : Descent) (inline : Build Schema) (field : Field)
    (target : Schema) : Build Schema := do
  let merged ← if field.merge then field.mergedSchema lexicon deeper inline else pure none
  match merged with
  | some parts => return target.mergeProperties parts
  | none => return field.addProperty (← field.baseSchema deeper inline) target

mutual

def expose (lexicon : Lexicon κ) (deeper : Descent) : Field → Schema → Build Schema
  | field@{ nested := parts, .. }, target =>
    exposeWith lexicon deeper (exposeAll lexicon deeper parts .object) field target

def exposeAll (lexicon : Lexicon κ) (deeper : Descent) : List Field → Schema → Build Schema
  | [], target => pure target
  | field :: rest, target => do
    let target ← expose lexicon deeper field target
    exposeAll lexicon deeper rest target

end

end Field

namespace TypeToken

mutual

/-- The schema of a token by primitive names alone. -/
def primitiveSchema : TypeToken → Schema
  | named name => Primitive.schema name
  | arrayOf item => .array (primitiveSchema item)
  | oneOf variants => .ofVariants (primitiveSchemas variants)

/-- The schemas of alternatives by primitive names alone. -/
def primitiveSchemas : List TypeToken → List Schema
  | [] => []
  | variant :: rest => primitiveSchema variant :: primitiveSchemas rest

end

end TypeToken

namespace Lexicon

/-- What resolvers see of a build. -/
def around (lexicon : Lexicon κ) (deeper : Descent) : Surroundings where
  names := lexicon.chain.names
  catalog := lexicon.catalog
  deeper := deeper

def choose? (lexicon : Lexicon κ) (deeper : Descent) (token : TypeToken) :
    Build (Option (Resolver κ)) := do
  return lexicon.chain.choose? (lexicon.around deeper) (← get) token

/-- The schema of a name that is no catalogued entity. -/
def plainSchema? (lexicon : Lexicon κ) (deeper : Descent) (name : String) :
    Build (Option Schema) := do
  match ← lexicon.choose? deeper (.named name) with
  | some .primitive => return some (Primitive.schema name)
  | some (.custom resolver) =>
    return some (← TypeResolver.build resolver (lexicon.around deeper) (.named name))
  | _ => return none

/-- Introspects an entity: the full schema on the first visit, a stub on every later one. A name
that is not catalogued is a plain type. -/
def visitEntity (lexicon : Lexicon κ) (deeper : Descent) (name : String) : Build Schema := do
  if (← get).state name ≠ .unvisited then return .reference name
  match lexicon.catalog.get? name with
  | none => return (← lexicon.plainSchema? deeper name).getD .string
  | some entity =>
    modify (·.start name)
    let schema ← Field.exposeAll lexicon deeper entity.fields (.namedObject name)
    modify (·.finish name schema)
    return schema

mutual

/-- Resolves a token by the chain; none if no resolver answers it. -/
def resolveWith? (lexicon : Lexicon κ) (deeper : Descent) : TypeToken → Build (Option Schema)
  | .named name => do
    match ← lexicon.choose? deeper (.named name) with
    | some .entity => return some (← lexicon.visitEntity deeper name)
    | _ => lexicon.plainSchema? deeper name
  | .arrayOf item => do
    match ← lexicon.choose? deeper (.arrayOf item) with
    | some .array => return some (.array ((← resolveWith? lexicon deeper item).getD .string))
    | some (.custom resolver) =>
      return some (← TypeResolver.build resolver (lexicon.around deeper) (.arrayOf item))
    | some _ => return some (TypeToken.primitiveSchema (.arrayOf item))
    | none => return none
  | .oneOf variants => do
    match ← lexicon.choose? deeper (.oneOf variants) with
    | some .oneOf => return some (.ofVariants (← resolveAllWith lexicon deeper variants))
    | some (.custom resolver) =>
      return some (← TypeResolver.build resolver (lexicon.around deeper) (.oneOf variants))
    | some _ => return some (TypeToken.primitiveSchema (.oneOf variants))
    | none => return none

/-- Resolves alternatives; one that no resolver answers is a string. -/
def resolveAllWith (lexicon : Lexicon κ) (deeper : Descent) : List TypeToken → Build (List Schema)
  | [] => pure []
  | variant :: rest => do
    let schema := (← resolveWith? lexicon deeper variant).getD .string
    let schemas ← resolveAllWith lexicon deeper rest
    return schema :: schemas

end

/-- Resolution with `levels` levels below it. Without any, entities are stubs and tokens unanswered. -/
def descent (lexicon : Lexicon κ) : Nat → Descent
  | 0 => { entity := fun name => pure (.reference name), token? := fun _ => pure none }
  | levels + 1 =>
    let deeper := lexicon.descent levels
    { entity := lexicon.visitEntity deeper, token? := lexicon.resolveWith? deeper }

/-- Resolves a token by the chain, going down as many levels at most; none if no resolver answers it. -/
def resolveWithin? (lexicon : Lexicon κ) (levels : Nat) (token : TypeToken) : Build (Option Schema) :=
  lexicon.resolveWith? (lexicon.descent levels) token

/-- Introspects the entity of a name, going down as many levels at most. -/
def entityWithin (lexicon : Lexicon κ) (levels : Nat) (name : String) : Build Schema :=
  lexicon.visitEntity (lexicon.descent levels) name

/-- More levels than a build goes down in which each resolver that is not built in redirects to one token at
most: between two entities that are visited for the first time, each of them can do so once. -/
def levels (lexicon : Lexicon κ) : Nat :=
  (lexicon.catalog.length + 1) * (lexicon.chain.length + 1)

def resolve? (lexicon : Lexicon κ) (token : TypeToken) : Build (Option Schema) :=
  lexicon.resolveWithin? lexicon.levels token

def resolve (lexicon : Lexicon κ) (token : TypeToken) : Build Schema := do
  return (← lexicon.resolve? token).getD .string

/-- Resolves a declared type; without one, a string. -/
def resolveDeclared (lexicon : Lexicon κ) (declared : Option TypeToken) : Build Schema :=
  match declared with
  | some token => lexicon.resolve token
  | none => pure .string

def entitySchema (lexicon : Lexicon κ) (name : String) : Build Schema :=
  lexicon.entityWithin lexicon.levels name

end Lexicon

end ApiDoc
