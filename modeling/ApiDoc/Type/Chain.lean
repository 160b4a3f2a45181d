import ApiDoc.Entity
import ApiDoc.Type.Progress

/-! # Resolver chains

Type tokens become schemas through an ordered chain of resolvers; the first one that handles a
token answers it. Four resolvers are built in, and others can be put anywhere between them. What these
do is open (`TypeResolver`): they see the build that they work for, resolve other tokens in it and
introspect entities. A chain is over one kind of them. The names of a chain stay distinct, since
registering a name that is present changes nothing.
-/

namespace ApiDoc

/-- Resolution one level deeper. -/
structure Descent where
  /-- Introspects the entity of a name. -/
  entity : String → Build Schema
  /-- Resolves a token; none if no resolver answers it. -/
  token? : TypeToken → Build (Option Schema)

/-- Resolves a token; one that no resolver answers is a string. -/
def Descent.token (deeper : Descent) (token : TypeToken) : Build Schema := do
  return (← deeper.token? token).getD .string

/-- What resolvers see of a build, besides its progress. -/
structure Surroundings where
  /-- The names of the resolvers in the chain. -/
  names : List String
  catalog : Catalog
  deeper : Descent

/-- A kind of resolvers that are not built in. From call to call they keep nothing but what the build keeps. -/
class TypeResolver (κ : Type) where
  name : κ → String
  handles : κ → Surroundings → Progress → TypeToken → Bool
  /-- The schema of a token that is handled. -/
  build : κ → Surroundings → TypeToken → Build Schema

/-- An answer that is the same in every build. -/
inductive Reply where
  | schema (schema : Schema)
  /-- What the chain answers to another token. -/
  | redirect (token : TypeToken)

def Reply.answer (deeper : Descent) : Reply → Build Schema
  | schema fixed => pure fixed
  | redirect token => deeper.token token

/-- A resolver that looks at nothing but the token, and has one reply. -/
structure CustomResolver where
  name : String
  handles : TypeToken → Bool
  reply : Reply

@[default_instance]
instance : TypeResolver CustomResolver where
  name := CustomResolver.name
  handles resolver _ _ token := resolver.handles token
  build resolver around _ := resolver.reply.answer around.deeper

/-- One strategy for turning tokens into schemas. -/
inductive Resolver (κ : Type := CustomResolver) where
  /-- Arrays of what their item type resolves to. -/
  | array
  /-- Alternatives, in their declared order and with repetitions. -/
  | oneOf
  /-- Names of catalogued entities. -/
  | entity
  /-- Every token, by the table of primitive names. -/
  | primitive
  | custom (resolver : κ)

variable {κ : Type} [TypeResolver κ]

namespace Resolver

def name : Resolver κ → String
  | array => "array"
  | oneOf => "one_of"
  | entity => "entity"
  | primitive => "primitive"
  | custom resolver => TypeResolver.name resolver

def handles (around : Surroundings) (progress : Progress) : Resolver κ → TypeToken → Bool
  | array, .arrayOf _ => true
  | oneOf, .oneOf _ => true
  | entity, .named name => around.catalog.contains name
  | primitive, _ => true
  | custom resolver, token => TypeResolver.handles resolver around progress token
  | _, _ => false

end Resolver

/-- A mistake in the setup of a generator. -/
inductive ConfigError where
  | noExporter (version : String)
  | unknownResolver (name : String)
  | unreadable (path : String)
deriving DecidableEq, Repr

/-- What a setup mistake says; a configuration that cannot be read names its path only. -/
def ConfigError.message : ConfigError → String
  | noExporter version => "no exporter registered for version: " ++ version
  | unknownResolver name => "no resolver named '" ++ name ++ "' to register against"
  | unreadable path => "failed to read config " ++ path

/-- Where a resolver enters a chain. -/
inductive Position where
  | front
  | back
  | before (name : String)
  | after (name : String)
deriving DecidableEq, Repr

abbrev Chain (κ : Type := CustomResolver) := List (Resolver κ)

namespace Chain

def builtIn : Chain κ := [.array, .oneOf, .entity, .primitive]

def names (chain : Chain κ) : List String := chain.map Resolver.name

def contains (chain : Chain κ) (name : String) : Bool := chain.any (·.name == name)

def index? (chain : Chain κ) (name : String) : Except ConfigError Nat :=
  match chain.findIdx? (·.name == name) with
  | some index => .ok index
  | none => .error (.unknownResolver name)

/-- Puts a resolver into the chain, unless its name is present already. -/
def register (chain : Chain κ) (resolver : Resolver κ) (position : Position) :
    Except ConfigError (Chain κ) := do
  if chain.contains resolver.name then return chain
  let index ←
    match position with
    | .front => pure 0
    | .back => pure chain.length
    | .before name => chain.index? name
    | .after name => (chain.index? name).map (· + 1)
  return chain.insertIdx index resolver

/-- Takes a resolver out of the chain; answers its name if it was there. -/
def unregister (chain : Chain κ) (name : String) : Option String × Chain κ :=
  if chain.contains name then (some name, chain.eraseP (·.name == name)) else (none, chain)

def choose? (chain : Chain κ) (around : Surroundings) (progress : Progress) (token : TypeToken) :
    Option (Resolver κ) :=
  chain.find? (·.handles around progress token)

end Chain

end ApiDoc
