import ApiDoc.Data.NameSet
import ApiDoc.Json.Value

/-! # Schemas

A schema describes a value independently of any document version. A schema with a canonical name
is a reusable type: documents define it once and refer to every occurrence. A schema with nothing
but a canonical name is a reference stub.
-/

namespace ApiDoc

/-- The kind of value a schema admits. -/
inductive SchemaType where
  | string
  | integer
  | number
  | boolean
  | object
  | array
  | file
deriving DecidableEq, Repr

def SchemaType.name : SchemaType → String
  | string => "string"
  | integer => "integer"
  | number => "number"
  | boolean => "boolean"
  | object => "object"
  | array => "array"
  | file => "file"

def SchemaType.all : List SchemaType := [string, integer, number, boolean, object, array, file]

def SchemaType.ofName? (name : String) : Option SchemaType := all.find? (·.name == name)

/-- A schema. -/
structure Schema where
  canonicalName : Option String := none
  type : Option SchemaType := none
  format : Option String := none
  properties : List (String × Schema) := []
  required : NameSet := []
  items : Option Schema := none
  /-- The alternatives of a value that admits several types. -/
  oneOf : List Schema := []
  description : Option String := none
  nullable : Bool := false
  enumValues : List Json := []
  defaultValue : Option Json := none
  exampleValue : Option Json := none
  extensions : List (String × Json) := []
deriving Inhabited

namespace Schema

def string : Schema := { type := some .string }

/-- The schema of objects without declared properties. -/
def object : Schema := { type := some .object }

def array (items : Schema) : Schema := { type := some .array, items := some items }

/-- The plain schema of a kind; arrays hold strings. -/
def ofType (type : SchemaType) : Schema :=
  if type = .array then array string else { type := some type }

def withFormat (type : SchemaType) (format : String) : Schema :=
  { ofType type with format := some format }

def ofVariants (variants : List Schema) : Schema := { oneOf := variants }

/-- A named object to be filled with properties. -/
def namedObject (name : String) : Schema := { object with canonicalName := some name }

/-- The stub that only refers to a canonical name. -/
def reference (name : String) : Schema := { canonicalName := some name }

def isStub (schema : Schema) : Bool :=
  schema.canonicalName.isSome && schema.type.isNone && schema.oneOf.isEmpty

def isType (schema : Schema) (type : SchemaType) : Bool := schema.type == some type

/-- Adds or replaces a property and records whether it is required. -/
def addProperty (schema : Schema) (name : String) (property : Schema) (required : Bool) : Schema :=
  { schema with
    properties := Table.insert schema.properties name property
    required := if required then schema.required.add name else schema.required.remove name }

/-- Adds the properties and the required names of `other`. -/
def mergeProperties (schema other : Schema) : Schema :=
  { schema with
    properties := Table.extend schema.properties other.properties
    required := schema.required.addAll other.required }

def describe (schema : Schema) (description : Option String) : Schema :=
  { schema with description := description.or schema.description }

/-- Wraps a schema into an array if `wanted`, unless it is one already. -/
def arrayIf (wanted : Bool) (schema : Schema) : Schema :=
  if wanted && !schema.isType .array then array schema else schema

/-- Restricts the values of a schema: of its items if it has any. -/
def restrict (schema : Schema) (values : List Json) : Schema :=
  if values.isEmpty then schema
  else
    match schema.items with
    | some items => { schema with items := some { items with enumValues := values } }
    | none => { schema with enumValues := values }

end Schema

end ApiDoc
