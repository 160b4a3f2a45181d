import ApiDoc.Json.Value
import ApiDoc.TypeToken

/-! # Entities

An entity is a named type whose fields are declared one by one. A field is presented by another
entity, by fields of its own or by a declared type; a merge field gives its parts to the entity
that holds it. Entities name each other freely, in cycles too.
-/

namespace ApiDoc

/-- Keeps the vendor extensions, the entries whose keys start with `x-`. -/
def vendorExtensions (entries : Table String Json) : Table String Json :=
  entries.filter fun entry => entry.1.startsWith "x-"

/-- What is documented of a field. -/
structure FieldDocumentation where
  /-- A type that takes the place of the declared one. -/
  type : Option TypeToken := none
  description : Option String := none
  required : Bool := false
  isArray : Bool := false
  nullable : Bool := false
  values : List Json := []
  exampleValue : Option Json := none
  defaultValue : Option Json := none
  format : Option String := none
  /-- All other entries; those with `x-` keys are vendor extensions. -/
  extra : Table String Json := []
deriving Inhabited

/-- A field of an entity. -/
structure Field where
  name : String
  /-- The key the field is presented under, instead of its name. -/
  outputKey : Option String := none
  type : Option TypeToken := none
  /-- The entity that presents the field. -/
  presenter : Option String := none
  isArray : Bool := false
  /-- Whether the parts of the field become parts of its parent. -/
  merge : Bool := false
  /-- The condition under which the field is present at all. -/
  condition : Option String := none
  documentation : FieldDocumentation := {}
  /-- The fields of an anonymous object. -/
  nested : List Field := []
deriving Inhabited

namespace Field

/-- The key the field is presented under. -/
def key (field : Field) : String := field.outputKey.getD field.name

def typed (name type : String) : Field := { name, type := some (.parse type) }

def presentedBy (name entity : String) : Field := { name, presenter := some entity }

def inline (name : String) (nested : List Field) : Field := { name, nested }

def asRequired (field : Field) : Field :=
  { field with documentation := { field.documentation with required := true } }

def described (field : Field) (description : String) : Field :=
  { field with documentation := { field.documentation with description := some description } }

/-- The field with an entry beside its documented parts. -/
def withExtra (field : Field) (key : String) (value : Json) : Field :=
  let documentation := field.documentation
  { field with
    documentation := { documentation with extra := documentation.extra.insert key value } }

/-- The type of the field: the documented one if there is one. -/
def declaredType (field : Field) : Option TypeToken := field.documentation.type.or field.type

end Field

/-- A named type with declared fields. -/
structure Entity where
  name : String
  fields : List Field := []
deriving Inhabited

/-- The entities of a build under their names. -/
abbrev Catalog := Table String Entity

namespace Catalog

/-- Adds an entity, in the place of an earlier one of its name. -/
def register (catalog : Catalog) (entity : Entity) : Catalog := catalog.insert entity.name entity

def registerAll (catalog : Catalog) (entities : List Entity) : Catalog :=
  entities.foldl register catalog

end Catalog

end ApiDoc
