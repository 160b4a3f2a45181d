import ApiDoc.Schema
import ApiDoc.Text.Blank
import ApiDoc.Text.Pieces

/-! # Primitive type names

The fixed table of type names that need no declaration, regardless of letter case and of blanks
around them. A name with namespaces that is not in the table counts as its last part, and a name
that is not known at all as a string.
-/

namespace ApiDoc.Primitive

def schema? (name : String) : Option Schema :=
  match Text.asciiLower (Text.trimmed name) with
  | "string" | "symbol" | "str" => some .string
  | "integer" | "int" => some (.ofType .integer)
  | "int32" => some (.withFormat .integer "int32")
  | "long" | "int64" => some (.withFormat .integer "int64")
  | "number" | "numeric" => some (.ofType .number)
  | "float" => some (.withFormat .number "float")
  | "double" | "bigdecimal" | "decimal" => some (.withFormat .number "double")
  | "boolean" | "bool" | "trueclass" | "falseclass" => some (.ofType .boolean)
  | "date" => some (.withFormat .string "date")
  | "date-time" | "datetime" | "time" => some (.withFormat .string "date-time")
  | "object" | "hash" | "json" => some .object
  | "array" => some (.array .string)
  | "file" | "uploadedfile" => some (.ofType .file)
  | "byte" => some (.withFormat .string "byte")
  | "binary" => some (.withFormat .string "binary")
  | "password" => some (.withFormat .string "password")
  | "uuid" => some (.withFormat .string "uuid")
  | "email" => some (.withFormat .string "email")
  | "uri" => some (.withFormat .string "uri")
  | _ => none

/-- The part of a name behind its last namespace separator, if it has one. -/
def lastPart? (name : String) : Option String :=
  (Text.afterLast? ':' ':' name.toList).map String.ofList

def schema (name : String) : Schema :=
  match schema? name with
  | some known => known
  | none => ((lastPart? name).bind schema?).getD .string

end ApiDoc.Primitive
