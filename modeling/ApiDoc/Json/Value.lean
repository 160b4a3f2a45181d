import ApiDoc.Data.Table
import ApiDoc.Json.Number

/-! # Document values

The values that examples, defaults, extensions and whole exported documents are made of. Objects
keep their keys in the order of the first write.
-/

namespace ApiDoc

/-- A document value. -/
inductive Json where
  | null
  | bool (value : Bool)
  | number (value : Json.Number)
  | string (text : String)
  | array (items : List Json)
  | object (fields : List (String × Json))
deriving Repr, Inhabited

namespace Json

abbrev Fields := Table String Json

def strings (texts : List String) : Json := array (texts.map string)

def field? (value : Json) (key : String) : Option Json :=
  match value with
  | object fields => Table.get? fields key
  | _ => none

def fields? : Json → Option Fields
  | object fields => some fields
  | _ => none

def items? : Json → Option (List Json)
  | array items => some items
  | _ => none

def string? : Json → Option String
  | string text => some text
  | _ => none

def isString (value : Json) (text : String) : Bool := value.string? == some text

end Json

end ApiDoc
