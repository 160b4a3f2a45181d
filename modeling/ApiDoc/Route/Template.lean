import ApiDoc.Data.Table
import ApiDoc.Text.Pieces

/-! # Path templates

A route declares its path as segments between slashes. A segment `:id` or `{id}` stands for the
variable `id`; the published form is `{id}`. A format suffix such as `(.:format)` at the end of
the path is no part of it.
-/

namespace ApiDoc.Route

open Text (pieces joined beforeLast? enclosed?)

/-- The path without a format suffix: if it ends with a parenthesis, all from the last `(.` on is
dropped. -/
def dropFormat (path : List Char) : List Char :=
  if path.getLast? = some ')' then (beforeLast? '(' '.' path).getD path else path

def braced (name : List Char) : List Char := '\x7b' :: name ++ ['\x7d']

/-- The name in a segment of the published form. -/
def bracedName? (segment : List Char) : Option (List Char) := enclosed? '\x7b' '\x7d' segment

/-- The published form of one segment. -/
def publishSegment : List Char → List Char
  | ':' :: c :: name => braced (c :: name)
  | segment => segment

/-- The variable that a segment declares. -/
def variableName? (segment : List Char) : Option (List Char) :=
  match segment with
  | ':' :: name => some name
  | _ => bracedName? segment

/-- The published form of a path; an empty one is the root path. -/
def normalize (path : String) : String :=
  let published := joined '/' ((pieces '/' (dropFormat path.toList)).map publishSegment)
  if published.isEmpty then "/" else String.ofList published

def pathVariables (path : String) : List String :=
  ((pieces '/' (dropFormat path.toList)).filterMap variableName?).filterMap fun name =>
    if name.isEmpty then none else some (String.ofList name)

/-- A published segment under its published variable name. -/
def aliasSegment (aliases : Table String String) (segment : List Char) : List Char :=
  match bracedName? segment with
  | none => segment
  | some name =>
    match aliases.get? (String.ofList name) with
    | none => segment
    | some published => braced published.toList

/-- A published path with its variables renamed through `aliases`. -/
def applyAliases (template : String) (aliases : Table String String) : String :=
  String.ofList (joined '/' ((pieces '/' template.toList).map (aliasSegment aliases)))

end ApiDoc.Route
