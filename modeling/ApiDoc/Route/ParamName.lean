/-! # Nested parameter names

A name such as `user[address][zip]` places a parameter inside others: a root followed by bracket
groups. An empty group marks the name before it as an array, as in `items[][name]`.
-/

namespace ApiDoc.Route

/-- One name of a nested parameter name. -/
structure NameSegment where
  name : String
  /-- Whether an empty group follows, so that the value is an array of what comes next. -/
  isArray : Bool
deriving DecidableEq, Repr

/-- Whether `name` places a parameter inside another. -/
def isNested (name : String) : Bool :=
  name.toList.contains '[' && name.toList.getLast? == some ']'

/-- The contents of the bracket groups that a text starts with. The groups end at the first
character outside brackets or at a bracket that is never closed. `inside` holds, back to front,
what was read of an open group. -/
def bracketGroups : Option (List Char) → List Char → List (List Char)
  | none, '[' :: rest => bracketGroups (some []) rest
  | none, _ => []
  | some inside, ']' :: rest => inside.reverse :: bracketGroups none rest
  | some inside, c :: rest => bracketGroups (some (c :: inside)) rest
  | some _, [] => []

/-- A segment followed by what the groups behind it say. -/
def segmentsFrom (segment : NameSegment) : List (List Char) → List NameSegment
  | [] => [segment]
  | group :: rest =>
    if group.isEmpty then segmentsFrom { segment with isArray := true } rest
    else segment :: segmentsFrom ⟨String.ofList group, false⟩ rest

/-- The segments of a parameter name: the text before the first bracket, then the groups. -/
def splitNested (name : String) : List NameSegment :=
  let root := name.toList.takeWhile (· != '[')
  let groups := bracketGroups none (name.toList.dropWhile (· != '['))
  segmentsFrom ⟨String.ofList root, false⟩ groups

/-- The first segment's name: the text before the first bracket. -/
def rootName (name : String) : String := String.ofList (name.toList.takeWhile (· != '['))

end ApiDoc.Route
