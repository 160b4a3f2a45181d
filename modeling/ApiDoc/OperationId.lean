import ApiDoc.Data.NameSet
import ApiDoc.Operation
import ApiDoc.Text.Pieces
import ApiDoc.Text.Words

/-! # Operation ids

A route without an id of its own gets one from its method and its path, in camel case. Ids are
unique in an interface: one that is taken gets the least number from two on that makes it free.
-/

namespace ApiDoc.OperationId

/-- A path segment without the braces around it. -/
def bare (segment : List Char) : List Char :=
  ((segment.dropWhile (· == '\x7b')).reverse.dropWhile (· == '\x7d')).reverse

/-- The id that a method and a published path give; `casing` makes one word of several. -/
def derive (method : Method) (template : String) (casing : List Char → List Char := Text.camelCase) :
    String :=
  let segments := ((Text.pieces '/' template.toList).map bare).filter fun part => !part.isEmpty
  String.ofList (casing (method.key.toList ++ ' ' :: Text.joined ' ' segments))

/-- The first of `id`, `id ++ n`, `id ++ (n + 1)`, … that is free, within a number of steps. -/
def firstFree (taken : NameSet) (id : String) : Nat → Nat → String
  | 0, n => id ++ toString n
  | steps + 1, n =>
    let candidate := id ++ toString n
    if candidate ∈ taken then firstFree taken id steps (n + 1) else candidate

/-- The id itself if it is free, otherwise the first free one with a number from two on. -/
def unique (taken : NameSet) (id : String) : String :=
  if id ∈ taken then firstFree taken id taken.length 2 else id

end ApiDoc.OperationId
