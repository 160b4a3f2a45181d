import ApiDoc.Json.Value
import ApiDoc.Yaml.Scalar

/-! # YAML texts

A value is written in block style: one item or key a line, two spaces a level, the items of a
sequence not indented under their key, and the first item or key of a container on the line of the
dash it belongs to. Empty containers are `{}` and `[]`. All texts end with a line end.
-/

namespace ApiDoc.Yaml

/-- Exponents show no plus sign. -/
def style : Decimal.ExponentStyle := ⟨false⟩

def numberText : Json.Number → String
  | .int value => Decimal.integerText value
  | .float value => Decimal.render style value

/-- A value that is written on the line it starts on, or a block of lines with an indentation;
containers are taken to be empty. -/
def leaf (indent : Nat) : Json → String
  | .null => "null\n"
  | .bool value => if value then "true\n" else "false\n"
  | .number value => numberText value ++ "\n"
  | .string text => stringText indent text
  | .array _ => "[]\n"
  | .object _ => "\x7b\x7d\n"

/-- A key with the mark behind which its value stands; a key that is no simple one has a line of
its own. -/
def keyMark (indent : Nat) (key : String) : String :=
  if isSimpleKey key then keyText key ++ ":"
  else "? " ++ stringText (indent + 2) key ++ spaces indent ++ ":"

/-- What parts a container from the mark it stands behind: a line end and its indentation under a
simple key, a space elsewhere. -/
def opening (underKey : Bool) (indent : Nat) : String :=
  if underKey then "\n" ++ spaces indent else " "

mutual

/-- A value behind a mark of a container that is indented by `indent`; `underKey` says whether the
mark is the colon of a simple key. -/
def behind (underKey : Bool) (indent : Nat) : Json → String
  | .array (item :: rest) =>
    let column := if underKey then indent else indent + 2
    opening underKey column ++ "-" ++ behind false column item ++ itemLines column rest
  | .object ((key, value) :: rest) =>
    let column := indent + 2
    opening underKey column ++ keyMark column key ++ behind (isSimpleKey key) column value ++
      entryLines column rest
  | value => " " ++ leaf (indent + 2) value

def itemLines (indent : Nat) : List Json → String
  | [] => ""
  | item :: rest => spaces indent ++ "-" ++ behind false indent item ++ itemLines indent rest

def entryLines (indent : Nat) : List (String × Json) → String
  | [] => ""
  | (key, value) :: rest =>
    spaces indent ++ keyMark indent key ++ behind (isSimpleKey key) indent value ++
      entryLines indent rest

end

def render : Json → String
  | .array (item :: rest) => itemLines 0 (item :: rest)
  | .object (entry :: rest) => entryLines 0 (entry :: rest)
  | value => leaf 2 value

end ApiDoc.Yaml
