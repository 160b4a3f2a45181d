import ApiDoc.Schema
import ApiDoc.Text.Blank

/-! # Operations

An operation is what one method does on one path: its parameters, its request body and its
responses. Responses are kept in the order of their status codes: numeric codes ascending, all
others behind them in the order in which they came.
-/

namespace ApiDoc

/-- A request method. -/
inductive Method where
  | get
  | post
  | put
  | delete
  | patch
  | options
  | head
  | trace
deriving DecidableEq, Repr, Inhabited

namespace Method

def name : Method → String
  | get => "GET"
  | post => "POST"
  | put => "PUT"
  | delete => "DELETE"
  | patch => "PATCH"
  | options => "OPTIONS"
  | head => "HEAD"
  | trace => "TRACE"

def key : Method → String
  | get => "get"
  | post => "post"
  | put => "put"
  | delete => "delete"
  | patch => "patch"
  | options => "options"
  | head => "head"
  | trace => "trace"

def all : List Method := [get, post, put, delete, patch, options, head, trace]

def ofName? (text : String) : Option Method :=
  let capitals := Text.asciiUpper text
  all.find? (·.name == capitals)

def unknownMessage (text : String) : String := "unknown HTTP method: " ++ Text.asciiUpper text

end Method

/-- Where a parameter travels. -/
inductive Location where
  | path
  | query
  | header
  | body
deriving DecidableEq, Repr, Inhabited

namespace Location

def name : Location → String
  | path => "path"
  | query => "query"
  | header => "header"
  | body => "body"

/-- Whether a hint, in any letter case, names a form. -/
def isForm (hint : String) : Bool :=
  let small := Text.asciiLower hint
  small == "formdata" || small == "form"

/-- The location that a hint names in any letter case; forms travel in the body. -/
def ofHint? (hint : String) : Option Location :=
  match Text.asciiLower hint with
  | "path" => some path
  | "query" => some query
  | "header" => some header
  | "body" | "formdata" | "form" => some body
  | _ => none

end Location

/-- How the values of an array parameter are put into one text. -/
inductive CollectionFormat where
  | csv
  | ssv
  | tsv
  | pipes
  | multi
deriving DecidableEq, Repr

namespace CollectionFormat

def name : CollectionFormat → String
  | csv => "csv"
  | ssv => "ssv"
  | tsv => "tsv"
  | pipes => "pipes"
  | multi => "multi"

def all : List CollectionFormat := [csv, ssv, tsv, pipes, multi]

/-- The format that a hint names in any letter case. -/
def ofHint? (hint : String) : Option CollectionFormat :=
  let small := Text.asciiLower hint
  all.find? (·.name == small)

end CollectionFormat

/-- A parameter outside the body. -/
structure Parameter where
  name : String
  location : Location
  required : Bool
  schema : Schema
  description : Option String := none
  collectionFormat : Option CollectionFormat := none
  exampleValue : Option Json := none
  extensions : Table String Json := []
deriving Inhabited

/-- One content type of a request body. -/
structure MediaType where
  mime : String
  schema : Schema
  exampleValue : Option Json := none
deriving Inhabited

/-- The request body of an operation. -/
structure RequestBody where
  description : Option String
  required : Bool
  content : List MediaType
deriving Inhabited

/-- A response header. -/
structure Header where
  description : Option String
  schema : Schema
deriving Inhabited

/-- A response. -/
structure Response where
  code : String
  description : String
  schema : Option Schema := none
  headers : Table String Header := []
  examples : Option Json := none
  extensions : Table String Json := []
deriving Inhabited

namespace Response

/-- The number a status code writes: decimal digits of at most 65535, perhaps behind a plus sign. -/
def statusNumber? (code : String) : Option Nat :=
  let digits :=
    match code.toList with
    | '+' :: rest => rest
    | chars => chars
  if digits.isEmpty || !digits.all Char.isDigit then none
  else
    let number := digits.foldl (fun value c => value * 10 + (c.toNat - '0'.toNat)) 0
    if number ≤ 65535 then some number else none

/-- Whether code `a` may stand before code `b`: numbers ascend, other codes follow. -/
def codeLe (a b : String) : Bool :=
  match statusNumber? a, statusNumber? b with
  | some m, some n => m ≤ n
  | some _, none => true
  | none, some _ => false
  | none, none => true

/-- A status code as it is published: without blanks around it, and `default` in small letters. -/
def normalizeCode (code : String) : String :=
  let plain := Text.trimmed code
  if Text.asciiLower plain == "default" then "default" else plain

end Response

/-- The names of security schemes with the scopes each requires. -/
abbrev SecurityRequirement := Table String (List String)

/-- One method on one path. -/
structure Operation where
  method : Method
  operationId : Option String := none
  summary : Option String := none
  description : Option String := none
  deprecated : Bool := false
  tags : List String := []
  security : List SecurityRequirement := []
  parameters : List Parameter := []
  requestBody : Option RequestBody := none
  responses : Table String Response := []
  consumes : List String := []
  produces : List String := []
  extensions : Table String Json := []
deriving Inhabited

namespace Operation

/-- Puts a response with a new code behind all that may stand before it. -/
def placeResponse (response : Response) : Table String Response → Table String Response
  | [] => [(response.code, response)]
  | (code, other) :: rest =>
    if Response.codeLe code response.code then (code, other) :: placeResponse response rest
    else (response.code, response) :: (code, other) :: rest

/-- Writes a response under its code: in the place of an earlier one, otherwise where the order of
codes puts it. -/
def insertResponse (operation : Operation) (response : Response) : Operation :=
  let responses := operation.responses
  { operation with
    responses :=
      if responses.contains response.code then responses.insert response.code response
      else placeResponse response responses }

end Operation

end ApiDoc
