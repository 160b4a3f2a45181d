import ApiDoc.Json.Value
import ApiDoc.Text.Blank

/-! # Documents before interpretation

A document is a text whose structure was read but whose meaning still depends on what is asked of
it. A repeated key keeps all its entries, and an unquoted scalar of a YAML text keeps its spelling:
asked for a string it is its spelling, asked for a free value it may be a number, a truth value or
null. A part that has no value at all, such as a number out of range, is an error only for a
reader that looks at it.

Readers answer `none` where the document does not fit; which of several misfits comes first is not
told apart.
-/

namespace ApiDoc

/-- A text whose structure was read. -/
inductive Document where
  | null
  | bool (value : Bool)
  | number (value : Json.Number)
  | text (value : String)
  /-- An unquoted scalar, as spelled. -/
  | plain (spelling : String)
  /-- Items in order; `positional` says whether they may also stand for the fields of a record. -/
  | list (items : List Document) (positional : Bool := false)
  | record (entries : List (Document × Document))
  /-- A part without a value: an error for whoever asks for it. -/
  | unreadable
deriving Repr, Inhabited

namespace Plain

def isNull (spelling : String) : Bool :=
  spelling == "" || spelling == "null" || spelling == "Null" || spelling == "NULL" ||
  spelling == "~"

/-- The truth value an unquoted scalar means. -/
def bool? (spelling : String) : Option Bool :=
  if spelling == "true" || spelling == "True" || spelling == "TRUE" then some true
  else if spelling == "false" || spelling == "False" || spelling == "FALSE" then some false
  else none

/-- Drops one sign in front. -/
def unsigned : List Char → List Char
  | '+' :: rest => rest
  | '-' :: rest => rest
  | text => text

/-- Whether a scalar consists of digits with a needless zero in front, which makes it a string. -/
def isZeroPadded (spelling : List Char) : Bool :=
  match unsigned spelling with
  | '0' :: c :: rest => (c :: rest).all Char.isDigit
  | _ => false

def digit? (base : Nat) (c : Char) : Option Nat :=
  let value? : Option Nat :=
    if c.isDigit then some (c.toNat - '0'.toNat)
    else if 'a' ≤ c ∧ c ≤ 'f' then some (c.toNat - 'a'.toNat + 10)
    else if 'A' ≤ c ∧ c ≤ 'F' then some (c.toNat - 'A'.toNat + 10)
    else none
  value?.filter (· < base)

/-- A non-empty text of digits as a number. -/
def nat? (base : Nat) : List Char → Option Nat
  | [] => none
  | digits => digits.foldlM (fun value c => (digit? base c).map (value * base + ·)) 0

/-- The size of an integer without its sign: decimal digits, or digits of another base behind
`0x`, `0o` or `0b`. -/
def size? : List Char → Option Nat
  | '0' :: 'x' :: digits => nat? 16 digits
  | '0' :: 'o' :: digits => nat? 8 digits
  | '0' :: 'b' :: digits => nat? 2 digits
  | digits => nat? 10 digits

def int? (spelling : List Char) : Option Int :=
  if isZeroPadded spelling then none
  else
    match spelling with
    | '-' :: digits => (size? digits).map fun size => -(size : Int)
    | '+' :: digits => (size? digits).map Int.ofNat
    | digits => (size? digits).map Int.ofNat

/-- The parts of a decimal number: its digits without the point, how many of them stand behind
the point, and what follows. -/
def mantissa? (spelling : List Char) : Option (List Char × Nat × List Char) :=
  let (whole, rest) := spelling.span Char.isDigit
  let (fraction, rest) : List Char × List Char :=
    match rest with
    | '.' :: rest => rest.span Char.isDigit
    | rest => ([], rest)
  if whole.isEmpty && fraction.isEmpty then none
  else some (whole ++ fraction, fraction.length, rest)

/-- The exponent that ends a decimal number. -/
def exponent? : List Char → Option Int
  | [] => some 0
  | mark :: rest =>
    if mark = 'e' ∨ mark = 'E' then
      match rest with
      | '-' :: digits => (nat? 10 digits).map fun size => -(size : Int)
      | '+' :: digits => (nat? 10 digits).map Int.ofNat
      | digits => (nat? 10 digits).map Int.ofNat
    else none

/-- The finite floating point number an unquoted scalar means. -/
def float? (spelling : List Char) : Option Binary64 :=
  if isZeroPadded spelling then none
  else do
    let (digits, places, rest) ← mantissa? (unsigned spelling)
    let exponent ← exponent? rest
    let size ← nat? 10 digits
    Binary64.ofDecimal? (spelling.head? == some '-') size (exponent - places)

/-- Whether an unquoted scalar means an infinity or no number. -/
def isNonFinite (spelling : String) : Bool :=
  [".inf", ".Inf", ".INF", "+.inf", "+.Inf", "+.INF", "-.inf", "-.Inf", "-.INF", ".nan", ".NaN",
    ".NAN"].contains spelling

/-- The value an unquoted scalar means; none for an integer beyond 64 bits that still fits 128. -/
def value? (spelling : String) : Option Json :=
  if isNull spelling then some .null
  else
    match bool? spelling with
    | some value => some (.bool value)
    | none =>
      match int? spelling.toList with
      | some value =>
        if -(Json.Number.minSignedSize : Int) ≤ value ∧ value ≤ Json.Number.maxUnsigned then
          some (.number (.int value))
        else if -(Nat.pow 2 127 : Int) ≤ value ∧ value < (Nat.pow 2 128 : Nat) then none
        else
          match float? spelling.toList with
          | some size => some (.number (.float size))
          | none => some (.string spelling)
      | none =>
        if isNonFinite spelling then some .null
        else
          match float? spelling.toList with
          | some size => some (.number (.float size))
          | none => some (.string spelling)

end Plain

namespace Document

/-- The document as a string; an unquoted scalar is its spelling. -/
def string? : Document → Option String
  | text value => some value
  | plain spelling => some spelling
  | _ => none

def bool? : Document → Option Bool
  | bool value => some value
  | plain spelling => Plain.bool? spelling
  | _ => none

/-- The document as a natural number of at most `limit`; an unquoted scalar has no minus sign. -/
def natUpTo? (limit : Nat) (document : Document) : Option Nat :=
  let value? : Option Int :=
    match document with
    | number (.int value) => some value
    | plain spelling =>
      if spelling.toList.head? = some '-' then none else Plain.int? spelling.toList
    | _ => none
  match value? with
  | some (.ofNat value) => if value ≤ limit then some value else none
  | _ => none

/-- Whether an optional part counts as absent. -/
def isAbsent : Document → Bool
  | null => true
  | plain spelling => Plain.isNull spelling
  | _ => false

/-- The items of a list; an empty scalar is an empty list. -/
def items? : Document → Option (List Document)
  | list items _ => some items
  | plain spelling => if spelling.isEmpty then some [] else none
  | _ => none

/-- The entries of a record; an empty scalar is an empty record. -/
def entries? : Document → Option (List (Document × Document))
  | record entries => some entries
  | plain spelling => if spelling.isEmpty then some [] else none
  | _ => none

def listOf? {α : Type} (read? : Document → Option α) (document : Document) : Option (List α) := do
  (← document.items?).mapM read?

/-- A table from strings to what `read?` reads; a repeated key keeps its first position and takes
its last value. -/
def tableOf? {α : Type} (read? : Document → Option α) (document : Document) :
    Option (Table String α) := do
  let entries ← (← document.entries?).mapM fun (key, value) => do
    some ((← key.string?), (← read? value))
  some (Table.ofEntries entries)

def optional? {α : Type} (read? : Document → Option α) (document : Document) :
    Option (Option α) :=
  if document.isAbsent then some none else (read? document).map some

/-- The document as a string; an unquoted scalar has to mean one. -/
def ownString? : Document → Option String
  | text value => some value
  | plain spelling =>
    match Plain.value? spelling with
    | some (.string value) => some value
    | _ => none
  | _ => none

mutual

/-- The document as a free value whose keys are read by `key?`. A free value of its own takes every
scalar as a key, by its spelling; one that was set aside and is read later takes strings only. -/
def valueWith? (key? : Document → Option String) : Document → Option Json
  | null => some .null
  | bool value => some (.bool value)
  | number value => some (.number value)
  | text value => some (.string value)
  | plain spelling => Plain.value? spelling
  | list items _ => (valueItems? key? items).map .array
  | record entries =>
    (valueEntries? key? entries).map fun fields => .object (Table.ofEntries fields)
  | unreadable => none

def valueItems? (key? : Document → Option String) : List Document → Option (List Json)
  | [] => some []
  | item :: rest => do some ((← valueWith? key? item) :: (← valueItems? key? rest))

def valueEntries? (key? : Document → Option String) :
    List (Document × Document) → Option (List (String × Json))
  | [] => some []
  | (key, value) :: rest => do
    some (((← key? key), (← valueWith? key? value)) :: (← valueEntries? key? rest))

end

def value? (document : Document) : Option Json := document.valueWith? string?

/-- The document as a free value that was set aside. -/
def asideValue? (document : Document) : Option Json := document.valueWith? ownString?

end Document

end ApiDoc
