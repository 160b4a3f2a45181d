import ApiDoc.Document

/-! # Reading JSON texts

The strict grammar: one value with blanks around it, no trailing comma and no comment. A container
inside 127 others, a number out of range and a string with half a surrogate pair are well formed
but have no value.

Every reader takes the rest of the text and answers what it read with what follows. The readers of
containers carry a bound on the number of steps; each step takes a character, so the length of the
text is enough.
-/

namespace ApiDoc.Json

/-- Whether `c` may stand between the parts of a text. -/
def isSpace (c : Char) : Bool := c = ' ' ∨ c = '\t' ∨ c = '\n' ∨ c = '\r'

def skipSpace (text : List Char) : List Char := text.dropWhile isSpace

def hexValue? (c : Char) : Option Nat := Plain.digit? 16 c

/-- The code unit that four digits write. -/
def unit? (a b c d : Char) : Option Nat :=
  [a, b, c, d].foldlM (fun value digit => (hexValue? digit).map (value * 16 + ·)) 0

/-- The character a single letter behind a backslash stands for. -/
def escaped? (c : Char) : Option Char :=
  if c = '\x22' then some '\x22'
  else if c = '\x5c' then some '\x5c'
  else if c = '/' then some '/'
  else if c = 'b' then some '\x08'
  else if c = 'f' then some '\x0c'
  else if c = 'n' then some '\n'
  else if c = 'r' then some '\r'
  else if c = 't' then some '\t'
  else none

/-- Joins the two halves of a surrogate pair. -/
def joinPair (high low : Nat) : Char :=
  Char.ofNat (0x10000 + (high - 0xd800) * 0x400 + (low - 0xdc00))

/-- What was read of a string: the characters back to front, or nothing once half a surrogate pair
stood alone, and the first half of a pair that still waits for its second. -/
structure StringSoFar where
  chars : Option (List Char) := some []
  waiting : Option Nat := none

/-- A first half that still waits stays alone. -/
def StringSoFar.settled (read : StringSoFar) : Option (List Char) :=
  if read.waiting.isSome then none else read.chars

def StringSoFar.push (read : StringSoFar) (c : Char) : StringSoFar :=
  ⟨read.settled.map (c :: ·), none⟩

def StringSoFar.pushUnit (read : StringSoFar) (unit : Nat) : StringSoFar :=
  if 0xd800 ≤ unit ∧ unit ≤ 0xdbff then ⟨read.settled, some unit⟩
  else if 0xdc00 ≤ unit ∧ unit ≤ 0xdfff then
    match read.waiting with
    | some high => ⟨read.chars.map (joinPair high unit :: ·), none⟩
    | none => ⟨none, none⟩
  else read.push (Char.ofNat unit)

def readString? (read : StringSoFar) : List Char → Option (Option String × List Char)
  | [] => none
  | '\x22' :: rest => some (read.settled.map fun chars => String.ofList chars.reverse, rest)
  | '\x5c' :: 'u' :: a :: b :: c :: d :: rest => do
    let unit ← unit? a b c d
    readString? (read.pushUnit unit) rest
  | '\x5c' :: mark :: rest => do
    let c ← escaped? mark
    readString? (read.push c) rest
  | c :: rest => if c = '\x5c' ∨ c.toNat < 0x20 then none else readString? (read.push c) rest

/-- A string or, if it has no value, an unreadable part. -/
def textDocument : Option String → Document
  | some text => .text text
  | none => .unreadable

def readWord? : List Char → List Char → Option (List Char)
  | [], rest => some rest
  | c :: word, d :: rest => if c = d then readWord? word rest else none
  | _ :: _, [] => none

def readNumber? (text : List Char) : Option (Document × List Char) := do
  let (literal, rest) ← Number.readLiteral? text
  match Number.ofLiteral? literal with
  | some value => some (.number value, rest)
  | none => some (.unreadable, rest)

/-- The number of containers around the innermost readable one. -/
def maxDepth : Nat := 127

def contained (depth : Nat) (document : Document) : Document :=
  if depth < maxDepth then document else .unreadable

mutual

/-- Reads a value inside `depth` containers, blanks in front allowed. -/
def readValue? : Nat → Nat → List Char → Option (Document × List Char)
  | 0, _, _ => none
  | steps + 1, depth, text =>
    match skipSpace text with
    | [] => none
    | '\x22' :: rest => do
      let (value, rest) ← readString? {} rest
      some (textDocument value, rest)
    | '[' :: rest =>
      match skipSpace rest with
      | ']' :: rest => some (contained depth (.list [] true), rest)
      | rest => do
        let (items, rest) ← readItems? steps (depth + 1) rest
        some (contained depth (.list items true), rest)
    | '\x7b' :: rest =>
      match skipSpace rest with
      | '\x7d' :: rest => some (contained depth (.record []), rest)
      | rest => do
        let (entries, rest) ← readEntries? steps (depth + 1) rest
        some (contained depth (.record entries), rest)
    | 't' :: rest => (readWord? ['r', 'u', 'e'] rest).map fun rest => (.bool true, rest)
    | 'f' :: rest => (readWord? ['a', 'l', 's', 'e'] rest).map fun rest => (.bool false, rest)
    | 'n' :: rest => (readWord? ['u', 'l', 'l'] rest).map fun rest => (.null, rest)
    | text => readNumber? text

/-- Reads the items of a list up to its closing bracket; there is at least one. -/
def readItems? : Nat → Nat → List Char → Option (List Document × List Char)
  | 0, _, _ => none
  | steps + 1, depth, text => do
    let (item, rest) ← readValue? steps depth text
    match skipSpace rest with
    | ',' :: rest =>
      let (items, rest) ← readItems? steps depth rest
      some (item :: items, rest)
    | ']' :: rest => some ([item], rest)
    | _ => none

/-- Reads the entries of a record up to its closing brace; there is at least one. -/
def readEntries? : Nat → Nat → List Char → Option (List (Document × Document) × List Char)
  | 0, _, _ => none
  | steps + 1, depth, text =>
    match skipSpace text with
    | '\x22' :: rest => do
      let (key, rest) ← readString? {} rest
      match skipSpace rest with
      | ':' :: rest =>
        let (value, rest) ← readValue? steps depth rest
        let entry := (textDocument key, value)
        match skipSpace rest with
        | ',' :: rest =>
          let (entries, rest) ← readEntries? steps depth rest
          some (entry :: entries, rest)
        | '\x7d' :: rest => some ([entry], rest)
        | _ => none
      | _ => none
    | _ => none

end

/-- Reads a whole JSON text. -/
def readDocument? (text : String) : Option Document := do
  let chars := text.toList
  let (document, rest) ← readValue? (chars.length + 1) 0 chars
  if (skipSpace rest).isEmpty then some document else none

def read? (text : String) : Option Json := (readDocument? text).bind Document.value?

end ApiDoc.Json
