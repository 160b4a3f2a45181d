import ApiDoc.Decimal.Shortest

/-! # Numbers of documents

A number is an integer of 64 bits, signed or unsigned, or a binary floating point number. Integers
outside that range are read as floating point numbers, and so is `-0`, which keeps its sign.

A decimal with a fraction or an exponent is read in two roundings: the leading digits that fit 64
bits make an integer, rounded to a floating point number, which is then multiplied or divided once
by the floating point number nearest to a power of ten.
-/

namespace ApiDoc.Json

/-- A number of a document. -/
inductive Number where
  | int (value : Int)
  | float (value : Binary64)
deriving DecidableEq, Repr

namespace Number

/-- The largest unsigned integer of 64 bits. -/
def maxUnsigned : Nat := 18446744073709551615

/-- The size of the smallest signed integer of 64 bits. -/
def minSignedSize : Nat := 9223372036854775808

/-- Numbers of JSON texts show the sign of every exponent. -/
def style : Decimal.ExponentStyle := ⟨true⟩

def render : Number → String
  | int value => Decimal.integerText value
  | float value => Decimal.render style value

def digitValue (c : Char) : Nat := c.toNat - '0'.toNat

/-- Appends digits to `significand` while it stays within 64 bits. Answers it with the number of
digits that were left over. -/
def takeDigits (significand : Nat) : List Char → Nat × Nat
  | [] => (significand, 0)
  | c :: rest =>
    let longer := significand * 10 + digitValue c
    if longer ≤ maxUnsigned then takeDigits longer rest else (significand, rest.length + 1)

/-- The floating point number nearest to `10 ^ power`. -/
def tenTo (power : Nat) : Binary64 := (Binary64.ofNat? false (Nat.pow 10 power)).getD (.zero false)

/-- Divides by `10 ^ power`, by at most `10 ^ 308` at a time. -/
def scaleDown (value : Binary64) (power : Nat) : Binary64 :=
  if power ≤ 308 then (value.div? (tenTo power)).getD (.zero value.negative)
  else if value.significand = 0 then value
  else scaleDown ((value.div? (tenTo 308)).getD (.zero value.negative)) (power - 308)
termination_by power

/-- `± significand · 10 ^ exponent` by one multiplication or by divisions; none if out of range. -/
def scale? (negative : Bool) (significand : Nat) (exponent : Int) : Option Binary64 := do
  let value ← Binary64.ofNat? negative significand
  if exponent < 0 then some (scaleDown value (-exponent).toNat)
  else if exponent ≤ 308 then value.mul? (tenTo exponent.toNat)
  else if significand = 0 then some value
  else none

/-- The parts of a decimal number text, as digits. -/
structure Literal where
  negative : Bool
  whole : List Char
  fraction : Option (List Char)
  exponent : Option Int

/-- The number a literal denotes; none if it is out of range. -/
def ofLiteral? (literal : Literal) : Option Number :=
  let (significand, dropped) := takeDigits 0 literal.whole
  match literal.fraction, literal.exponent, dropped with
  | none, none, 0 =>
    if !literal.negative then some (int significand)
    else if 0 < significand ∧ significand ≤ minSignedSize then some (int (-(significand : Int)))
    else (Binary64.ofNat? true significand).map float
  | fraction, exponent, dropped =>
    let fractionDigits := fraction.getD []
    let (significand, unread) := takeDigits significand fractionDigits
    let read := fractionDigits.length - unread
    (scale? literal.negative significand ((dropped : Int) - read + exponent.getD 0)).map float

def spanDigits (text : List Char) : List Char × List Char := text.span Char.isDigit

def natOfDigits (digits : List Char) : Nat :=
  digits.foldl (fun value c => value * 10 + digitValue c) 0

/-- Reads the fraction of a literal, if there is one; none if a point has no digit behind it. -/
def readFraction? : List Char → Option (Option (List Char) × List Char)
  | '.' :: rest =>
    match spanDigits rest with
    | ([], _) => none
    | (digits, rest) => some (some digits, rest)
  | text => some (none, text)

/-- Reads the exponent of a literal, if there is one; none if its mark has no digit behind it. -/
def readExponent? : List Char → Option (Option Int × List Char)
  | c :: rest =>
    if c = 'e' ∨ c = 'E' then
      let (negative, rest) : Bool × List Char :=
        match rest with
        | '+' :: rest => (false, rest)
        | '-' :: rest => (true, rest)
        | rest => (false, rest)
      match spanDigits rest with
      | ([], _) => none
      | (digits, rest) =>
        let size : Int := natOfDigits digits
        some (some (if negative then -size else size), rest)
    else some (none, c :: rest)
  | [] => some (none, [])

/-- Reads a number literal at the start of a text: no leading zeros, and digits on both sides of a
point. -/
def readLiteral? (text : List Char) : Option (Literal × List Char) := do
  let (negative, text) : Bool × List Char :=
    match text with
    | '-' :: rest => (true, rest)
    | text => (false, text)
  let (whole, text) := spanDigits text
  match whole with
  | [] => none
  | '0' :: _ :: _ => none
  | _ =>
    let (fraction, text) ← readFraction? text
    let (exponent, text) ← readExponent? text
    some (⟨negative, whole, fraction, exponent⟩, text)

end Number

end ApiDoc.Json
