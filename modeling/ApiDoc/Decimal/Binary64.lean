/-! # Binary floating point numbers of 64 bits

A finite number is a sign, a significand below 2^53 and an exponent of two of at least -1074. Every
operation computes the exact quotient of two naturals and rounds it once, to the nearest number
and on a tie to the even significand; a result beyond the largest number is no number.
-/

namespace ApiDoc

/-- The finite number `± significand · 2 ^ exponent`. -/
structure Binary64 where
  negative : Bool
  significand : Nat
  exponent : Int
deriving DecidableEq, Repr

namespace Binary64

/-- The zero of either sign. -/
def zero (negative : Bool) : Binary64 := ⟨negative, 0, -1074⟩

/-- `2 ^ exponent` as a numerator and a denominator. -/
def powerOfTwo (exponent : Int) : Nat × Nat :=
  if exponent < 0 then (1, Nat.pow 2 (-exponent).toNat) else (Nat.pow 2 exponent.toNat, 1)

/-- The quotient rounded to the nearest natural, ties to the even one. -/
def divRound (num den : Nat) : Nat :=
  let quotient := num / den
  let twice := 2 * (num % den)
  if den < twice ∨ (twice = den ∧ quotient % 2 = 1) then quotient + 1 else quotient

/-- The exponent of the leading bit of `num / den`, both positive. -/
def leadingBit (num den : Nat) : Int :=
  let guess : Int := (num.log2 : Int) - den.log2
  let (up, down) := powerOfTwo guess
  if num * down < den * up then guess - 1 else guess

/-- The number nearest to `num / den`; none beyond the largest number. -/
def ofRatio? (negative : Bool) (num den : Nat) : Option Binary64 :=
  if num = 0 ∨ den = 0 then some (zero negative)
  else
    let exponent := max (leadingBit num den - 52) (-1074)
    let (up, down) := powerOfTwo exponent
    let significand := divRound (num * down) (den * up)
    let (significand, exponent) :=
      if significand = Nat.pow 2 53 then (Nat.pow 2 52, exponent + 1) else (significand, exponent)
    if 971 < exponent then none else some ⟨negative, significand, exponent⟩

/-- The size of a number as a numerator and a denominator. -/
def ratio (x : Binary64) : Nat × Nat :=
  let (up, down) := powerOfTwo x.exponent
  (x.significand * up, down)

def mul? (x y : Binary64) : Option Binary64 :=
  ofRatio? (x.negative != y.negative) (x.ratio.1 * y.ratio.1) (x.ratio.2 * y.ratio.2)

def div? (x y : Binary64) : Option Binary64 :=
  ofRatio? (x.negative != y.negative) (x.ratio.1 * y.ratio.2) (x.ratio.2 * y.ratio.1)

/-- The natural nearest to `n`. -/
def ofNat? (negative : Bool) (n : Nat) : Option Binary64 := ofRatio? negative n 1

/-- The number nearest to `digits · 10 ^ exponent`. Exponents far outside the range of numbers are
answered without computing the power. -/
def ofDecimal? (negative : Bool) (digits : Nat) (exponent : Int) : Option Binary64 :=
  let size : Int := (Nat.toDigits 10 digits).length + exponent
  if digits = 0 ∨ size < -400 then some (zero negative)
  else if 400 < size then none
  else if exponent < 0 then ofRatio? negative digits (Nat.pow 10 (-exponent).toNat)
  else ofRatio? negative (digits * Nat.pow 10 exponent.toNat) 1

end Binary64

end ApiDoc
