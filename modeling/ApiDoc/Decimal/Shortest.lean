import ApiDoc.Decimal.Binary64

/-! # Shortest decimal text of a binary number

The digits of a number are the fewest that still read back as it: among the decimals of one, two, …
up to seventeen digits the first that lies in the interval of reals rounding to the number, and of
two neighbours of one length the nearer, on a tie the even one. Decimals with a leading digit at
10^-5 to 10^15 are written positionally with at least one digit behind the point, all others with
an exponent.
-/

namespace ApiDoc.Decimal

/-- A number as a quarter grid: the number itself and the ends of the interval of reals that round
to it, in units of `2 ^ (exponent - 2)`. The ends belong to the interval iff the significand is
even. -/
structure Interval where
  low : Nat
  center : Nat
  high : Nat
  closed : Bool
  num : Nat
  den : Nat

def Interval.of (x : Binary64) : Interval :=
  let (num, den) := Binary64.powerOfTwo (x.exponent - 2)
  let center := 4 * x.significand
  let narrow := x.significand = Nat.pow 2 52 ∧ -1074 < x.exponent
  ⟨if narrow then center - 1 else center - 2, center, center + 2, x.significand % 2 == 0, num, den⟩

/-- `10 ^ exponent` as a numerator and a denominator. -/
def powerOfTen (exponent : Int) : Nat × Nat :=
  if exponent < 0 then (1, Nat.pow 10 (-exponent).toNat) else (Nat.pow 10 exponent.toNat, 1)

/-- The multiple of `10 ^ exponent` in the interval that is nearest to its center. -/
def Interval.nearest? (i : Interval) (exponent : Int) : Option Nat :=
  let (up, down) := powerOfTen exponent
  let unit := up * i.den
  let at_ (quarter : Nat) := quarter * i.num * down
  let below := at_ i.center / unit
  let above := below + 1
  let fitsBelow := if i.closed then at_ i.low ≤ below * unit else at_ i.low < below * unit
  let fitsAbove := if i.closed then above * unit ≤ at_ i.high else above * unit < at_ i.high
  if fitsBelow then
    if fitsAbove then
      let down := at_ i.center - below * unit
      let up := above * unit - at_ i.center
      if up < down ∨ (up = down ∧ below % 2 = 1) then some above else some below
    else some below
  else if fitsAbove then some above
  else none

/-- The least exponent of ten whose power exceeds a positive number. -/
def pointPosition (x : Binary64) : Int :=
  let guess : Int := ((x.significand.log2 : Int) + x.exponent) * 30103 / 100000
  let (num, den) := x.ratio
  let exceeds (exponent : Int) : Bool :=
    let (up, down) := powerOfTen exponent
    num * down < up * den
  ([guess - 1, guess, guess + 1].find? exceeds).getD (guess + 2)

/-- Drops trailing zeros of `digits`, at most `count` of them, raising the exponent. -/
def dropZeros : Nat → Nat → Int → Nat × Int
  | 0, digits, exponent => (digits, exponent)
  | count + 1, digits, exponent =>
    if digits % 10 = 0 then dropZeros count (digits / 10) (exponent + 1) else (digits, exponent)

/-- The shortest digits of a positive number and the exponent of the last one. -/
def shortest (x : Binary64) : Nat × Int :=
  let interval := Interval.of x
  let point := pointPosition x
  let found := (List.range 17).findSome? fun (length : Nat) =>
    let exponent := point - ((length : Int) + 1)
    (interval.nearest? exponent).map fun digits => dropZeros 18 digits exponent
  found.getD (0, 0)

/-- How an exponent is written. -/
structure ExponentStyle where
  /-- Whether a positive exponent has a sign. -/
  plusSign : Bool

def digitText (n : Nat) : String := String.ofList (Nat.toDigits 10 n)

def integerText (n : Int) : String :=
  if n < 0 then "-" ++ digitText n.natAbs else digitText n.natAbs

/-- The digits `digits · 10 ^ exponent` of a positive number as text. -/
def layout (style : ExponentStyle) (digits : Nat) (exponent : Int) : String :=
  let text := Nat.toDigits 10 digits
  let point : Int := text.length + exponent
  if -5 < point ∧ point ≤ 16 then
    if 0 ≤ exponent then
      String.ofList (text ++ List.replicate exponent.toNat '0') ++ ".0"
    else if 0 < point then
      String.ofList (text.take point.toNat) ++ "." ++ String.ofList (text.drop point.toNat)
    else
      "0." ++ String.ofList (List.replicate (-point).toNat '0' ++ text)
  else
    let fraction := if text.length = 1 then "" else "." ++ String.ofList (text.drop 1)
    let sign := if 1 ≤ point ∧ style.plusSign then "+" else ""
    String.ofList (text.take 1) ++ fraction ++ "e" ++ sign ++ integerText (point - 1)

/-- The shortest text of a number that reads back as it. -/
def render (style : ExponentStyle) (x : Binary64) : String :=
  let size :=
    if x.significand = 0 then "0.0"
    else
      let (digits, exponent) := shortest x
      layout style digits exponent
  if x.negative then "-" ++ size else size

end ApiDoc.Decimal
