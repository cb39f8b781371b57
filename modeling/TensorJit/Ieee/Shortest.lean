import TensorJit.Ieee.Format
import TensorJit.Text.Decimal

/-!
# Shortest decimals

A floating-point word is written with the fewest digits that read back as it. The reals that
round to a finite datum form an interval around it, whose ends belong to it exactly when its
significand is even. On the grid of decimals with a given last place the datum has two
neighbours, and if any point of the grid lies in the interval, one of these two does. So the
search tries the neighbours on finer and finer grids: **the first grid with a hit gives the
fewest digits**, and of two hits the nearer is taken, the upper one if they are equally near.

The layout is a matter of the format, not of the search: a decimal is written positionally,
always with a point, while its leading digit stands for a power of ten from `-4` to `15`, and
with an exponent beyond that.
-/

namespace TensorJit.Ieee

/-- The decimal `digits * 10 ^ exponent`. -/
structure Decimal where
  /-- The digits as one number. -/
  digits : Nat
  /-- The power of ten of the last digit. -/
  exponent : Int
  deriving DecidableEq, Repr

/-- The reals that round to a positive datum, as numerators over one common denominator. -/
structure RoundingInterval where
  /-- The lower end. -/
  low : Nat
  /-- The datum. -/
  value : Nat
  /-- The upper end. -/
  high : Nat
  /-- The common denominator. -/
  denominator : Nat
  /-- Whether the ends round to the datum too. -/
  closed : Bool
  deriving DecidableEq, Repr

namespace RoundingInterval

variable (i : RoundingInterval)

/-- The factor for the datum and the factor for the grid that make `10 ^ place` a unit. -/
def factors (place : Int) : Nat × Nat := (Nat.pow 10 (-place).toNat, Nat.pow 10 place.toNat)

/-- Whether `digits * 10 ^ place` lies in the interval. -/
def holds (place : Int) (digits : Nat) : Bool :=
  let (up, down) := factors place
  let point := digits * (i.denominator * down)
  if i.closed then i.low * up ≤ point && point ≤ i.high * up
  else i.low * up < point && point < i.high * up

/-- The neighbour of the datum on the grid of `10 ^ place` that lies in the interval; of two
the nearer, and the upper one if they are equally near. -/
def hit? (place : Int) : Option Decimal :=
  let (up, down) := factors place
  let below := i.value * up / (i.denominator * down)
  match i.holds place below, i.holds place (below + 1) with
  | false, false => none
  | true, false => some ⟨below, place⟩
  | false, true => some ⟨below + 1, place⟩
  | true, true =>
    if 2 * (i.value * up) < (2 * below + 1) * (i.denominator * down) then some ⟨below, place⟩
    else some ⟨below + 1, place⟩

/-- The power of ten of the leading digit of the datum. -/
def leadingPlace : Int :=
  if i.denominator ≤ i.value then
    ((Text.natDigits (i.value / i.denominator)).length : Int) - 1
  else
    let k := (Text.natDigits (i.denominator / i.value)).length
    if i.denominator ≤ i.value * Nat.pow 10 (k - 1) then -((k : Int) - 1) else -(k : Int)

/-- The hit on the coarsest of `count` grids, each ten times finer than the one before. -/
def search : (count : Nat) → (place : Int) → Option Decimal
  | 0, _ => none
  | count + 1, place =>
    match i.hit? place with
    | some d => some d
    | none => search count (place - 1)

/-- No datum of the formats in use needs more digits than this. -/
def maxDigits : Nat := 17

/-- The datum written out; its denominator is a power of two, which divides that of ten. -/
def exact : Decimal :=
  let places := i.denominator.log2
  ⟨i.value * Nat.pow 5 places, -(places : Int)⟩

/-- The shortest decimal in the interval. A final zero, as in ten units of the first grid, is
carried into the exponent. -/
def shortest : Decimal :=
  let d := (i.search maxDigits i.leadingPlace).getD i.exact
  if d.digits % 10 = 0 then ⟨d.digits / 10, d.exponent + 1⟩ else d

end RoundingInterval

namespace Format

variable (f : Format)

/-- The interval of a positive finite datum with the given low bits. Below a power of two the
next datum is only half as far away as above it. -/
def interval (bits : Nat) : RoundingInterval :=
  let (significand, power) := f.scaled bits
  let narrow := significand = f.hidden ∧ power ≠ 0
  { low := (4 * significand - if narrow then 1 else 2) <<< power
    value := (4 * significand) <<< power
    high := (4 * significand + 2) <<< power
    denominator := 4 <<< f.unitExponent
    closed := significand % 2 = 0 }

end Format

namespace Decimal

/-- Leading digits with these powers of ten are written without an exponent. -/
def positional (power : Int) : Bool := -4 ≤ power && power ≤ 15

/-- The decimal without an exponent, with at least one digit on either side of the point. -/
def layoutPositional (digits : List Char) (power : Int) : List Char :=
  if power < 0 then
    '0' :: '.' :: (List.replicate (-power - 1).toNat '0' ++ digits)
  else
    let whole := power.toNat + 1
    let fraction := digits.drop whole
    digits.take whole ++ List.replicate (whole - digits.length) '0' ++
      '.' :: (if fraction.isEmpty then ['0'] else fraction)

/-- The decimal with one digit before the point and an exponent. -/
def layoutScientific (digits : List Char) (power : Int) : List Char :=
  let fraction := digits.drop 1
  digits.take 1 ++ (if fraction.isEmpty then [] else '.' :: fraction) ++
    'e' :: Text.intDigits power

/-- The text of a decimal. -/
def render (d : Decimal) : List Char :=
  let digits := Text.natDigits d.digits
  let power := d.exponent + digits.length - 1
  if positional power then layoutPositional digits power else layoutScientific digits power

end Decimal

/-- The text of a word: the shortest decimal that reads back as it. -/
def Format.render (f : Format) (word : Nat) : List Char :=
  let sign (negative : Bool) : List Char := if negative then ['-'] else []
  match f.decode word with
  | .nan => "NaN".toList
  | .infinite negative => sign negative ++ "inf".toList
  | .finite negative magnitude =>
    sign negative ++
      if magnitude = 0 then "0.0".toList
      else (f.interval (word % f.signBit)).shortest.render

end TensorJit.Ieee
