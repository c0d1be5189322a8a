import Rollout.Number.Binary64

/-!
The shortest decimal that reads back to a given floating point number, and its written forms. For
1, 2, … 17 digits the two neighbours of the number on that decimal grid are tested against the
interval of reals that round to it; the first grid with a hit wins, and of two hits the nearer.
-/

namespace Rollout.Binary64

/-- The decimal `digits * 10 ^ exponent`. -/
structure Decimal where
  digits : Nat
  exponent : Int
deriving DecidableEq, Repr

/-- The fraction `mantissa * 2 ^ (exponent - 2)`. -/
def quarters (mantissa : Nat) (exponent : Int) : Nat × Nat :=
  if exponent ≥ 2 then (mantissa * Nat.pow 2 (exponent - 2).toNat, 1)
  else (mantissa, Nat.pow 2 (2 - exponent).toNat)

/-- The place of the first digit of `num / den`: 0 for units, 1 for tens, -1 for tenths. -/
def leadingPlace (num den : Nat) : Int :=
  if num ≥ den then digitCount (num / den) - 1
  else -(digitCount ((den + num - 1) / num - 1) : Int)

/-- `num / den` against the decimal, both sides brought to whole numbers. -/
def compareDecimal (num den : Nat) (d : Decimal) : Ordering :=
  if d.exponent ≥ 0 then compare num (d.digits * Nat.pow 10 d.exponent.toNat * den)
  else compare (num * Nat.pow 10 (-d.exponent).toNat) (d.digits * den)

/-- The greatest decimal of the given place that is not above `num / den`. -/
def floorDecimal (num den : Nat) (place : Int) : Decimal :=
  if place ≥ 0 then ⟨num / (den * Nat.pow 10 place.toNat), place⟩
  else ⟨num * Nat.pow 10 (-place).toNat / den, place⟩

/-- Does the decimal round to `mantissa * 2 ^ exponent`? The ends of the interval belong to it
when the mantissa is even; below a power of two the next number is half as far away.
-/
def readsBack (mantissa : Nat) (exponent : Int) (d : Decimal) : Bool :=
  let below := if mantissa = Nat.pow 2 52 ∧ exponent > -1074 then 1 else 2
  let (lowNum, den) := quarters (4 * mantissa - below) exponent
  let (highNum, _) := quarters (4 * mantissa + 2) exponent
  -- An end of the interval is a tie, which goes to the even mantissa.
  let even := mantissa % 2 = 0
  let low := compareDecimal lowNum den d
  let high := compareDecimal highNum den d
  (low = .lt || (even && low = .eq)) && (high = .gt || (even && high = .eq))

/-- The decimal of `count` digits nearest to the number, if one of that length reads back. -/
def nearestDecimal? (mantissa : Nat) (exponent : Int) (count : Nat) : Option Decimal :=
  let (num, den) := quarters (4 * mantissa) exponent
  let low := floorDecimal num den (leadingPlace num den - (count - 1 : Nat))
  let high : Decimal := ⟨low.digits + 1, low.exponent⟩
  let lowFits := readsBack mantissa exponent low
  let highFits := readsBack mantissa exponent high
  if lowFits && highFits then
    match compareDecimal (2 * num) den ⟨low.digits + high.digits, low.exponent⟩ with
    | .lt => some low
    | .gt => some high
    | .eq => some (if low.digits % 2 = 0 then low else high)
  else if lowFits then some low
  else if highFits then some high
  else none

/-- The shortest decimal that reads back. Seventeen digits always do. -/
def shortest (mantissa : Nat) (exponent : Int) : Decimal :=
  ((List.range 17).findSome? fun i => nearestDecimal? mantissa exponent (i + 1)).getD ⟨0, 0⟩

/-- Digits without trailing zeros, and the place of the first one. -/
def Decimal.scientific (d : Decimal) : List Char × Int :=
  let digits := Nat.toDigits 10 d.digits
  let kept := (digits.reverse.dropWhile (· = '0')).reverse
  (kept, d.exponent + (digits.length - 1 : Nat))

/-- Digits around a point, at least one on each side. -/
def plainLayout (digits : List Char) (place : Int) : List Char :=
  if place < 0 then
    '0' :: '.' :: List.replicate (-place - 1).toNat '0' ++ digits
  else
    let units := place.toNat + 1
    let whole := digits.take units ++ List.replicate (units - digits.length) '0'
    let fraction := digits.drop units
    whole ++ '.' :: if fraction.isEmpty then ['0'] else fraction

/-- Digits with an exponent; a point only if a digit follows it. -/
def exponentLayout (digits : List Char) (place : Int) : List Char :=
  let fraction := digits.drop 1
  digits.take 1 ++ (if fraction.isEmpty then [] else '.' :: fraction)
    ++ 'e' :: (toString place).toList

/-- The text of a finite magnitude; `plain` says which places are written without an exponent. -/
def magnitudeText (plain : Int → Bool) (mantissa : Nat) (exponent : Int) : List Char :=
  if mantissa = 0 then ['0', '.', '0']
  else
    let (digits, place) := (shortest mantissa exponent).scientific
    if plain place then plainLayout digits place else exponentLayout digits place

/-- The text of a number in free-form data: plain from 1e-5 up to below 1e16. -/
def text : Binary64 → String
  | .nan => ".nan"
  | .infinite negative => if negative then "-.inf" else ".inf"
  | .finite negative mantissa exponent =>
      let body := magnitudeText (fun place => -5 ≤ place && place ≤ 15) mantissa exponent
      String.ofList (if negative then '-' :: body else body)

/-- The text of a number in messages about its type: never with an exponent, and a finite one always
with a point.
-/
def plainText : Binary64 → String
  | .nan => "NaN"
  | .infinite negative => if negative then "-inf" else "inf"
  | .finite negative mantissa exponent =>
      let body := magnitudeText (fun _ => true) mantissa exponent
      String.ofList (if negative then '-' :: body else body)

end Rollout.Binary64
