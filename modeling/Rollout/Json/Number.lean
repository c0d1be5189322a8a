import Rollout.Number.Binary64

/-!
Numbers of JSON text. A number without point and exponent is whole if it has at most 64 bits. Any
other is as many leading digits as fit into 64 bits, rounded, times or over a power of ten, rounded
again; it must not be too large.
-/

namespace Rollout.Json

/-- A number as written: its significant digits and their power of ten. -/
structure Decimal where
  negative : Bool
  digits : Nat
  exponent : Int
deriving Repr

namespace Decimal

/-- Appends digits as long as the number fits into 64 bits, and counts those taken. -/
def take : Nat → Nat → List Char → Nat × Nat
  | digits, count, [] => (digits, count)
  | digits, count, c :: rest =>
      let more := 10 * digits + (c.toNat - '0'.toNat)
      if more < Nat.pow 2 64 then take more (count + 1) rest else (digits, count)

/-- The number with these digits before and after the point. What does not fit is dropped. -/
def ofDigits (negative : Bool) (whole fraction : List Char) (exponent : Int) : Decimal :=
  let (digits, taken) := take 0 0 whole
  let dropped := whole.length - taken
  let (digits, more) := take digits 0 fraction
  ⟨negative, digits, exponent + dropped - more⟩

end Decimal

/-- Ten to a power of at most 308, as a floating point number: mantissa and binary exponent. -/
def powerOfTen (n : Nat) : Nat × Int :=
  match Binary64.ofDecimal false 1 n with
  | .finite _ mantissa exponent => (mantissa, exponent)
  | _ => (0, 0)

/-- A quotient of two positive numbers with binary exponents, rounded. -/
def rounded (num den : Nat) (exponent : Int) : Nat × Int :=
  let (num, den) :=
    if exponent ≥ 0 then (num * Nat.pow 2 exponent.toNat, den)
    else (num, den * Nat.pow 2 (-exponent).toNat)
  match Binary64.ofRatio false num den with
  | .finite _ mantissa exponent => (mantissa, exponent)
  | _ => (0, 2000)

/-- Divides by ten to the power `n`, by 308 places at a time. -/
def dividePower : (steps : Nat) → (x : Nat × Int) → (n : Nat) → Nat × Int
  | 0, x, _ => x
  | steps + 1, x, n =>
      if x.1 = 0 then x
      else
        let (mantissa, exponent) := powerOfTen (min n 308)
        let x := rounded x.1 mantissa (x.2 - exponent)
        if n ≤ 308 then x else dividePower steps x (n - 308)

/-- The floating point number, unless it is too large. -/
def Decimal.float? (d : Decimal) : Option Binary64 :=
  let start := rounded d.digits 1 0
  if d.digits = 0 then some (.zero d.negative)
  else if d.exponent > 308 then none
  else
    let (mantissa, exponent) :=
      if d.exponent ≥ 0 then
        let power := powerOfTen d.exponent.toNat
        rounded (start.1 * power.1) 1 (start.2 + power.2)
      else dividePower 4 start (-d.exponent).toNat
    if exponent > 971 then none else some (.finite d.negative mantissa exponent)

/-- The whole number that the digits spell, if it has at most 64 bits. Minus zero is none. -/
def wholeNumber? (negative : Bool) (digits : List Char) : Option Int :=
  let n := Binary64.digitsValue digits
  if negative then if 0 < n && n ≤ Nat.pow 2 63 then some (-n) else none
  else if n < Nat.pow 2 64 then some n else none

end Rollout.Json
