/-! Binary64 numbers as exact fractions, and rounding of fractions to whole numbers. -/
namespace ServiceBalancer.Number

/-- A number of 64 bits: not a number, an infinity, or `mantissa * 2 ^ exponent` with a sign. -/
inductive Binary64 where
  | nan
  | infinite (negative : Bool)
  | finite (negative : Bool) (mantissa : Nat) (exponent : Int)
  deriving Repr, DecidableEq

/-- The value of a floating point number, read from its bits. -/
def Binary64.ofFloat (x : Float) : Binary64 :=
  let bits := x.toBits.toNat
  let negative := bits / Nat.pow 2 63 == 1
  let biased : Nat := bits / Nat.pow 2 52 % Nat.pow 2 11
  let fraction := bits % Nat.pow 2 52
  if biased = 2047 then (if fraction = 0 then .infinite negative else .nan)
  else if biased = 0 then .finite negative fraction (-1074)
  else .finite negative (Nat.pow 2 52 + fraction) ((biased : Int) - 1075)

def nearest (num den : Nat) : Nat :=
  let whole := num / den
  let rest := num % den
  if 2 * rest < den then whole
  else if den < 2 * rest then whole + 1
  else if whole % 2 = 0 then whole else whole + 1

def fraction (mantissa : Nat) (exponent : Int) : Nat × Nat :=
  if 0 ≤ exponent then (mantissa * Nat.pow 2 exponent.toNat, 1) else (mantissa, Nat.pow 2 (-exponent).toNat)

/-- The number nearest to a fraction, a tie going to the even mantissa and what is too large to
infinity. The mantissa is cut at 53 digits, or earlier at the last place that small numbers have. -/
def ofFraction (negative : Bool) (num den : Nat) : Float :=
  let guess : Int := (num.log2 : Int) - den.log2 - 53
  let (p, q) := fraction den guess
  let exponent := if num = 0 then -1074 else max (-1074) (if p * Nat.pow 2 53 ≤ num * q then guess + 1 else guess)
  let (p, q) := fraction den exponent
  let mantissa := nearest (num * q) p
  let bits := min ((exponent + 1074).toNat * Nat.pow 2 52 + mantissa) (2047 * Nat.pow 2 52)
  .ofBits (.ofNat (if negative then Nat.pow 2 63 + bits else bits))

/-- The number nearest to `digits * 10 ^ exponent`. Beyond any number that is finite, or below half
of the least, the exponent itself does not matter. -/
def ofDecimal (negative : Bool) (digits : Nat) (exponent : Int) : Float :=
  let size : Int := (Nat.toDigits 10 digits).length + exponent
  if digits = 0 ∨ size < -330 then ofFraction negative 0 1
  else if 310 < size then ofFraction negative (Nat.pow 2 1100) 1
  else ofFraction negative (digits * Nat.pow 10 exponent.toNat) (Nat.pow 10 (-exponent).toNat)

end ServiceBalancer.Number
