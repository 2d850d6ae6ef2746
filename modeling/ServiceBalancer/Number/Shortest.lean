import ServiceBalancer.Number.Binary64

/-! The shortest decimal that reads back as a given binary64 number, and its two written styles. -/
namespace ServiceBalancer.Number

structure Decimal where
  digits : Nat
  exponent : Int
  deriving Repr, DecidableEq

/-- How far below one a fraction lies: the least `z` with `num * 10 ^ z` at least `den`, up to `fuel`. -/
def leadingZeros (den : Nat) : Nat → Nat → Nat
  | 0, _ => 0
  | fuel + 1, num => if den ≤ num then 0 else leadingZeros den fuel (num * 10) + 1

/-- The exponent `e` with the fraction at least `10 ^ (e - 1)` and below `10 ^ e`. -/
def decimalExponent (num den : Nat) : Int :=
  if den ≤ num then ((Nat.toDigits 10 (num / den)).length : Int) else 1 - leadingZeros den 400 num

/-- Whether `digits * 10 ^ exponent` lies between `low * 2 ^ scale` and `high * 2 ^ scale`, ends
included where `closed` says so. -/
def withinBounds (low high : Nat) (scale : Int) (closed : Bool) (d : Decimal) : Bool :=
  let (p, q) := fraction 1 scale
  let value := d.digits * Nat.pow 10 d.exponent.toNat * q
  let unit := Nat.pow 10 (-d.exponent).toNat * p
  if closed then low * unit ≤ value && value ≤ high * unit
  else low * unit < value && value < high * unit

/-- Of the two neighbours of a value on the grid of `10 ^ exponent`, the nearer one that reads
back as the value; a tie goes to the even neighbour. -/
def neighbour? (mantissa low high : Nat) (scale : Int) (closed : Bool) (exponent : Int) : Option Decimal :=
  let (p, q) := fraction mantissa scale
  let num := p * Nat.pow 10 (-exponent).toNat
  let den := q * Nat.pow 10 exponent.toNat
  let below : Decimal := ⟨num / den, exponent⟩
  let above : Decimal := ⟨num / den + 1, exponent⟩
  let nearer := if nearest num den = below.digits then below else above
  let farther := if nearest num den = below.digits then above else below
  if withinBounds low high scale closed nearer then some nearer
  else if withinBounds low high scale closed farther then some farther
  else none

def firstDecimal (mantissa low high : Nat) (scale : Int) (closed : Bool) (top : Int) : Nat → Int → Decimal
  | 0, count => ⟨(fraction mantissa scale).1, top - count⟩
  | fuel + 1, count =>
    match neighbour? mantissa low high scale closed (top - count) with
    | some d => d
    | none => firstDecimal mantissa low high scale closed top fuel (count + 1)

/-- The decimal with the fewest digits that reads back as `mantissa * 2 ^ exponent`, which is
positive. What reads back is the interval halfway to both neighbours, with its ends if the
mantissa is even; below a power of two the lower neighbour is twice as near. -/
def shortest (mantissa : Nat) (exponent : Int) : Decimal :=
  let low := if mantissa = Nat.pow 2 52 ∧ exponent ≠ -1074 then 4 * mantissa - 1 else 4 * mantissa - 2
  let high := 4 * mantissa + 2
  let scale := exponent - 2
  let (num, den) := fraction mantissa exponent
  firstDecimal (4 * mantissa) low high scale (mantissa % 2 == 0) (decimalExponent num den) 17 1

def Decimal.trimmed : Nat → Decimal → Decimal
  | 0, d => d
  | fuel + 1, d =>
    if d.digits % 10 = 0 ∧ d.digits ≠ 0 then Decimal.trimmed fuel ⟨d.digits / 10, d.exponent + 1⟩ else d

/-- A decimal without an exponent: zeros fill up to the point on either side. -/
def positional (d : Decimal) : List Char :=
  let digits := Nat.toDigits 10 d.digits
  if 0 ≤ d.exponent then digits ++ List.replicate d.exponent.toNat '0'
  else
    let places := (-d.exponent).toNat
    if places < digits.length then
      digits.take (digits.length - places) ++ '.' :: digits.drop (digits.length - places)
    else '0' :: '.' :: (List.replicate (places - digits.length) '0' ++ digits)

def scientific (d : Decimal) : List Char :=
  let digits := Nat.toDigits 10 d.digits
  let exponent : Int := d.exponent + (digits.length : Int) - 1
  let sign := if exponent < 0 then ['-'] else []
  let tail := 'e' :: (sign ++ Nat.toDigits 10 exponent.natAbs)
  match digits with
  | [digit] => digit :: tail
  | digit :: rest => digit :: '.' :: (rest ++ tail)
  | [] => tail

/-- A number in messages: the fewest digits that read back, never an exponent. -/
def plainText (x : Float) : String :=
  match Binary64.ofFloat x with
  | .nan => "NaN"
  | .infinite negative => if negative then "-inf" else "inf"
  | .finite negative mantissa exponent =>
    let body := if mantissa = 0 then ['0'] else positional ((shortest mantissa exponent).trimmed 20)
    .ofList (if negative then '-' :: body else body)

/-- A number in a metrics page: a whole number has one zero behind the point, and an exponent is
written below `10 ^ -6` and from `10 ^ 21` on. -/
def sampleText (x : Float) : String :=
  match Binary64.ofFloat x with
  | .nan => "NaN"
  | .infinite negative => if negative then "-inf" else "inf"
  | .finite negative mantissa exponent =>
    let body :=
      if mantissa = 0 then ['0', '.', '0']
      else
        let d := (shortest mantissa exponent).trimmed 20
        let top : Int := (Nat.toDigits 10 d.digits).length + d.exponent
        if -6 < top ∧ top ≤ 21 then
          if 0 ≤ d.exponent then positional d ++ ['.', '0'] else positional d
        else scientific d
    .ofList (if negative then '-' :: body else body)

end ServiceBalancer.Number
