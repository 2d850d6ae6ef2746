import ServiceBalancer.Number.Binary64

/-! Spans of time in nanoseconds, and their scaling by a factor. -/
namespace ServiceBalancer

structure Duration where
  nanos : Nat
  deriving DecidableEq, Repr, Inhabited

namespace Duration

def zero : Duration := ⟨0⟩
def ofSeconds (n : Nat) : Duration := ⟨n * 1000000000⟩
def ofMillis (n : Nat) : Duration := ⟨n * 1000000⟩

/-- The longest span: one nanosecond short of `2 ^ 64` seconds. -/
def max : Duration := ⟨Nat.pow 2 64 * 1000000000 - 1⟩

instance : LT Duration := ⟨fun a b => a.nanos < b.nanos⟩
instance : LE Duration := ⟨fun a b => a.nanos ≤ b.nanos⟩
instance (a b : Duration) : Decidable (a < b) := inferInstanceAs (Decidable (a.nanos < b.nanos))
instance (a b : Duration) : Decidable (a ≤ b) := inferInstanceAs (Decidable (a.nanos ≤ b.nanos))

def addSaturating (a b : Duration) : Duration := ⟨min (a.nanos + b.nanos) max.nanos⟩

/-- The span in seconds: whole seconds and the rest are rounded apart. -/
def toSeconds (d : Duration) : Float :=
  Float.ofNat (d.nanos / 1000000000) + Float.ofNat (d.nanos % 1000000000) / 1000000000.0

/-- The span nearest to a number of seconds, a half nanosecond going to the even neighbour. Below
zero, from `2 ^ 64` on and where there is no number, there is none. -/
def ofFloat? (seconds : Float) : Option Duration :=
  match Number.Binary64.ofFloat seconds with
  | .finite negative mantissa exponent =>
    if negative && mantissa != 0 then none
    else
      let (num, den) := Number.fraction mantissa exponent
      if Nat.pow 2 64 * den ≤ num then none else some ⟨Number.nearest (num * 1000000000) den⟩
  | _ => none

/-- The span times `factor`. Where the product is no span, a factor above one gives the longest
span and any other factor leaves the span as it is. -/
def scale (d : Duration) (factor : Float) : Duration :=
  match ofFloat? (d.toSeconds * factor) with
  | some scaled => scaled
  | none => if 1.0 < factor then max else d

def text (d : Duration) : String :=
  let rest := Nat.toDigits 10 (d.nanos % 1000000000)
  .ofList (Nat.toDigits 10 (d.nanos / 1000000000) ++
    '.' :: (List.replicate (9 - rest.length) '0' ++ rest))

end Duration
end ServiceBalancer
