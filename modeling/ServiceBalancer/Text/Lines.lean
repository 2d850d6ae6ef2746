/-! Lines of a text and occurrences of a marker in it, on lists of characters. -/
namespace ServiceBalancer.Text

def finishLine : List Char → List Char
  | '\r' :: line => line.reverse
  | line => line.reverse

def linesFrom (line : List Char) : List Char → List (List Char)
  | [] => if line.isEmpty then [] else [line.reverse]
  | c :: rest => if c = '\n' then finishLine line :: linesFrom [] rest else linesFrom (c :: line) rest

/-- The lines of a text. A line feed, with a carriage return just before it, ends a line;
an empty rest after the last line feed is no line. -/
def lines (s : List Char) : List (List Char) := linesFrom [] s

def occursIn (marker : List Char) : List Char → Bool
  | [] => marker.isEmpty
  | c :: rest => marker.isPrefixOf (c :: rest) || occursIn marker rest

def fromLast? (marker : List Char) : List Char → Option (List Char)
  | [] => if marker.isEmpty then some [] else none
  | c :: rest =>
    match fromLast? marker rest with
    | some tail => some tail
    | none => if marker.isPrefixOf (c :: rest) then some (c :: rest) else none

theorem fromLast?_isSome (marker s : List Char) : (fromLast? marker s).isSome = occursIn marker s := by
  induction s with
  | nil => by_cases h : marker.isEmpty <;> simp [fromLast?, occursIn, h]
  | cons c rest ih =>
    cases hr : fromLast? marker rest with
    | some tail => simp [fromLast?, occursIn, hr, ← ih]
    | none => cases hp : marker.isPrefixOf (c :: rest) <;> simp [fromLast?, occursIn, hr, hp, ← ih]

end ServiceBalancer.Text
