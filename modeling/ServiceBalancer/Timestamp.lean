/-! Moments in time and their text as date, time of day and offset. -/
namespace ServiceBalancer

/-- A moment, in nanoseconds since the start of 1970 in UTC. -/
structure Timestamp where
  nanos : Int
  deriving DecidableEq, Repr, Inhabited

namespace Timestamp

def isLeapYear (year : Int) : Bool := year % 4 = 0 && (year % 100 ≠ 0 || year % 400 = 0)

def daysInMonth (year : Int) (month : Nat) : Nat :=
  if month = 2 then (if isLeapYear year then 29 else 28)
  else if month = 4 ∨ month = 6 ∨ month = 9 ∨ month = 11 then 30
  else 31

def daysBeforeYear (year : Int) : Int :=
  let y := year - 1
  365 * year + (y / 4 - y / 100 + y / 400) + 1

def daysBeforeMonth (year : Int) (month : Nat) : Nat :=
  ((List.range month).drop 1).foldl (fun days m => days + daysInMonth year m) 0

def epochDays : Int := daysBeforeYear 1970

def monthAndDay (year : Int) : Nat → Nat → Nat → Nat × Nat
  | 0, month, day => (month, day + 1)
  | fuel + 1, month, day =>
    if day < daysInMonth year month then (month, day + 1)
    else monthAndDay year fuel (month + 1) (day - daysInMonth year month)

/-- Year, month and day of a day counted from 1 January 1970. The year is estimated from the mean
length of a year and corrected by at most one. -/
def civilDate (days : Int) : Int × Nat × Nat :=
  let total := days + epochDays
  let guess := total * 400 / 146097
  let year :=
    if total < daysBeforeYear guess then guess - 1
    else if daysBeforeYear (guess + 1) ≤ total then guess + 1
    else guess
  let (month, day) := monthAndDay year 11 1 (total - daysBeforeYear year).toNat
  (year, month, day)

def padded (width n : Nat) : List Char :=
  let digits := Nat.toDigits 10 n
  List.replicate (width - digits.length) '0' ++ digits

/-- Date and time of day in UTC, up to the second. A year of other than four digits has a sign. -/
def dateTime (t : Timestamp) : List Char :=
  let seconds := t.nanos / 1000000000
  let (year, month, day) := civilDate (seconds / 86400)
  let second := (seconds % 86400).toNat
  let sign := if year < 0 then ['-'] else if 9999 < year then ['+'] else []
  sign ++ padded 4 year.natAbs ++ '-' :: padded 2 month ++ '-' :: padded 2 day ++ 'T' :: padded 2 (second / 3600) ++
    ':' :: padded 2 (second / 60 % 60) ++ ':' :: padded 2 (second % 60)

def text (t : Timestamp) : String := .ofList (t.dateTime ++ ['Z'])

def microText (t : Timestamp) : String :=
  .ofList (t.dateTime ++ '.' :: padded 6 (t.nanos % 1000000000 / 1000).toNat ++ ['Z'])

/-- A moment to the microsecond, what is finer being cut off. -/
def truncateMicros (t : Timestamp) : Timestamp := ⟨t.nanos / 1000 * 1000⟩

def addSeconds (t : Timestamp) (seconds : Int) : Timestamp := ⟨t.nanos + seconds * 1000000000⟩

def digits? : Nat → Nat → List Char → Option (Nat × List Char)
  | 0, value, rest => some (value, rest)
  | count + 1, value, c :: rest =>
    if c.isDigit then digits? count (value * 10 + (c.toNat - 48)) rest else none
  | _ + 1, _, [] => none

def char? (c : Char) : List Char → Option (List Char)
  | d :: rest => if d = c then some rest else none
  | [] => none

/-- Reads a fraction of a second into nanoseconds; digits after the ninth are cut off. -/
def fraction? : List Char → Option (Nat × List Char)
  | '.' :: rest =>
    let digits := rest.takeWhile Char.isDigit
    if digits.isEmpty then none
    else
      let kept := (digits ++ List.replicate 9 '0').take 9
      some (kept.foldl (fun n c => n * 10 + (c.toNat - 48)) 0, rest.dropWhile Char.isDigit)
  | rest => some (0, rest)

def offset? : List Char → Option Int
  | ['Z'] | ['z'] => some 0
  | sign :: rest => do
    let (hours, rest) ← digits? 2 0 rest
    let rest ← char? ':' rest
    let (minutes, rest) ← digits? 2 0 rest
    guard (rest.isEmpty && hours < 24 && minutes < 60)
    if sign = '+' then some (hours * 60 + minutes : Nat)
    else if sign = '-' then some (-(hours * 60 + minutes : Nat))
    else none
  | [] => none

/-- Reads a moment: date, time of day, fraction of a second and offset. -/
def ofText? (s : String) : Option Timestamp := do
  let (year, rest) ← digits? 4 0 s.toList
  let rest ← char? '-' rest
  let (month, rest) ← digits? 2 0 rest
  let rest ← char? '-' rest
  let (day, rest) ← digits? 2 0 rest
  let rest ← (char? 'T' rest).or ((char? 't' rest).or (char? ' ' rest))
  let (hour, rest) ← digits? 2 0 rest
  let rest ← char? ':' rest
  let (minute, rest) ← digits? 2 0 rest
  let rest ← char? ':' rest
  let (second, rest) ← digits? 2 0 rest
  let (nanos, rest) ← fraction? rest
  let offset ← offset? rest
  guard (1 ≤ month && month ≤ 12 && 1 ≤ day && day ≤ daysInMonth year month)
  guard (hour < 24 && minute < 60 && second ≤ 60)
  let days : Int := daysBeforeYear year - epochDays + daysBeforeMonth year month + (day : Int) - 1
  let seconds : Int := days * 86400 + (hour * 3600 + minute * 60 + second : Nat) - offset * 60
  some ⟨seconds * 1000000000 + nanos⟩

end Timestamp
end ServiceBalancer
