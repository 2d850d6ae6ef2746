import ServiceBalancer.Number.Binary64
import ServiceBalancer.Text.Reader
import ServiceBalancer.Timestamp
import ServiceBalancer.Toml.Value

/-! Blanks, quoted texts, numbers and dates of a TOML document. -/
namespace ServiceBalancer.Toml.Read
open Text (Reader)
open Text.Reader

/-! ### Blanks and line ends -/

def isSpace (c : Char) : Bool := c = ' ' || c = '\t'

/-- Whether a character may stand in a comment: a tab, or no control. -/
def isPlain (c : Char) : Bool := c = '\t' || (0x20 ≤ c.toNat && c.toNat ≠ 0x7f)

def spaces : Reader Unit := do let _ ← span isSpace

def newline : Reader Unit := do
  if ← startsWith ['\r'] then exactly ['\r', '\n'] else exactly ['\n']

def comment : Reader Unit := do
  exactly ['#']
  let _ ← span isPlain

/-- What may follow on a line: blanks, a comment, and the end of the line or of the text. -/
def lineEnd : Reader Unit := do
  spaces
  let _ ← optional comment
  if (← next?).isSome then newline

def blankLines : Reader Unit := do
  let _ ← many do
    match ← next? with
    | some c =>
      if isSpace c then spaces; return some ()
      else return ← optional newline
    | none => return none

def filler : Reader Unit := do
  let _ ← many do
    match ← next? with
    | some c =>
      if isSpace c then spaces; return some ()
      else if c = '#' then comment; newline; return some ()
      else return ← optional newline
    | none => return none

/-! ### Texts -/

def hexDigitValue (c : Char) : Nat :=
  if c.isDigit then c.toNat - 48 else if c.isLower then c.toNat - 87 else c.toNat - 55

def isHexDigit (c : Char) : Bool :=
  c.isDigit || ('a' ≤ c && c ≤ 'f') || ('A' ≤ c && c ≤ 'F')

def ofDigits (base : Nat) (digits : List Char) : Nat :=
  digits.foldl (fun n c => n * base + hexDigitValue c) 0

def numbered (count : Nat) : Reader Char := do
  let n := ofDigits 16 (← times count isHexDigit)
  if n.isValidChar then return .ofNat n else failure

/-- An escape: a backslash and what stands for the character. -/
def escape : Reader Char := do
  exactly ['\\']
  match ← oneOf (fun _ => true) with
  | 'b' => return '\x08'
  | 't' => return '\t'
  | 'n' => return '\n'
  | 'f' => return '\x0c'
  | 'r' => return '\r'
  | '"' => return '"'
  | '\\' => return '\\'
  | 'u' => numbered 4
  | 'U' => numbered 8
  | _ => failure

def quotedLine : Reader String := do
  exactly ['"']
  let chars ← many do
    match ← next? with
    | some '"' => exactly ['"']; return none
    | some '\\' => return some (← escape)
    | _ => return some (← oneOf isPlain)
  return .ofList chars

def literalLine : Reader String := do
  exactly ['\'']
  let chars ← span (fun c => isPlain c && c ≠ '\'')
  exactly ['\'']
  return .ofList chars

/-- A piece of a text between three quotes each, or none at its end. One or two quotes belong to
the text, also right before the closing three. -/
def quotes (quote : Char) : Reader (Option (List Char)) := do
  let run := (← get).takeWhile (· = quote)
  if run.length = 3 then exactly run; return none
  else if run.length < 3 then exactly run; return some run
  else if run.length ≤ 5 then exactly (run.drop 3); return some (run.drop 3)
  else failure

/-- A backslash at the end of a line, which drops the blanks and line ends up to the next character. -/
def continuation : Reader (List Char) := do
  exactly ['\\']
  spaces
  newline
  blankLines
  return []

/-- A text between three quotes each, which may span lines. A line end right after the opening
quotes is dropped, and every other one is read as a line feed. -/
def block (quote : Char) (special : Reader (List Char)) : Reader String := do
  exactly [quote, quote, quote]
  let _ ← optional newline
  let pieces ← many do
    match ← next? with
    | some '\n' | some '\r' => newline; return some ['\n']
    | some c =>
      if c = quote then quotes quote
      else if c = '\\' then return some (← special)
      else return some [← oneOf isPlain]
    | none => failure
  return .ofList pieces.flatten

def text : Reader String := do
  if ← startsWith ['"', '"', '"'] then
    block '"' do
      match ← optional continuation with
      | some piece => return piece
      | none => return [← escape]
  else if ← startsWith ['\'', '\'', '\''] then block '\'' (do return [← oneOf isPlain])
  else if ← startsWith ['"'] then quotedLine
  else literalLine

/-! ### Numbers -/

def digitRun (isDigit : Char → Bool) : Reader (List Char) := do
  let run ← span (fun c => isDigit c || c = '_')
  let parts := (String.ofList run).splitOn "_"
  if parts.all (fun part => part ≠ "") then return run.filter isDigit else failure

def digitsBehind? (mark : Char → Bool) : Reader (Option (List Char)) := do
  match ← optional (oneOf mark) with
  | some _ => return some (← digitRun Char.isDigit)
  | none => return none

def wholeBounds : Int × Int := (-Nat.pow 2 63, Nat.pow 2 63 - 1)

def boundedWhole (n : Int) : Reader Toml :=
  if wholeBounds.1 ≤ n ∧ n ≤ wholeBounds.2 then return .whole n else failure

def radixNumber (mark : List Char) (base : Nat) (isDigit : Char → Bool) : Reader Toml := do
  exactly mark
  boundedWhole (ofDigits base (← digitRun isDigit))

def exponent? : Reader (Option Int) := do
  match ← optional (oneOf (fun c => c = 'e' || c = 'E')) with
  | some _ =>
    let sign ← optional (oneOf (fun c => c = '+' || c = '-'))
    let n : Int := ofDigits 10 (← digitRun Char.isDigit)
    return some (if sign = some '-' then -n else n)
  | none => return none

/-- A number to base ten. With a fraction or an exponent it is real, and must not be too large;
what is too far below zero is read as negative infinity. -/
def decimal (negative : Bool) : Reader Toml := do
  let digits ← digitRun Char.isDigit
  if digits.head? = some '0' ∧ 1 < digits.length then failure
  let places ← digitsBehind? (· = '.')
  let power ← exponent?
  if places.isNone ∧ power.isNone then
    let n : Int := ofDigits 10 digits
    boundedWhole (if negative then -n else n)
  else
    let places := places.getD []
    let x := Number.ofDecimal negative (ofDigits 10 (digits ++ places)) (power.getD 0 - places.length)
    if x.isInf && !negative then failure else return .real x

/-- A number. Infinity and the value that is no number are written by their names. -/
def number : Reader Toml := do
  if ← startsWith ['0', 'x'] then radixNumber ['0', 'x'] 16 isHexDigit
  else if ← startsWith ['0', 'o'] then radixNumber ['0', 'o'] 8 (fun c => '0' ≤ c && c ≤ '7')
  else if ← startsWith ['0', 'b'] then radixNumber ['0', 'b'] 2 (fun c => c = '0' || c = '1')
  else
    let negative := (← optional (oneOf (fun c => c = '+' || c = '-'))) = some '-'
    if ← startsWith ['i'] then
      exactly ['i', 'n', 'f']
      return .real (if negative then -1.0 / 0.0 else 1.0 / 0.0)
    else if ← startsWith ['n'] then
      exactly ['n', 'a', 'n']
      return .real (0.0 / 0.0)
    else decimal negative

/-! ### Dates and times -/

def bounded (count low high : Nat) : Reader Nat := do
  let n := ofDigits 10 (← times count Char.isDigit)
  if low ≤ n ∧ n ≤ high then return n else failure

def date : Reader Unit := do
  let year ← bounded 4 0 9999
  exactly ['-']
  let month ← bounded 2 1 12
  exactly ['-']
  let _ ← bounded 2 1 (Timestamp.daysInMonth year month)

def timeOfDay : Reader Unit := do
  let _ ← bounded 2 0 23
  exactly [':']
  let _ ← bounded 2 0 59
  exactly [':']
  let _ ← bounded 2 0 60
  if ← startsWith ['.'] then
    exactly ['.']
    if (← span Char.isDigit).isEmpty then failure

def offset : Reader Unit := do
  let mark ← oneOf (fun c => c = 'Z' || c = 'z' || c = '+' || c = '-')
  if mark = '+' || mark = '-' then
    let _ ← bounded 2 0 23
    exactly [':']
    let _ ← bounded 2 0 59

def timeBehindDate : Reader Unit := do
  let _ ← oneOf (fun c => c = 'T' || c = 't' || c = ' ')
  timeOfDay
  let _ ← optional offset

/-- A date, a time of day, or both. A blank behind a date need not lead to a time. -/
def moment : Reader Toml := do
  let start ← get
  match ← optional timeOfDay with
  | some _ => pure ()
  | none =>
    date
    let _ ← optional timeBehindDate
  let rest ← get
  return .moment (.ofList (start.take (start.length - rest.length)))

def isMoment (s : List Char) : Bool :=
  let digits := s.takeWhile Char.isDigit
  let mark := (s.drop digits.length).head?
  (digits.length = 4 && mark = some '-') || (digits.length = 2 && mark = some ':')

end ServiceBalancer.Toml.Read
