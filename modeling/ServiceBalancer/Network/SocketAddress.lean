import ServiceBalancer.Text.Quoted
import ServiceBalancer.Text.Reader

/-! Addresses to listen on: an internet address and a port. -/
namespace ServiceBalancer

/-- An address of four bytes, or of eight groups of 16 bits with a zone, and a port. -/
inductive SocketAddress where
  | v4 (bytes : List Nat) (port : Nat)
  | v6 (groups : List Nat) (zone port : Nat)
  deriving DecidableEq, Repr

namespace SocketAddress
open Text (Reader)
open Text.Reader

/-! ### Reading -/

def digit? (c : Char) : Option Nat :=
  if c.isDigit then some (c.toNat - 48)
  else if 'a' ≤ c ∧ c ≤ 'f' then some (c.toNat - 87)
  else if 'A' ≤ c ∧ c ≤ 'F' then some (c.toNat - 55)
  else none

/-- A number below `bound`, to a base, in at most `width` digits if there is such a limit. -/
def numeral (base bound : Nat) (width : Option Nat) (padded : Bool) : Reader Nat := do
  let digits := (← span (fun c => (digit? c).any (· < base))).filterMap digit?
  let n := digits.foldl (fun n d => n * base + d) 0
  let fits := width.all (digits.length ≤ ·)
  let plain := padded || digits.length = 1 || digits.head? != some 0
  if digits.isEmpty || !fits || !plain || bound ≤ n then failure else return n

def dotted : Reader (List Nat) := do
  let byte := numeral 10 256 (some 3) false
  let a ← byte
  exactly ['.']
  let b ← byte
  exactly ['.']
  let c ← byte
  exactly ['.']
  return [a, b, c, ← byte]

/-- Groups with colons between them, `room` of them at most, of which `read` have been read. Four
bytes may stand for the last two groups. -/
def groups (read : Nat) : Nat → Reader (List Nat × Bool)
  | 0 => return ([], false)
  | room + 1 => do
    let separated {α : Type} (r : Reader α) : Reader α := do
      if 0 < read then exactly [':']
      r
    let bytes ← if 0 < room then optional (separated dotted) else pure none
    match bytes with
    | some [a, b, c, d] => return ([a * 256 + b, c * 256 + d], true)
    | _ =>
      match ← optional (separated (numeral 16 65536 (some 4) true)) with
      | some group =>
        let (rest, ended) ← groups (read + 1) room
        return (group :: rest, ended)
      | none => return ([], false)

def eightGroups : Reader (List Nat) := do
  let (front, ended) ← groups 0 8
  if front.length = 8 then return front
  else if ended then failure
  else
    exactly [':', ':']
    let (back, _) ← groups 0 (7 - front.length)
    return front ++ List.replicate (8 - front.length - back.length) 0 ++ back

def portNumber : Reader Nat := do
  exactly [':']
  numeral 10 65536 none true

/-- An address with its port. One of eight groups stands in brackets, with a zone if it has one. -/
def whole : Reader SocketAddress := do
  if ← startsWith ['['] then
    exactly ['[']
    let address ← eightGroups
    let zone ← optional do
      exactly ['%']
      numeral 10 (Nat.pow 2 32) none true
    exactly [']']
    return .v6 address (zone.getD 0) (← portNumber)
  else
    let address ← dotted
    return .v4 address (← portNumber)

def ofText? (s : String) : Option SocketAddress := whole.all? s.toList

/-! ### Writing -/

/-- The first of the longest runs of zero groups from `place` on, as its place and its length. -/
def zeroRun : Nat → List Nat → Nat × Nat
  | place, [] => (place, 0)
  | place, g :: rest =>
    let here := ((g :: rest).takeWhile (· = 0)).length
    let later := zeroRun (place + 1) rest
    if later.2 ≤ here then (place, here) else later

def groupsText (gs : List Nat) : List Char :=
  (gs.map Text.hexDigits).intersperse [':'] |>.flatten

def bytesText (bytes : List Nat) : List Char :=
  (bytes.map (Nat.toDigits 10)).intersperse ['.'] |>.flatten

/-- Eight groups in short: a double colon stands for the first of the longest runs of at least two
zeros, and an address that embeds four bytes shows them. -/
def groupsShort (gs : List Nat) : List Char :=
  match gs with
  | [0, 0, 0, 0, 0, 0xffff, a, b] => "::ffff:".toList ++ bytesText [a / 256, a % 256, b / 256, b % 256]
  | gs =>
    let (place, length) := zeroRun 0 gs
    if 1 < length then groupsText (gs.take place) ++ [':', ':'] ++ groupsText (gs.drop (place + length))
    else groupsText gs

def text : SocketAddress → String
  | v4 bytes port => .ofList (bytesText bytes ++ ':' :: Nat.toDigits 10 port)
  | v6 gs zone port =>
    let zoneText := if zone = 0 then [] else '%' :: Nat.toDigits 10 zone
    .ofList ('[' :: (groupsShort gs ++ zoneText ++ ']' :: ':' :: Nat.toDigits 10 port))

end SocketAddress
end ServiceBalancer
