/-! Reading a text from its front. -/
namespace ServiceBalancer.Text

abbrev Reader := StateT (List Char) Option

namespace Reader
variable {α : Type}

def next? : Reader (Option Char) := fun rest => some (rest.head?, rest)

def startsWith (s : List Char) : Reader Bool := fun rest => some (s.isPrefixOf rest, rest)

def oneOf (test : Char → Bool) : Reader Char := fun rest =>
  match rest with
  | c :: rest => if test c then some (c, rest) else none
  | [] => none

def exactly (s : List Char) : Reader Unit := fun rest =>
  if s.isPrefixOf rest then some ((), rest.drop s.length) else none

def span (test : Char → Bool) : Reader (List Char) := fun rest =>
  some (rest.takeWhile test, rest.dropWhile test)

def times (count : Nat) (test : Char → Bool) : Reader (List Char) := fun rest =>
  let taken := rest.take count
  if taken.length = count ∧ taken.all test then some (taken, rest.drop count) else none

def manyWithin (item : Reader (Option α)) : Nat → Reader (List α)
  | 0 => failure
  | rounds + 1 => do
    match ← item with
    | none => return []
    | some a => return a :: (← manyWithin item rounds)

/-- Reads items until there is none. Each takes a character at least, so the text bounds their number. -/
def many (item : Reader (Option α)) : Reader (List α) := fun rest => manyWithin item (rest.length + 1) rest

def all? (read : Reader α) (s : List Char) : Option α :=
  match read s with
  | some (a, []) => some a
  | _ => none

end Reader
end ServiceBalancer.Text
