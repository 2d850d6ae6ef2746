import ServiceBalancer.Text.Quoted

/-! JSON values with whole numbers, their compact text, and access to the members of an object. -/
namespace ServiceBalancer

/-- A JSON value. The API objects handled here hold no number that is not whole. -/
inductive Json where
  | null
  | bool (b : Bool)
  | num (n : Int)
  | str (s : String)
  | arr (items : List Json)
  | obj (members : List (String × Json))
  deriving Inhabited, Repr

namespace Json

mutual
def beq : Json → Json → Bool
  | .null, .null => true
  | .bool a, .bool b => a == b
  | .num a, .num b => a == b
  | .str a, .str b => a == b
  | .arr a, .arr b => beqItems a b
  | .obj a, .obj b => beqMembers a b
  | _, _ => false
def beqItems : List Json → List Json → Bool
  | [], [] => true
  | a :: as, b :: bs => beq a b && beqItems as bs
  | _, _ => false
def beqMembers : List (String × Json) → List (String × Json) → Bool
  | [], [] => true
  | (k, a) :: as, (l, b) :: bs => k == l && beq a b && beqMembers as bs
  | _, _ => false
end

instance : BEq Json := ⟨beq⟩

mutual
private theorem beq_iff (a b : Json) : beq a b = true ↔ a = b := by
  cases a with
  | arr items => cases b <;> simp [beq, beqItems_iff items]
  | obj members => cases b <;> simp [beq, beqMembers_iff members]
  | _ => cases b <;> simp [beq]
private theorem beqItems_iff (as bs : List Json) : beqItems as bs = true ↔ as = bs := by
  cases as with
  | nil => cases bs <;> simp [beqItems]
  | cons a as => cases bs <;> simp [beqItems, beq_iff a, beqItems_iff as]
private theorem beqMembers_iff (as bs : List (String × Json)) : beqMembers as bs = true ↔ as = bs := by
  match as, bs with
  | [], [] => simp [beqMembers]
  | [], _ :: _ => simp [beqMembers]
  | _ :: _, [] => simp [beqMembers]
  | (k, a) :: as, (l, b) :: bs => simp [beqMembers, beq_iff a, beqMembers_iff as]
end

instance : LawfulBEq Json where
  rfl := (beq_iff _ _).mpr rfl
  eq_of_beq := (beq_iff _ _).mp

instance : DecidableEq Json := instDecidableEqOfLawfulBEq

/-- A character inside a JSON string: the quote, the backslash and the controls are escaped. -/
def escapeChar (c : Char) : List Char :=
  if c = '"' then ['\\', '"']
  else if c = '\\' then ['\\', '\\']
  else if c.toNat = 0x08 then ['\\', 'b']
  else if c.toNat = 0x0c then ['\\', 'f']
  else if c = '\n' then ['\\', 'n']
  else if c = '\r' then ['\\', 'r']
  else if c = '\t' then ['\\', 't']
  else if c.toNat < 0x10 then ['\\', 'u', '0', '0', '0'] ++ Text.hexDigits c.toNat
  else if c.toNat < 0x20 then ['\\', 'u', '0', '0'] ++ Text.hexDigits c.toNat
  else [c]

def renderString (s : String) : List Char := '"' :: (s.toList.flatMap escapeChar ++ ['"'])

def renderNumber (n : Int) : List Char :=
  if n < 0 then '-' :: Nat.toDigits 10 n.natAbs else Nat.toDigits 10 n.natAbs

mutual
def render : Json → List Char
  | .null => ['n', 'u', 'l', 'l']
  | .bool true => ['t', 'r', 'u', 'e']
  | .bool false => ['f', 'a', 'l', 's', 'e']
  | .num n => renderNumber n
  | .str s => renderString s
  | .arr items => '[' :: (renderItems items ++ [']'])
  | .obj members => '\x7b' :: (renderMembers members ++ ['\x7d'])
def renderItems : List Json → List Char
  | [] => []
  | [item] => render item
  | item :: rest => render item ++ ',' :: renderItems rest
def renderMembers : List (String × Json) → List Char
  | [] => []
  | [(key, value)] => renderString key ++ ':' :: render value
  | (key, value) :: rest => renderString key ++ ':' :: (render value ++ ',' :: renderMembers rest)
end

def text (j : Json) : String := .ofList j.render

def ofMembers (members : List (String × Option Json)) : Json :=
  .obj (members.filterMap (fun m => m.2.map (fun j => (m.1, j))))

/-- The member `name` of an object. A null member counts as absent. -/
def get? (j : Json) (name : String) : Option Json :=
  match j with
  | .obj members =>
    match members.lookup name with
    | some .null => none
    | member => member
  | _ => none

def isObject : Json → Bool
  | .obj _ => true
  | _ => false

def bool? : Json → Option Bool
  | .bool b => some b
  | _ => none

def str? : Json → Option String
  | .str s => some s
  | _ => none

def bounded? (least greatest : Int) : Json → Option Int
  | .num n => if least ≤ n ∧ n ≤ greatest then some n else none
  | _ => none

def int32? : Json → Option Int := bounded? (-2147483648) 2147483647

def int64? : Json → Option Int := bounded? (-9223372036854775808) 9223372036854775807

def value? : Json → Option Json
  | .null => none
  | j => some j

def list? {α : Type} (read : Json → Option α) : Json → Option (List α)
  | .arr items => items.mapM read
  | _ => none

def strings? : Json → Option (List String) := list? str?

def ofStrings (l : List String) : Json := .arr (l.map .str)

def members? : Json → Option (List (String × Json))
  | .obj members => some members
  | _ => none

/-- An optional member: absence is no failure, but an unreadable value is. -/
def optional? {α : Type} (j : Json) (name : String) (read : Json → Option α) : Option (Option α) :=
  match j.get? name with
  | none => some none
  | some member => (read member).map some

def orElse? {α : Type} (j : Json) (name : String) (read : Json → Option α) (fallback : α) : Option α :=
  (j.optional? name read).map (·.getD fallback)

end Json
end ServiceBalancer
