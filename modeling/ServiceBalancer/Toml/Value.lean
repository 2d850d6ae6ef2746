/-! The values of a TOML document. -/
namespace ServiceBalancer

/-- A TOML value. A date or a time is kept as it was written. -/
inductive Toml where
  | text (s : String)
  | whole (n : Int)
  | real (x : Float)
  | truth (b : Bool)
  | moment (written : String)
  | list (items : List Toml)
  | table (members : List (String × Toml))
  deriving Inhabited

namespace Toml

def text? : Toml → Option String
  | .text s => some s
  | _ => none

def natural? (bound : Nat) : Toml → Option Nat
  | .whole n => if 0 ≤ n ∧ n < bound then some n.toNat else none
  | _ => none

def list? {α : Type} (read : Toml → Option α) : Toml → Option (List α)
  | .list items => items.mapM read
  | _ => none

/-- Whether a value can stand for a record: a table names the fields, and a list gives them by
place. A date counts as a table without any of the fields. -/
def isRecord : Toml → Bool
  | .table _ | .list _ | .moment _ => true
  | _ => false

def field? (t : Toml) (place : Nat) (name : String) : Option Toml :=
  match t with
  | .table members => members.lookup name
  | .list items => items[place]?
  | _ => none

def orElse? {α : Type} (t : Toml) (place : Nat) (name : String) (read : Toml → Option α) (fallback : α) :
    Option α :=
  match t.field? place name with
  | some value => read value
  | none => some fallback

end Toml
end ServiceBalancer
