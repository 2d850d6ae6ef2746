import ServiceBalancer.Toml.Value

/-! Tables under construction. A draft remembers how each table came to be, which decides what may
still be added to it. -/
namespace ServiceBalancer.Toml

inductive Origin where
  /-- by a header of its own -/
  | header
  /-- on the way to the table of a header -/
  | implied
  /-- on the way to the last part of a dotted key -/
  | dotted
  deriving DecidableEq

inductive Draft where
  | value (v : Toml)
  | table (origin : Origin) (members : List (String × Draft))
  | row (tables : List Draft)

namespace Draft

mutual
def finish : Draft → Toml
  | .value v => v
  | .table _ members => .table (finishMembers members)
  | .row tables => .list (finishRow tables)
def finishMembers : List (String × Draft) → List (String × Toml)
  | [] => []
  | (name, member) :: rest => (name, member.finish) :: finishMembers rest
def finishRow : List Draft → List Toml
  | [] => []
  | first :: rest => first.finish :: finishRow rest
end

def put (name : String) (member : Draft) : List (String × Draft) → List (String × Draft)
  | [] => [(name, member)]
  | (other, old) :: rest => if other = name then (name, member) :: rest else (other, old) :: put name member rest

/-- Changes the table at the end of a path, which starts at a table of a given origin. A table that
is missing on the way is made, as `made` says how. The way leads through the last table of a row.
No dotted key leads into a table that has a header of its own. -/
def atPath (made : Origin) (change : Origin → List (String × Draft) → Option (List (String × Draft))) :
    List String → Origin → List (String × Draft) → Option (List (String × Draft))
  | [], origin, members => change origin members
  | name :: path, _, members =>
    match members.lookup name with
    | none => do return put name (.table made (← atPath made change path made [])) members
    | some (.value _) => none
    | some (.table origin inner) =>
      if made = .dotted ∧ origin = .header then none
      else do return put name (.table origin (← atPath made change path origin inner)) members
    | some (.row tables) =>
      match tables.getLast? with
      | some (.table origin inner) => do
        let last ← atPath made change path origin inner
        return put name (.row (tables.dropLast ++ [.table origin last])) members
      | _ => none

/-- Gives the key `path.name` a value that it does not have yet. Dotted keys add to tables that
dotted keys made only, and a plain key to no such table. -/
def assign (path : List String) (name : String) (v : Toml) (members : List (String × Draft)) :
    Option (List (String × Draft)) :=
  atPath .dotted (fun origin inner =>
    if (origin == .dotted) == path.isEmpty then none
    else if (inner.lookup name).isSome then none
    else some (put name (.value v) inner)) path .header members

/-- Opens the table `path.name` for a header. It must be new, or have been passed on the way to
other headers only. -/
def openTable (path : List String) (name : String) : List (String × Draft) → Option (List (String × Draft)) :=
  atPath .implied (fun _ inner =>
    match inner.lookup name with
    | none => some (put name (.table .header []) inner)
    | some (.table .implied kept) => some (put name (.table .header kept) inner)
    | some _ => none) path .header

def openRow (path : List String) (name : String) : List (String × Draft) → Option (List (String × Draft)) :=
  atPath .implied (fun _ inner =>
    match inner.lookup name with
    | none => some (put name (.row [.table .header []]) inner)
    | some (.row tables) => some (put name (.row (tables ++ [.table .header []])) inner)
    | some _ => none) path .header

def assignWithin (current path : List String) (name : String) (v : Toml) :
    List (String × Draft) → Option (List (String × Draft)) :=
  atPath .implied (fun _ inner => assign path name v inner) current .header

end Draft
end ServiceBalancer.Toml
