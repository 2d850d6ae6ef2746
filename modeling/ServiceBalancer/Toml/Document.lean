import ServiceBalancer.Toml.Draft
import ServiceBalancer.Toml.Scalar

/-! TOML documents: keys, values and lines, and the table that a whole document stands for. -/
namespace ServiceBalancer.Toml.Read
open Text (Reader)
open Text.Reader

def depthLimit : Nat := 80

def isBareKeyChar (c : Char) : Bool := c.isAlphanum || c = '_' || c = '-'

/-- One part of a key: bare, or quoted on one line. -/
def keyPart : Reader String := do
  match ← next? with
  | some '"' => quotedLine
  | some '\'' => literalLine
  | _ => do
    let chars ← span isBareKeyChar
    if chars.isEmpty then failure else return .ofList chars

/-- A key: its parts up to the last, and the last. Dots, with blanks around them, separate the parts. -/
def key : Reader (List String × String) := do
  spaces
  let first ← keyPart
  spaces
  let others ← many do
    if ← startsWith ['.'] then
      exactly ['.']
      spaces
      let part ← keyPart
      spaces
      return some part
    else return none
  let parts := first :: others
  if depthLimit ≤ parts.length then failure
  return (parts.dropLast, others.getLast?.getD first)

/-- The items of a list after its bracket: commas separate them, and one may follow the last. -/
def listItems (item : Reader Toml) : Reader (List Toml) := do
  let close : Reader Unit := exactly [']']
  let items ← many do
    filler
    if ← startsWith [']'] then close; return none
    else
      let v ← item
      filler
      unless ← startsWith [']'] do exactly [',']
      return some v
  return items

/-- The members of an inline table after its brace: commas separate them, on one line. -/
def inlineMembers (item : Reader Toml) : Reader Toml := do
  let member : Reader (List String × String × Toml) := do
    let (path, name) ← key
    exactly ['=']
    spaces
    let v ← item
    spaces
    return (path, name, v)
  spaces
  let members ←
    if ← startsWith ['\x7d'] then pure []
    else do
      let first ← member
      let others ← many do
        if ← startsWith [','] then exactly [',']; return some (← member) else return none
      pure (first :: others)
  exactly ['\x7d']
  match members.foldlM (fun draft (m : List String × String × Toml) => Draft.assign m.1 m.2.1 m.2.2 draft) [] with
  | some draft => return (Draft.table .header draft).finish
  | none => failure

/-- A value. What nests in it is read by `nested`, if it may nest any deeper. -/
def valueOf (nested : Option (Reader Toml)) : Reader Toml := do
  match ← next? with
  | some '"' | some '\'' => return .text (← text)
  | some 't' => exactly ['t', 'r', 'u', 'e']; return .truth true
  | some 'f' => exactly ['f', 'a', 'l', 's', 'e']; return .truth false
  | some '[' =>
    match nested with
    | some item => exactly ['[']; return .list (← listItems item)
    | none => failure
  | some '\x7b' =>
    match nested with
    | some item => exactly ['\x7b']; inlineMembers item
    | none => failure
  | _ => if isMoment (← get) then moment else number

def value : Nat → Reader Toml
  | 0 => valueOf none
  | depth + 1 => valueOf (some (value depth))

inductive Line where
  | assignment (path : List String) (name : String) (v : Toml)
  | table (path : List String) (name : String)
  | row (path : List String) (name : String)

def header : Reader Line := do
  if ← startsWith ['[', '['] then
    exactly ['[', '[']
    let (path, name) ← key
    exactly [']', ']']
    return .row path name
  else
    exactly ['[']
    let (path, name) ← key
    exactly [']']
    return .table path name

def assignment : Reader Line := do
  let (path, name) ← key
  exactly ['=']
  spaces
  return .assignment path name (← value (depthLimit - 1))

def documentLines : Reader (List Line) := do
  let found ← many do
    spaces
    match ← next? with
    | none => return none
    | some '#' => lineEnd; return some none
    | some '\n' | some '\r' => newline; return some none
    | some c =>
      let line ← if c = '[' then header else assignment
      lineEnd
      return some (some line)
  return found.filterMap id

end ServiceBalancer.Toml.Read

namespace ServiceBalancer.Toml

/-- A document as far as its lines have been taken in, and the table that its last header opened. -/
structure Progress where
  current : List String := []
  members : List (String × Draft) := []

def Progress.add (p : Progress) : Read.Line → Option Progress
  | .assignment path name v => do return { p with members := ← Draft.assignWithin p.current path name v p.members }
  | .table path name => do return ⟨path ++ [name], ← Draft.openTable path name p.members⟩
  | .row path name => do return ⟨path ++ [name], ← Draft.openRow path name p.members⟩

/-- The table that a document stands for. A byte order mark may precede it. -/
def ofDocument? (s : String) : Option Toml := do
  let rest := match s.toList with
    | '\ufeff' :: rest => rest
    | rest => rest
  let found ← Read.documentLines.all? rest
  let p ← found.foldlM Progress.add {}
  return (Draft.table .header p.members).finish

end ServiceBalancer.Toml
