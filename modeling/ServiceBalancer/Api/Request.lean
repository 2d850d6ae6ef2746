import ServiceBalancer.Api.Address
import ServiceBalancer.Api.Phrase
import ServiceBalancer.Error
import ServiceBalancer.Json
import ServiceBalancer.Program

/-! Requests to the API server, and what its answers mean. -/
namespace ServiceBalancer

namespace Api

inductive Verb where
  | get
  | watch
  | create
  | replace
  | mergePatch
  deriving DecidableEq, Repr

def Verb.text : Verb → String
  | get => "GET"
  | watch => "WATCH"
  | create => "POST"
  | replace => "PUT"
  | mergePatch => "PATCH"

def Verb.contentType? : Verb → Option String
  | get | watch => none
  | create | replace => some "application/json"
  | mergePatch => some "application/merge-patch+json"

/-- A request about a collection, an object in it, or a part of that object, with what it sends. -/
structure Request where
  verb : Verb
  collection : String
  name : Option String := none
  part : String := ""
  body : Option Json := none

namespace Request

def address (r : Request) : String :=
  r.collection ++ (r.name.elim "" ("/" ++ ·)) ++ r.part

def path (r : Request) : String := pathOf r.address

def text (r : Request) : String := r.verb.text ++ " " ++ r.path

/-- Why a request cannot be sent. Otherwise an empty name would ask for the whole collection. -/
def fault? (r : Request) : Option RequestFault :=
  if r.name = some "" then some .unnamed
  else if isAddress r.address then none
  else some .badAddress

end Request

structure Response where
  status : Nat
  body : Json

abbrev Talk := Program (fun _ : Request => Response)

def collection (root plural : String) (ns : Option String) : String :=
  match ns with
  | some ns => root ++ "/namespaces/" ++ ns ++ "/" ++ plural
  | none => root ++ "/" ++ plural

def coreRoot : String := "/api/v1"

end Api

/-- A refusal as the server writes it. Message and reason may be missing. -/
def Refusal.ofJson? (j : Json) : Option Refusal := do
  let members ← j.members?
  let text (name : String) (fallback : Option String) : Option String :=
    match members.lookup name with
    | some value => value.str?
    | none => fallback
  match members.lookup "code" with
  | some (.num code) =>
    guard (0 ≤ code ∧ code < 65536)
    return ⟨← text "status" none, ← text "message" (some ""), ← text "reason" (some ""), code.toNat⟩
  | _ => none

namespace Api.Response

def isRefused (r : Response) : Bool := 400 ≤ r.status && r.status < 600

/-- The refusal in an answer. One that cannot be read is made up from the status and the text. -/
def refusal (r : Response) : Refusal :=
  (Refusal.ofJson? r.body).getD
    ⟨statusText r.status, Text.quoted r.body.text, "Failed to parse error data", r.status⟩

def content {α : Type} (read : Json → Option α) (r : Response) : Except ApiError α :=
  if r.isRefused then .error (.refused r.refusal)
  else
    match read r.body with
    | some a => .ok a
    | none => .error (.unreadable "the answer has another form than expected")

end Api.Response

namespace Api
variable {α : Type}

def ask (request : Request) (read : Json → Option α) : Talk (Except ApiError α) := do
  match request.fault? with
  | some fault => return .error (.unsendable fault)
  | none => return (← Program.request request).content read

def orMissing : Except ApiError α → Except ApiError (Option α)
  | .ok a => .ok (some a)
  | .error (.refused r) => if r.reason = "NotFound" then .ok none else .error (.refused r)
  | .error e => .error e

def find (collection name : String) (read : Json → Option α) : Talk (Except ApiError (Option α)) := do
  return orMissing (← ask { verb := .get, collection, name } read)

end Api
end ServiceBalancer
