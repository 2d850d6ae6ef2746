import ServiceBalancer.Api.Request
import ServiceBalancer.Cluster.Reflector

/-! Watching all objects of a kind: a listing page by page, then a stream of changes, and what
follows when either fails. -/
namespace ServiceBalancer

/-- A page of a listing: its objects, the version of the listing, and where the next page starts. -/
structure Listing (α : Type) where
  items : List α
  version : Option String
  next : Option String

inductive WatchLine (α : Type) where
  | changed (o : α)
  | deleted (o : α)
  /-- Nothing changed up to a version. -/
  | bookmark (version : String)
  | refused (r : Refusal)
  | unreadable

def Listing.ofJson? {α : Type} (read : Json → Option α) (j : Json) : Option (Listing α) := do
  let members ← j.members?
  let items ← match members.lookup "items" with
    | some .null => some []
    | some items => items.list? read
    | none => none
  let info := (members.lookup "metadata").getD (.obj [])
  guard info.isObject
  let filled (name : String) : Option (Option String) :=
    (info.optional? name Json.str?).map (·.filter (· ≠ ""))
  return ⟨items, ← filled "resourceVersion", ← filled "continue"⟩

def bookmarkVersion? (j : Json) : Option String := do
  let _ ← (← j.get? "apiVersion").str?
  let _ ← (← j.get? "kind").str?
  (← (← j.get? "metadata").get? "resourceVersion").str?

def WatchLine.ofJson {α : Type} (read : Json → Option α) (j : Json) : WatchLine α :=
  let line? : Option (WatchLine α) := do
    let o ← j.get? "object"
    match ← (← j.get? "type").str? with
    | "ADDED" | "MODIFIED" => return .changed (← read o)
    | "DELETED" => return .deleted (← read o)
    | "BOOKMARK" => return .bookmark (← bookmarkVersion? o)
    | "ERROR" => return .refused (← Refusal.ofJson? o)
    | _ => none
  line?.getD .unreadable

inductive Watch (α : Type) where
  | empty
  /-- in a listing: where its next page starts, the objects still to report, and its version -/
  | listing (next : Option String) (page : List α) (version : Option String)
  /-- after a listing or a stream that ended, with the version from which to go on -/
  | listed (version : String)
  | streaming (version : String)

namespace Watch
variable {α : Type}

inductive Request where
  | list (start : Option String)
  | stream (version : String)
  | line

/-- What answers a request. A stream that has ended has no line. -/
abbrev Answer (α : Type) : Request → Type
  | .list _ => Except ApiError (Listing α)
  | .stream _ => Except ApiError Unit
  | .line => Option (WatchLine α)

inductive Outcome (α : Type) where
  | quiet
  | event (e : WatchEvent α)
  | failed

/-- After a page: one that tells neither a version nor a next page is a failure. -/
def afterPage : Except ApiError (Listing α) → Outcome α × Watch α
  | .ok page =>
    if page.version.isNone && page.next.isNone then (.failed, .empty)
    else (.quiet, .listing page.next page.items page.version)
  | .error _ => (.failed, .empty)

def afterChange [Resource α] (o : α) (event : WatchEvent α) : Outcome α × Watch α :=
  match (Resource.info o).resourceVersion.filter (· ≠ "") with
  | some version => (.event event, .streaming version)
  | none => (.failed, .empty)

/-- After a line of a stream that had come to a version. A version that is gone leads to a new
listing. -/
def afterLine [Resource α] (version : String) : Option (WatchLine α) → Outcome α × Watch α
  | none => (.quiet, .listed version)
  | some (.changed o) => afterChange o (.apply o)
  | some (.deleted o) => afterChange o (.delete o)
  | some (.bookmark reached) => (.quiet, .streaming reached)
  | some (.refused r) => (.failed, if r.code = 410 then .empty else .streaming version)
  | some .unreadable => (.failed, .streaming version)

def step [Resource α] : Watch α → Program (Answer α) (Outcome α × Watch α)
  | .empty => return (.event .init, .listing none [] none)
  | .listing next (o :: page) version => return (.event (.initApply o), .listing next page version)
  | .listing none [] (some version) => return (.event .initDone, .listed version)
  | .listing next [] _ => do return afterPage (← Program.request (Request.list next))
  | .listed version => do
    match ← Program.request (Request.stream version) with
    | .ok () => return (.quiet, .streaming version)
    | .error _ => return (.failed, .listed version)
  | .streaming version => do return afterLine version (← Program.request Request.line)

def pause (failures : Nat) : Duration := .ofMillis (min (800 * Nat.pow 2 (min failures 6 - 1)) 30000)

end Watch

structure Informer (α : Type) where
  watch : Watch α := .empty
  reflector : Reflector α := {}
  /-- Failures since the last event. -/
  failures : Nat := 0

def Informer.take {α : Type} [Resource α] (i : Informer α) (s : Watch.Outcome α × Watch α) :
    List (Delta α) × Informer α :=
  match s.1 with
  | .quiet => ([], { i with watch := s.2 })
  | .failed => ([], { i with watch := s.2, failures := i.failures + 1 })
  | .event e =>
    let (deltas, reflector) := i.reflector.step e
    (deltas, ⟨s.2, reflector, 0⟩)

end ServiceBalancer
