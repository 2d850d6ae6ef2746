import ServiceBalancer.Api.Address
import ServiceBalancer.Json
import ServiceBalancer.Metrics

/-! The pages that tell from outside how the controller does: alive, ready, and its metrics. -/
namespace ServiceBalancer.Health

def version : String := "0.1.0"

structure View where
  synced : Bool
  queueDepth : Nat
  shuttingDown : Bool
  metrics : Metrics

/-- Whether the controller is ready: its caches are synced and it is not shutting down. -/
def View.isReady (v : View) : Bool := v.synced && !v.shuttingDown

inductive Body where
  | empty
  | json (j : Json)
  | plain (s : String)

structure Response where
  status : Nat
  contentType : Option String := none
  /-- The methods that are allowed, if the request used another one. -/
  allow : Option String := none
  body : Body := .empty

def View.page? (v : View) (path : String) : Option Response :=
  match path with
  | "/healthz" => some {
      status := 200
      contentType := some "application/json"
      body := .json (.obj [("status", .str "healthy"), ("version", .str version)]) }
  | "/readyz" => some {
      status := if v.isReady then 200 else 503
      contentType := some "application/json"
      body := .json (.obj [("synced", .bool v.synced), ("queue_depth", .num v.queueDepth),
        ("shutting_down", .bool v.shuttingDown)]) }
  | "/metrics" => some {
      status := 200
      contentType := some "text/plain; charset=utf-8"
      body := .plain v.metrics.page }
  | _ => none

/-- Answers a request. A page can be read, and a request for its head gets everything but the body. -/
def View.respond (v : View) (method target : String) : Response :=
  match v.page? (Api.pathOf target) with
  | none => { status := 404 }
  | some page =>
    if method = "GET" then page
    else if method = "HEAD" then { page with body := .empty }
    else { status := 405, allow := some "GET,HEAD" }

end ServiceBalancer.Health
