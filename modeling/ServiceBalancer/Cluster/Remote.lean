import ServiceBalancer.Api.Request
import ServiceBalancer.Cluster.StatusWrite
import ServiceBalancer.Object.ServiceJson
import ServiceBalancer.WellKnown

/-! Reading and writing services through the API server. -/
namespace ServiceBalancer.Remote
open Api (Talk)

def services (ns : String) : String := Api.collection Api.coreRoot "services" (some ns)

def home (svc : Service) : String := services (svc.info.ns.getD "")

def fetchService (ns name : String) : Talk (Except ApiError (Option Service)) :=
  Api.find (services ns) name Service.ofJson?

def statusOutcome : Except ApiError Service → Except StatusWriteError Unit
  | .ok _ => .ok ()
  | .error e =>
    if e.hasCode 404 then .error .notFound
    else if e.hasCode 409 then .error .conflict
    else .error (.failed (.api e))

/-- Publishes a status on the latest copy of a service. The copy carries its version, so that a
change in between is refused. -/
def updateStatus (svc : Service) (status : BalancerStatus) : Talk (Except StatusWriteError Unit) := do
  match ← Api.find (home svc) svc.info.displayName Service.ofJson? with
  | .error e => return .error (.failed (.api e))
  | .ok none => return .error .notFound
  | .ok (some latest) =>
    return statusOutcome (← Api.ask {
      verb := .replace
      collection := home svc
      name := svc.info.displayName
      part := "/status"
      body := (latest.setBalancerStatus status).toJson } Service.ofJson?)

def hashPatch (hash : Option String) : Json :=
  .obj [("metadata", .obj [("labels", .obj [(WellKnown.serviceHash, (hash.map Json.str).getD .null)])])]

def patchHash (svc : Service) (hash : Option String) : Talk (Except ApiError Service) :=
  Api.ask {
    verb := .mergePatch
    collection := home svc
    name := svc.info.displayName
    body := hashPatch hash } Service.ofJson?

def setHash (svc : Service) (hash : String) : Talk (Except Error Unit) := do
  match ← patchHash svc (some hash) with
  | .ok _ => return .ok ()
  | .error e => return .error (.api e)

/-- Removes the hash of a service. That the service is gone is no failure. -/
def removeHash (svc : Service) : Talk (Except Error Unit) := do
  match ← patchHash svc none with
  | .ok _ => return .ok ()
  | .error e => return if e.hasCode 404 then .ok () else .error (.api e)

end ServiceBalancer.Remote
