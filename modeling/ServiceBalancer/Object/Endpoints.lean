import ServiceBalancer.Object.Reference

/-! Endpoints: the addresses behind a service. -/
namespace ServiceBalancer

structure EndpointAddress where
  hostname : Option String := none
  ip : String := ""
  nodeName : Option String := none
  targetRef : Option ObjectReference := none
  deriving DecidableEq

structure EndpointPort where
  appProtocol : Option String := none
  name : Option String := none
  port : Int := 0
  protocol : Option String := none
  deriving DecidableEq

structure EndpointSubset where
  addresses : Option (List EndpointAddress) := none
  notReadyAddresses : Option (List EndpointAddress) := none
  ports : Option (List EndpointPort) := none
  deriving DecidableEq

structure Endpoints where
  info : Meta := {}
  subsets : Option (List EndpointSubset) := none
  deriving DecidableEq, Inhabited

namespace Endpoints

def addressOfJson? (j : Json) : Option EndpointAddress := do
  guard j.isObject
  return {
    hostname := ← j.optional? "hostname" Json.str?
    ip := ← j.orElse? "ip" Json.str? ""
    nodeName := ← j.optional? "nodeName" Json.str?
    targetRef := ← j.optional? "targetRef" ObjectReference.ofJson? }

def portOfJson? (j : Json) : Option EndpointPort := do
  guard j.isObject
  return {
    appProtocol := ← j.optional? "appProtocol" Json.str?
    name := ← j.optional? "name" Json.str?
    port := ← j.orElse? "port" Json.int32? 0
    protocol := ← j.optional? "protocol" Json.str? }

def subsetOfJson? (j : Json) : Option EndpointSubset := do
  guard j.isObject
  return {
    addresses := ← j.optional? "addresses" (Json.list? addressOfJson?)
    notReadyAddresses := ← j.optional? "notReadyAddresses" (Json.list? addressOfJson?)
    ports := ← j.optional? "ports" (Json.list? portOfJson?) }

def ofJson? (j : Json) : Option Endpoints := do
  guard (Resource.admits "Endpoints" "v1" j)
  return {
    info := ← Resource.infoOf? j
    subsets := ← j.optional? "subsets" (Json.list? subsetOfJson?) }

end Endpoints

instance : Resource Endpoints := ⟨Endpoints.info, "Endpoints", "v1", Endpoints.ofJson?⟩

end ServiceBalancer
