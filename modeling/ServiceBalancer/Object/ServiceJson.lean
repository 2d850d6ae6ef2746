import ServiceBalancer.Object.Service

/-! The JSON form of services. Members are written in increasing order of their names, an absent
one not at all. -/
namespace ServiceBalancer
namespace TargetPort

def toJson : TargetPort → Json
  | number n => .num n
  | name s => .str s

def ofJson? : Json → Option TargetPort
  | .str s => some (.name s)
  | j => j.int32?.map .number

end TargetPort

namespace ServicePort

def toJson (p : ServicePort) : Json := .ofMembers [
  ("appProtocol", p.appProtocol.map .str),
  ("name", p.name.map .str),
  ("nodePort", p.nodePort.map .num),
  ("port", some (.num p.port)),
  ("protocol", p.protocol.map .str),
  ("targetPort", p.targetPort.map TargetPort.toJson)]

def ofJson? (j : Json) : Option ServicePort := do
  guard j.isObject
  return {
    appProtocol := ← j.optional? "appProtocol" Json.str?
    name := ← j.optional? "name" Json.str?
    nodePort := ← j.optional? "nodePort" Json.int32?
    port := ← j.orElse? "port" Json.int32? 0
    protocol := ← j.optional? "protocol" Json.str?
    targetPort := ← j.optional? "targetPort" TargetPort.ofJson? }

end ServicePort

namespace SessionAffinityConfig

def toJson (c : SessionAffinityConfig) : Json := .ofMembers [
  ("clientIP", c.clientIP.map (fun a => .ofMembers [("timeoutSeconds", a.timeoutSeconds.map .num)]))]

def ofJson? (j : Json) : Option SessionAffinityConfig := do
  guard j.isObject
  let client (c : Json) : Option ClientAffinity := do
    guard c.isObject
    return { timeoutSeconds := ← c.optional? "timeoutSeconds" Json.int32? }
  return { clientIP := ← j.optional? "clientIP" client }

end SessionAffinityConfig

namespace ServiceSpec

def toJson (s : ServiceSpec) : Json := .ofMembers [
  ("allocateLoadBalancerNodePorts", s.allocateLoadBalancerNodePorts.map .bool),
  ("clusterIP", s.clusterIP.map .str),
  ("clusterIPs", s.clusterIPs.map .ofStrings),
  ("externalIPs", s.externalIPs.map .ofStrings),
  ("externalName", s.externalName.map .str),
  ("externalTrafficPolicy", s.externalTrafficPolicy.map .str),
  ("healthCheckNodePort", s.healthCheckNodePort.map .num),
  ("internalTrafficPolicy", s.internalTrafficPolicy.map .str),
  ("ipFamilies", s.ipFamilies.map .ofStrings),
  ("ipFamilyPolicy", s.ipFamilyPolicy.map .str),
  ("loadBalancerClass", s.loadBalancerClass.map .str),
  ("loadBalancerIP", s.loadBalancerIP.map .str),
  ("loadBalancerSourceRanges", s.loadBalancerSourceRanges.map .ofStrings),
  ("ports", s.ports.map (fun ports => .arr (ports.map ServicePort.toJson))),
  ("publishNotReadyAddresses", s.publishNotReadyAddresses.map .bool),
  ("selector", s.selector.map .ofStringMap),
  ("sessionAffinity", s.sessionAffinity.map .str),
  ("sessionAffinityConfig", s.sessionAffinityConfig.map SessionAffinityConfig.toJson),
  ("trafficDistribution", s.trafficDistribution.map .str),
  ("type", s.type.map .str)]

def ofJson? (j : Json) : Option ServiceSpec := do
  guard j.isObject
  return {
    allocateLoadBalancerNodePorts := ← j.optional? "allocateLoadBalancerNodePorts" Json.bool?
    clusterIP := ← j.optional? "clusterIP" Json.str?
    clusterIPs := ← j.optional? "clusterIPs" Json.strings?
    externalIPs := ← j.optional? "externalIPs" Json.strings?
    externalName := ← j.optional? "externalName" Json.str?
    externalTrafficPolicy := ← j.optional? "externalTrafficPolicy" Json.str?
    healthCheckNodePort := ← j.optional? "healthCheckNodePort" Json.int32?
    internalTrafficPolicy := ← j.optional? "internalTrafficPolicy" Json.str?
    ipFamilies := ← j.optional? "ipFamilies" Json.strings?
    ipFamilyPolicy := ← j.optional? "ipFamilyPolicy" Json.str?
    loadBalancerClass := ← j.optional? "loadBalancerClass" Json.str?
    loadBalancerIP := ← j.optional? "loadBalancerIP" Json.str?
    loadBalancerSourceRanges := ← j.optional? "loadBalancerSourceRanges" Json.strings?
    ports := ← j.optional? "ports" (Json.list? ServicePort.ofJson?)
    publishNotReadyAddresses := ← j.optional? "publishNotReadyAddresses" Json.bool?
    selector := ← j.optional? "selector" Json.stringMap?
    sessionAffinity := ← j.optional? "sessionAffinity" Json.str?
    sessionAffinityConfig := ← j.optional? "sessionAffinityConfig" SessionAffinityConfig.ofJson?
    trafficDistribution := ← j.optional? "trafficDistribution" Json.str?
    type := ← j.optional? "type" Json.str? }

end ServiceSpec

namespace PortStatus

def toJson (p : PortStatus) : Json := .ofMembers [
  ("error", p.error.map .str), ("port", some (.num p.port)), ("protocol", some (.str p.protocol))]

def ofJson? (j : Json) : Option PortStatus := do
  guard j.isObject
  return {
    error := ← j.optional? "error" Json.str?
    port := ← j.orElse? "port" Json.int32? 0
    protocol := ← j.orElse? "protocol" Json.str? "" }

end PortStatus

namespace Ingress

def toJson (i : Ingress) : Json := .ofMembers [
  ("hostname", i.hostname.map .str), ("ip", i.ip.map .str), ("ipMode", i.ipMode.map .str),
  ("ports", i.ports.map (fun ports => .arr (ports.map PortStatus.toJson)))]

def ofJson? (j : Json) : Option Ingress := do
  guard j.isObject
  return {
    hostname := ← j.optional? "hostname" Json.str?
    ip := ← j.optional? "ip" Json.str?
    ipMode := ← j.optional? "ipMode" Json.str?
    ports := ← j.optional? "ports" (Json.list? PortStatus.ofJson?) }

end Ingress

namespace BalancerStatus

def toJson (s : BalancerStatus) : Json :=
  .ofMembers [("ingress", s.ingress.map (fun ingress => .arr (ingress.map Ingress.toJson)))]

def ofJson? (j : Json) : Option BalancerStatus := do
  guard j.isObject
  return { ingress := ← j.optional? "ingress" (Json.list? Ingress.ofJson?) }

end BalancerStatus

namespace ServiceCondition

def toJson (c : ServiceCondition) : Json := .ofMembers [
  ("lastTransitionTime", some (.str c.lastTransitionTime.text)),
  ("message", some (.str c.message)),
  ("observedGeneration", c.observedGeneration.map .num),
  ("reason", some (.str c.reason)),
  ("status", some (.str c.status)),
  ("type", some (.str c.type))]

def ofJson? (j : Json) : Option ServiceCondition := do
  guard j.isObject
  return {
    lastTransitionTime := ← j.orElse? "lastTransitionTime" Json.timestamp? ⟨0⟩
    message := ← j.orElse? "message" Json.str? ""
    observedGeneration := ← j.optional? "observedGeneration" Json.int64?
    reason := ← j.orElse? "reason" Json.str? ""
    status := ← j.orElse? "status" Json.str? ""
    type := ← j.orElse? "type" Json.str? "" }

end ServiceCondition

namespace ServiceStatus

def toJson (s : ServiceStatus) : Json := .ofMembers [
  ("conditions", s.conditions.map (fun l => .arr (l.map ServiceCondition.toJson))),
  ("loadBalancer", s.loadBalancer.map BalancerStatus.toJson)]

def ofJson? (j : Json) : Option ServiceStatus := do
  guard j.isObject
  return {
    conditions := ← j.optional? "conditions" (Json.list? ServiceCondition.ofJson?)
    loadBalancer := ← j.optional? "loadBalancer" BalancerStatus.ofJson? }

end ServiceStatus

namespace Service

def toJson (svc : Service) : Json := .ofMembers [
  ("apiVersion", some (.str "v1")),
  ("kind", some (.str "Service")),
  ("metadata", some svc.info.toJson),
  ("spec", svc.spec.map ServiceSpec.toJson),
  ("status", svc.status.map ServiceStatus.toJson)]

def ofJson? (j : Json) : Option Service := do
  guard (Resource.admits "Service" "v1" j)
  return {
    info := ← Resource.infoOf? j
    spec := ← j.optional? "spec" ServiceSpec.ofJson?
    status := ← j.optional? "status" ServiceStatus.ofJson? }

end Service

instance : Resource Service := ⟨Service.info, "Service", "v1", Service.ofJson?⟩

end ServiceBalancer
