import ServiceBalancer.Cloud.Error
import ServiceBalancer.Text.Quoted

/-! Causes of failure in the controller, with their texts and metric labels. -/
namespace ServiceBalancer

structure Refusal where
  status : String
  message : String
  reason : String
  code : Nat
  deriving DecidableEq, Repr

inductive RequestFault where
  /-- It is about an object whose name is empty. -/
  | unnamed
  /-- Its address has a character that addresses may not have. -/
  | badAddress
  deriving DecidableEq, Repr

def RequestFault.text : RequestFault → String
  | unnamed => "failed to validate request: A non-empty name is required."
  | badAddress => "failed to build request: invalid uri character"

/-- A failed call of the API server: not sent, refused, or answered in a form that cannot be read. -/
inductive ApiError where
  | unsendable (fault : RequestFault)
  | refused (r : Refusal)
  | unreadable (message : String)
  deriving DecidableEq, Repr

namespace Refusal

def summary (r : Refusal) : String := r.message ++ ": " ++ r.reason

def details (r : Refusal) : String :=
  "ErrorResponse \x7b status: " ++ Text.quoted r.status ++ ", message: " ++ Text.quoted r.message ++
    ", reason: " ++ Text.quoted r.reason ++ ", code: " ++ toString r.code ++ " \x7d"

end Refusal

namespace ApiError

def text : ApiError → String
  | unsendable fault => "Failed to build request: " ++ fault.text
  | refused r => "ApiError: " ++ r.summary ++ " (" ++ r.details ++ ")"
  | unreadable message => "Error deserializing response: " ++ message

def hasCode (code : Nat) : ApiError → Bool
  | refused r => r.code = code
  | _ => false

def cause : ApiError → String
  | unsendable fault => fault.text
  | refused r => r.summary
  | unreadable message => message

end ApiError

inductive Error where
  | api (e : ApiError)
  | cloud (e : CloudError)
  | ensureFailed (key : String) (source : CloudError)
  | tryAgain (message : String)
  | statusConflict (key : String)
  | retryExhausted (attempts : Nat) (last : Error)
  | invariant (message : String)
  | config (message : String)
  | missingCapability (provider capability : String)
  | serialization (message : String)
  deriving DecidableEq, Repr

namespace Error

def text : Error → String
  | api e => "Kubernetes API error: " ++ e.text
  | cloud e => "Cloud provider error: " ++ e.text
  | ensureFailed key source => "Ensure load balancer for " ++ key ++ " failed: " ++ source.text
  | tryAgain message => message ++ ", try again"
  | statusConflict key =>
    "Not persisting update to service " ++ key ++ " that has been changed since we received it"
  | retryExhausted attempts last => "Gave up after " ++ toString attempts ++ " attempts: " ++ last.text
  | invariant message => "Invariant violated: " ++ message
  | config message => "Configuration error: " ++ message
  | missingCapability provider capability =>
    "Cloud provider " ++ provider ++ " does not support " ++ capability
  | serialization message => "Serialization error: " ++ message

def isTryAgain : Error → Bool
  | tryAgain _ => true
  | _ => false

def isThrottled : Error → Bool
  | cloud e => e.isThrottled
  | ensureFailed _ source => source.isThrottled
  | retryExhausted _ last => last.isThrottled
  | _ => false

def label : Error → String
  | api _ => "kube"
  | cloud _ => "cloud"
  | ensureFailed _ _ => "ensure"
  | tryAgain _ => "try_again"
  | statusConflict _ => "conflict"
  | retryExhausted _ _ => "retry_exhausted"
  | invariant _ => "invariant"
  | config _ => "config"
  | missingCapability _ _ => "capability"
  | serialization _ => "serialization"

def causes : Error → List String
  | api e => [e.text, e.cause]
  | cloud e => [e.text]
  | ensureFailed _ source => [source.text]
  | serialization message => [message]
  | _ => []

end Error
end ServiceBalancer
