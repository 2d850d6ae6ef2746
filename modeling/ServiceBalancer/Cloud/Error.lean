import ServiceBalancer.Text.Lines

/-! Failures of a cloud, and the rules that tell their kinds apart by the provider's message. -/
namespace ServiceBalancer

inductive CloudErrorKind where
  | throttled
  | transient
  | forbidden
  | rejected
  | notFound
  | other
  deriving DecidableEq, Repr

namespace CloudErrorKind

def text : CloudErrorKind → String
  | throttled => "Throttled"
  | transient => "Transient"
  | forbidden => "Forbidden"
  | rejected => "Rejected"
  | notFound => "NotFound"
  | other => "Other"

def all : List CloudErrorKind := [throttled, transient, forbidden, rejected, notFound, other]

def ofText? (s : String) : Option CloudErrorKind := all.find? (fun kind => kind.text = s)

end CloudErrorKind

def messageMarker : List Char := "Message:".toList

/-- The readable part of a provider's message: from the last marker to the end of the first line
that has one, or the whole message. -/
def readablePart (message : String) : String :=
  match (Text.lines message.toList).findSome? (Text.fromLast? messageMarker) with
  | some tail => .ofList tail
  | none => message

structure CloudError where
  kind : CloudErrorKind
  message : String
  deriving DecidableEq, Repr

namespace CloudError

def text (e : CloudError) : String := e.kind.text ++ ": " ++ e.message

def isThrottled (e : CloudError) : Bool := e.kind = .throttled

def eventMessage (e : CloudError) : String := readablePart e.message

end CloudError

/-- A rule that gives messages with a certain part their kind. -/
structure ClassifierRule where
  pattern : String
  kind : CloudErrorKind
  deriving DecidableEq, Repr

namespace ClassifierRule

def defaults : List ClassifierRule := [
  ⟨"Throttling", .throttled⟩,
  ⟨"ServiceUnavailable", .transient⟩,
  ⟨"InternalError", .transient⟩,
  ⟨"Forbidden.RAM", .forbidden⟩,
  ⟨"InvalidParameter", .rejected⟩]

def matchesMessage (rule : ClassifierRule) (message : String) : Bool :=
  Text.occursIn rule.pattern.toList message.toList

end ClassifierRule

def classify (rules : List ClassifierRule) (message : String) : CloudErrorKind :=
  match rules.find? (·.matchesMessage message) with
  | some rule => rule.kind
  | none => .other

def CloudError.classified (rules : List ClassifierRule) (message : String) : CloudError :=
  ⟨classify rules message, message⟩

end ServiceBalancer
