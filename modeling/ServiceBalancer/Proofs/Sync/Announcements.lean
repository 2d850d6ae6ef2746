import ServiceBalancer.Proofs.Program.Protocol
import ServiceBalancer.Sync

/-! What a sync announces. Each write of the cloud is followed by one event, which tells what came of it, before
anything else is written or announced; a push without nodes is announced beforehand too. -/
namespace ServiceBalancer.Sync
open Program

/-- A write of the cloud, with what came of it. -/
inductive Work where
  | ensure (svc : Service) (nodes : List Node) (result : Except CloudError BalancerStatus)
  | delete (svc : Service) (result : Except CloudError Unit)

def noNodes (svc : Service) : Event :=
  ⟨.ofService svc, .warning, Event.unavailable, "There are no available nodes for LoadBalancer"⟩

namespace Work

def outcome : Work → Event
  | ensure svc _ (.ok _) => ⟨.ofService svc, .normal, Event.ensured, "Ensured load balancer"⟩
  | ensure svc _ (.error e) =>
    ⟨.ofService svc, .warning, Event.syncFailed, "Error syncing load balancer: " ++ e.eventMessage⟩
  | delete svc (.ok ()) =>
    ⟨.ofService svc, .normal, Event.deleted, "LoadBalancer Deleted SUCCESS. " ++ (ServiceKey.ofService svc).text⟩
  | delete svc (.error e) =>
    ⟨.ofService svc, .warning, Event.deleteFailed, "Error deleting load balancer: " ++ e.eventMessage⟩

def warnings : Work → List Event
  | ensure svc [] _ => [noNodes svc]
  | _ => []

end Work

inductive Due where
  | nothing
  /-- A push without nodes was announced. -/
  | push (announced : Event)
  /-- A write was done. -/
  | outcome (work : Work)

structure Tally where
  works : List Work := []
  due : Due := .nothing

namespace Tally

def note (t : Tally) : (q : Request) → Answer q → Tally
  | .ensure svc nodes, (result : Except CloudError BalancerStatus) =>
    { t with due := .outcome (.ensure svc nodes result) }
  | .delete svc, (result : Except CloudError Unit) => { t with due := .outcome (.delete svc result) }
  | .record e, _ =>
    match t.due with
    | .outcome work => ⟨t.works ++ [work], .nothing⟩
    | .nothing | .push _ => { t with due := .push e }
  | _, _ => t

def Allows (t : Tally) : Request → Prop
  | .ensure svc nodes => t.due = if nodes.isEmpty then .push (noNodes svc) else .nothing
  | .delete _ => t.due = .nothing
  | .record e => (t.due = .nothing ∧ ∃ svc, e = noNodes svc) ∨ ∃ work, t.due = .outcome work ∧ e = work.outcome
  | _ => True

end Tally

def tally : Protocol Answer Tally where
  note := Tally.note
  Allows := Tally.Allows

variable {α β : Type} {settings : SyncSettings} {key : ServiceKey} {svc : Service} {t : Tally}

def Announces (part : Sync α) : Prop :=
  ∀ t : Tally, t.due = .nothing → Obeys tally (fun t _ => t.due = .nothing) t part.run

theorem Announces.bind {part : Sync α} {next : α → Sync β} (h : Announces part) (hnext : ∀ a, Announces (next a)) :
    Announces (part >>= next) := by
  refine fun t ht => Obeys.bind (Obeys.mono (h t ht) fun t r hr => ?_)
  cases r with
  | ok a => exact hnext a t hr
  | error e => exact hr

end ServiceBalancer.Sync
