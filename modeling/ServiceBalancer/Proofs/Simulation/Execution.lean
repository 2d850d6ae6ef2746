import ServiceBalancer.Proofs.Simulation.Exchange
import ServiceBalancer.Sync

/-! Syncs that run by themselves in a world to a good end. One rule for each way in which a sync is put together takes
what is to hold at the end back to the start. -/
namespace ServiceBalancer

theorem Program.run_bind {Q : Type} {A : Q → Type} {α β σ : Type} (answer : (q : Q) → σ → Option (A q) × σ)
    (p : Program A α) (f : α → Program A β) {s s' : σ} {a : α} (h : p.run answer s = (some a, s')) :
    (p >>= f).run answer s = (f a).run answer s' := by
  induction p generalizing s with
  | done x =>
    cases h
    rfl
  | ask q next ih =>
    simp only [ask_bind, run] at h ⊢
    split at h
    · exact ih _ h
    · cases h

namespace Simulation
open Sync
variable {time : Nat} {α β : Type} {w w' : World}

def Succeeds (time : Nat) (part : Sync α) (w : World) (post : α → World → Prop) : Prop :=
  ∃ a w', part.run.run (World.answer time) w = (some (.ok a), w') ∧ post a w'

theorem succeeds_pure {a : α} {post : α → World → Prop} (h : post a w) : Succeeds time (pure a) w post :=
  ⟨a, w, rfl, h⟩

theorem Succeeds.bind {part : Sync α} {next : α → Sync β} {post : β → World → Prop}
    (h : Succeeds time part w fun a w => Succeeds time (next a) w post) : Succeeds time (part >>= next) w post := by
  obtain ⟨a, w₁, hpart, b, w₂, hnext, hpost⟩ := h
  exact ⟨b, w₂, (Program.run_bind _ part.run _ hpart).trans hnext, hpost⟩

theorem run_request (q : Request) (w : World) : (Program.request q).run (World.answer time) w = w.answer time q := by
  simp only [Program.request, Program.run]
  split <;> next h => exact h.symm

theorem succeeds_ask {q : Request} {x : Answer q} {post : Answer q → World → Prop} (h : w.answer time q = (some x, w'))
    (hp : post x w') : Succeeds time (ask q) w post :=
  ⟨x, w', Program.run_bind _ (Program.request q) _ ((run_request q w).trans h), hp⟩

/-- A request that can be refused, and is granted. -/
theorem succeeds_granted {request : Program Answer (Except Error α)} {a : α} {post : α → World → Prop}
    (h : request.run (World.answer time) w = (some (.ok a), w')) (hp : post a w') :
    Succeeds time (ExceptT.mk request) w post := ⟨a, w', h, hp⟩

/-- What goes well at the first try is not tried again. -/
theorem Succeeds.retrying {policy : RetryPolicy} {part : Sync Unit} {post : Unit → World → Prop}
    (h : Succeeds time part w post) : Succeeds time (retrying policy part) w post := by
  obtain ⟨_, w', hrun, hpost⟩ := h
  refine ⟨(), w', ?_, hpost⟩
  show Program.run _ (Retry.tryFrom _ policy part.run (policy.steps - 1) 1 policy.initial) w = _
  cases policy.steps - 1 with
  | zero => exact Program.run_bind _ _ _ hrun
  | succ left => exact Program.run_bind _ _ _ hrun

/-- A sync that goes well leaves what it has come to, but for the metrics. -/
theorem Succeeds.program {settings : SyncSettings} {key : ServiceKey} {post : Unit → World → Prop}
    (h : Succeeds time (reconcile settings key) w post) (hp : ∀ w metrics, post () w → post () { w with metrics }) :
    ∃ w', (program settings key).run (World.answer time) w = (some (.ok ()), w') ∧ post () w' := by
  obtain ⟨_, w', hrun, hpost⟩ := h
  exact ⟨_, Program.run_bind _ _ _ hrun, hp w' _ hpost⟩

/-! ### A service that has taken a name over -/

def kiosk (uid : String) : Service where
  info := { name := some "kiosk", ns := some "default", uid := some uid }
  spec := some { type := some WellKnown.typeLoadBalancer, ports := some [{ port := 80, nodePort := some 30080 }] }

/-- A cluster with a node and a service, of which nothing is remembered but what had its name before. -/
def takenOver : World where
  cluster := (({} : MemoryCluster).upsertNode { info := { name := some "n1" }, conditions := [⟨"Ready", "True"⟩] }
    |>.upsertService (kiosk "u2")).2
  cache := (∅ : Cache).insert (.ofService (kiosk "u1")) ⟨kiosk "u1", some "u1", {}, none⟩

theorem reachable_takenOver : takenOver.cluster.Reachable := .upsertService _ (.upsertNode _ (.new true))

end Simulation
end ServiceBalancer
