import ServiceBalancer.Proofs.Program.Protocol
import ServiceBalancer.Sync

/-! Parts of a sync under a protocol. Each ends well or fails, and one that fails without a trace may be repeated. -/
namespace ServiceBalancer.Sync
open Program
variable {γ α β : Type}

/-- Whether a part of a sync keeps to a protocol, ends well under `post`, and fails under `fail`. -/
def Leads (P : Protocol Answer γ) (post : γ → α → Prop) (fail : γ → Prop) (g : γ) (part : Sync α) : Prop :=
  Obeys P (fun g r => match r with | .ok a => post g a | .error _ => fail g) g part.run

variable {P : Protocol Answer γ} {post : γ → α → Prop} {fail : γ → Prop} {g : γ}

theorem leads_pure {a : α} (h : post g a) : Leads P post fail g (pure a) := h

theorem leads_throw {e : Error} (h : fail g) : Leads P post fail g (throw e : Sync α) := h

theorem Leads.bind {part : Sync α} {next : α → Sync β} {post : γ → β → Prop}
    (h : Leads P (fun g a => Leads P post fail g (next a)) fail g part) : Leads P post fail g (part >>= next) := by
  refine Obeys.bind (Obeys.mono h fun g r hr => ?_)
  cases r with
  | ok a => exact hr
  | error e => exact hr

theorem Leads.mono {part : Sync α} {post' : γ → α → Prop} {fail' : γ → Prop} (h : Leads P post fail g part)
    (hp : ∀ g a, post g a → post' g a) (hf : ∀ g, fail g → fail' g) : Leads P post' fail' g part := by
  refine Obeys.mono h fun g r hr => ?_
  cases r with
  | ok a => exact hp g a hr
  | error e => exact hf g hr

theorem leads_ask {q : Request} {post : γ → Answer q → Prop} (ha : P.Allows g q) (hp : ∀ a, post (P.note g q a) a) :
    Leads P post fail g (ask q) := ⟨ha, hp⟩

/-- A part that fails without a trace may be repeated, where pauses go unnoticed. -/
theorem leads_retrying {policy : RetryPolicy} {part : Sync Unit} {post : γ → Unit → Prop}
    (hs : ∀ d, P.Allows g (.sleep d) ∧ ∀ a, P.note g (.sleep d) a = g) (hd : P.Allows g .draw ∧ ∀ a, P.note g .draw a = g)
    (h : Leads P post (· = g) g part) : Leads P post (· = g) g (retrying policy part) := by
  refine Retry.obeys_retry (· = g) ?_ ?_ ?_ rfl
  · rintro _ d rfl
    exact ⟨(hs d).1, fun a => (hs d).2 a⟩
  · rintro _ rfl
    exact ⟨hd.1, fun a => hd.2 a⟩
  · rintro _ rfl
    refine Obeys.mono h fun g' r hr => ?_
    cases r with
    | ok a => exact hr
    | error e =>
      simp only [Retry.Tried]
      split
      · exact ⟨hr, fun _ => hr⟩
      · exact hr

end ServiceBalancer.Sync
