import ServiceBalancer.Proofs.Duration.Scaling
import ServiceBalancer.Proofs.Program.Protocol

/-! A retried operation over all its tries, whatever comes of them: how often it is tried, what it comes to, and the pauses
between the tries. -/
namespace ServiceBalancer

namespace Program
variable {Q R : Type} {A : Q → Type} {B : R → Type} {α β : Type}

/-- A program with a program in the place of each of its requests. -/
def expand (part : (q : Q) → Program B (A q)) : Program A α → Program B α
  | done a => .done a
  | ask q next => part q >>= fun a => (next a).expand part

@[simp] theorem expand_request (part : (q : Q) → Program B (A q)) (q : Q) : (request q).expand part = part q :=
  bind_done _

theorem expand_bind (part : (q : Q) → Program B (A q)) (p : Program A α) (f : α → Program A β) :
    (p >>= f).expand part = p.expand part >>= fun a => (f a).expand part := by
  induction p with
  | done a => rfl
  | ask q next ih =>
    simp only [ask_bind, expand, ih]
    exact (bind_assoc _ _ _).symm

end Program

namespace Retry
open Program

variable {Q : Type} {A : Q → Type}

private abbrev alone : Pausing Answer := ⟨fun d => .request (Request.sleep d), .request Request.draw⟩

def standIn (io : Pausing A) (op : Program A (Except Error Unit)) : (q : Request) → Program A (Answer q)
  | .attempt => op
  | .sleep delay => io.sleep delay
  | .draw => io.draw

private theorem expand_pause (io : Pausing A) (op : Program A (Except Error Unit)) (delay : Duration) (jitter : Float) :
    (pause alone delay jitter).expand (standIn io op) = pause io delay jitter := by
  unfold pause
  split_ifs
  · simp only [expand_bind, expand_request, standIn]
  · exact expand_request _ _

/-- An operation of any kind is retried as an operation on its own is. -/
theorem retry_eq_expand (io : Pausing A) (policy : RetryPolicy) (op : Program A (Except Error Unit)) :
    retry io policy op = (attempts policy).expand (standIn io op) := by
  have htries : ∀ left tried delay, tryFrom io policy op left tried delay =
      (tryFrom alone policy (.request Request.attempt) left tried delay).expand (standIn io op) := by
    intro left
    induction left with
    | zero =>
      intro tried delay
      simp only [tryFrom, expand_bind, expand_request, standIn]
      congr 1
      funext outcome
      rcases outcome with e | ⟨⟩
      · by_cases he : e.isTryAgain <;> simp [he, expand]
      · rfl
    | succ left ih =>
      intro tried delay
      simp only [tryFrom, expand_bind, expand_request, standIn]
      congr 1
      funext outcome
      rcases outcome with e | ⟨⟩
      · by_cases he : e.isTryAgain
        · simp only [he, if_true, expand_bind, expand_pause, ih]
        · simp [he, expand]
      · rfl
  exact htries _ _ _

def AsksAgain : Except Error Unit → Bool
  | .error e => e.isTryAgain
  | .ok () => false

/-- What a number of tries comes to by the outcome of the last. -/
def verdict (tries : Nat) : Except Error Unit → Except Error Unit
  | .error e => if e.isTryAgain then .error (.retryExhausted tries e) else .error e
  | .ok () => .ok ()

/-- The pause after so many tries and one, before it is stretched. -/
def delay (policy : RetryPolicy) (n : Nat) : Duration := (fun d : Duration => d.scale policy.factor)^[n] policy.initial

theorem delay_succ (policy : RetryPolicy) (n : Nat) : delay policy (n + 1) = (delay policy n).scale policy.factor :=
  Function.iterate_succ_apply' _ n _

/-- Surroundings in which the outcomes of the tries and the draws are laid down. Both are counted. -/
def laidDown (outcomes : Nat → Except Error Unit) (draws : Nat → Float) :
    (q : Request) → Nat × Nat → Option (Answer q) × (Nat × Nat)
  | .attempt, (tries, drawn) => (some (outcomes tries), (tries + 1, drawn))
  | .sleep _, s => (some (), s)
  | .draw, (tries, drawn) => (some (draws drawn), (tries, drawn + 1))

def pauseRequests (policy : RetryPolicy) (draws : Nat → Float) (n : Nat) : List Request :=
  if 0.0 < policy.jitter then
    [.draw, .sleep ((delay policy n).addSaturating ((delay policy n).scale (draws n * policy.jitter)))]
  else [.sleep (delay policy n)]

/-- The requests of a number of tries and one more: they begin and end with a try, and between two tries is a pause. -/
def journal (policy : RetryPolicy) (draws : Nat → Float) : Nat → Nat → List Request
  | _, 0 => [.attempt]
  | n, again + 1 => .attempt :: (pauseRequests policy draws n ++ journal policy draws (n + 1) again)

def drawn (policy : RetryPolicy) (n : Nat) : Nat := if 0.0 < policy.jitter then n else 0

section Talk
variable (policy : RetryPolicy) (outcomes : Nat → Except Error Unit) (draws : Nat → Float)

private theorem talk_pause (tries n : Nat) (log : List (Exchange Answer)) :
    ∃ log', (log'.map (·.request)).reverse = (log.map (·.request)).reverse ++ pauseRequests policy draws n ∧
      ∀ f : Unit → Program Answer (Except Error Unit),
        (pause alone (delay policy n) policy.jitter >>= f).talk (laidDown outcomes draws) log (tries, drawn policy n) =
          (f ()).talk (laidDown outcomes draws) log' (tries, drawn policy (n + 1)) := by
  unfold pause pauseRequests drawn
  split_ifs
  · exact ⟨⟨.sleep _, ()⟩ :: ⟨.draw, draws n⟩ :: log, by simp, fun f => rfl⟩
  · exact ⟨⟨.sleep _, ()⟩ :: log, by simp, fun f => rfl⟩

private theorem talk_tryFrom (left n : Nat) (log : List (Exchange Answer)) : ∃ again log', again ≤ left ∧
    (∀ i < again, AsksAgain (outcomes (n + i)) = true) ∧ (again = left ∨ AsksAgain (outcomes (n + again)) = false) ∧
    (tryFrom alone policy (.request Request.attempt) left (n + 1) (delay policy n)).talk (laidDown outcomes draws) log
        (n, drawn policy n) =
      (some (verdict (n + left + 1) (outcomes (n + again))), log', (n + again + 1, drawn policy (n + again))) ∧
    (log'.map (·.request)).reverse = (log.map (·.request)).reverse ++ journal policy draws n again := by
  induction left generalizing n log with
  | zero =>
    refine ⟨0, ⟨.attempt, outcomes n⟩ :: log, Nat.le_refl 0, fun i hi => absurd hi (Nat.not_lt_zero i), .inl rfl, ?_,
      by simp [journal]⟩
    rcases ho : outcomes n with e | ⟨⟩
    · by_cases he : e.isTryAgain <;> simp [tryFrom, request, talk, laidDown, verdict, ho, he]
    · simp [tryFrom, request, talk, laidDown, verdict, ho]
  | succ left ih =>
    by_cases hagain : AsksAgain (outcomes n) = true
    · obtain ⟨e, ho, he⟩ : ∃ e, outcomes n = .error e ∧ e.isTryAgain = true := by
        rcases ho : outcomes n with e | ⟨⟩ <;> rw [ho] at hagain
        · exact ⟨e, rfl, hagain⟩
        · cases hagain
      obtain ⟨paused, hpaused, hpause⟩ := talk_pause policy outcomes draws (n + 1) n (⟨.attempt, outcomes n⟩ :: log)
      obtain ⟨again, log', hle, hbefore, hend, htalk, hjournal⟩ := ih (n + 1) paused
      have hshift : ∀ i, n + 1 + i = n + (i + 1) := fun i => by omega
      rw [hshift again] at hend htalk
      refine ⟨again + 1, log', Nat.succ_le_succ hle, ?_, ?_, ?_, ?_⟩
      · intro i hi
        cases i with
        | zero => exact hagain
        | succ i =>
          rw [← hshift i]
          exact hbefore i (Nat.lt_of_succ_lt_succ hi)
      · exact hend.imp_left (congrArg Nat.succ)
      · have hlast : n + (left + 1) + 1 = n + 1 + left + 1 := by omega
        rw [tryFrom, hlast, ← htalk, delay_succ, ← hpause fun _ =>
          tryFrom alone policy (request Request.attempt) left (n + 1 + 1) ((delay policy n).scale policy.factor)]
        simp only [request, ask_bind, done_bind, talk, laidDown, ho, he, if_true]
      · rw [hjournal, hpaused, journal]
        simp
    · refine ⟨0, ⟨.attempt, outcomes n⟩ :: log, Nat.zero_le _, fun i hi => absurd hi (Nat.not_lt_zero i),
        .inr (Bool.eq_false_iff.mpr hagain), ?_, by simp [journal]⟩
      rcases ho : outcomes n with e | ⟨⟩ <;> rw [ho] at hagain
      · have he : e.isTryAgain = false := Bool.eq_false_iff.mpr hagain
        simp [tryFrom, request, talk, laidDown, verdict, ho, he]
      · simp [tryFrom, request, talk, laidDown, verdict, ho]

end Talk

/-! ### Pauses -/

variable {policy : RetryPolicy} {draws : Nat → Float}

def sleeps (requests : List Request) : List Duration :=
  requests.filterMap (fun
    | .sleep delay => some delay
    | _ => none)

theorem sleeps_journal (hjitter : ¬ 0.0 < policy.jitter) (again n : Nat) :
    sleeps (journal policy draws n again) = (List.range' n again).map (delay policy) := by
  induction again generalizing n with
  | zero => rfl
  | succ again ih =>
    rw [List.range'_succ, List.map_cons, ← ih (n + 1), journal, pauseRequests, if_neg hjitter]
    rfl

private theorem initial_le_max (hmillis : policy.initialMillis < 2 ^ 64) : policy.initial ≤ Duration.max := by
  change policy.initialMillis * 1000000 ≤ 2 ^ 64 * 1000000000 - 1
  omega

theorem delay_le_max (hmillis : policy.initialMillis < 2 ^ 64) (n : Nat) : delay policy n ≤ Duration.max := by
  induction n with
  | zero => exact initial_le_max hmillis
  | succ n ih =>
    rw [delay_succ]
    exact Duration.scale_le_max ih _

/-- Stretched or not, no pause is past the longest span. -/
theorem pauses_le_max (hmillis : policy.initialMillis < 2 ^ 64) (again n : Nat) :
    ∀ d ∈ sleeps (journal policy draws n again), d ≤ Duration.max := by
  induction again generalizing n with
  | zero =>
    intro d hd
    cases hd
  | succ again ih =>
    intro d hd
    have hone : ∀ d ∈ sleeps (pauseRequests policy draws n), d ≤ Duration.max := by
      unfold pauseRequests
      split_ifs
      · intro d hd
        obtain rfl := List.mem_singleton.mp hd
        exact Nat.min_le_right _ _
      · intro d hd
        obtain rfl := List.mem_singleton.mp hd
        exact delay_le_max hmillis n
    rw [journal, sleeps, List.filterMap_cons_none rfl, List.filterMap_append] at hd
    exact (List.mem_append.mp hd).elim (hone d) (ih (n + 1) d)

theorem delay_of_isNaN (hf : policy.factor.isNaN = true) (n : Nat) : delay policy n = policy.initial := by
  induction n with
  | zero => rfl
  | succ n ih => rw [delay_succ, Duration.scale_of_isNaN _ hf, ih]

/-- With a negative factor all pauses are the first one, or none of the later ones lasts at all. -/
theorem delay_of_negative (hmillis : policy.initialMillis < 2 ^ 64) (hf : policy.factor < 0.0) (n : Nat) :
    delay policy n = if n ≠ 0 ∧ (policy.initial.toSeconds * policy.factor == 0.0) = true then .zero
      else policy.initial := by
  have hzero : Duration.zero.scale policy.factor = .zero := by
    have h := Duration.scale_of_negative (d := .zero) (Nat.zero_le _) hf
    rw [h]
    split_ifs <;> rfl
  have hfirst := Duration.scale_of_negative (initial_le_max hmillis) hf
  induction n with
  | zero => rfl
  | succ n ih =>
    rw [delay_succ, ih]
    by_cases hproduct : (policy.initial.toSeconds * policy.factor == 0.0) = true
    · rw [if_pos hproduct] at hfirst
      have hlater : n + 1 ≠ 0 ∧ (policy.initial.toSeconds * policy.factor == 0.0) = true :=
        ⟨n.succ_ne_zero, hproduct⟩
      rw [if_pos hlater]
      split_ifs
      · exact hzero
      · exact hfirst
    · rw [if_neg hproduct] at hfirst
      rw [if_neg fun h => hproduct h.2, if_neg fun h => hproduct h.2, hfirst]

/-- An operation that is retried by a policy is tried until an outcome asks for no other try, or as often as the policy
says, and that outcome is returned unless it asks for another try. Between two tries there is one pause, and there is none
after the last. No pause is past the longest span. Pauses that are not stretched are scaled from the first one on: a
product that is no span comes to the longest one if the factor is above one, and leaves the pause as it is if it is not.
Zero leaves nothing of a pause, what is not a number leaves all of it, and so does a negative factor, unless the product
comes to zero. -/
theorem attempts_spec (hsteps : 1 ≤ policy.steps) (hmillis : policy.initialMillis < 2 ^ 64)
    (outcomes : Nat → Except Error Unit) (draws : Nat → Float) :
    (∃ n log drawn, IsLeast { n | n = policy.steps ∨ 1 ≤ n ∧ AsksAgain (outcomes (n - 1)) = false } n ∧
      (attempts policy).talk (laidDown outcomes draws) [] (0, 0) =
        (some (verdict policy.steps (outcomes (n - 1))), log, (n, drawn)) ∧
      (log.map (·.request)).reverse = journal policy draws 0 (n - 1) ∧
      (∀ d ∈ sleeps (log.map (·.request)).reverse, d ≤ Duration.max) ∧
      (¬ 0.0 < policy.jitter →
        sleeps (log.map (·.request)).reverse = (List.range (n - 1)).map (delay policy))) ∧
    (∀ i, delay policy i ≤ Duration.max) ∧
    (∀ w, Number.Holds policy.factor false w → ∀ i, delay policy (i + 1) =
      if (delay policy i).roundedProduct w < 2 ^ 64 then
        ⟨Number.toEven ((delay policy i).roundedProduct w * 1000000000)⟩
      else if 1 < w then Duration.max else delay policy i) ∧
    (Number.Binary64.ofFloat policy.factor = .infinite false → ∀ i, delay policy (i + 1) = Duration.max) ∧
    ((policy.factor == 0.0) = true → ∀ i, delay policy (i + 1) = .zero) ∧
    (policy.factor.isNaN = true → ∀ i, delay policy i = policy.initial) ∧
    (policy.factor < 0.0 → ∀ i, delay policy i =
      if i ≠ 0 ∧ (policy.initial.toSeconds * policy.factor == 0.0) = true then .zero else policy.initial) ∧
    ∀ (Q : Type) (A : Q → Type) (io : Pausing A) (op : Program A (Except Error Unit)),
      retry io policy op = (attempts policy).expand (standIn io op) := by
  refine ⟨?_, delay_le_max hmillis, fun w hw i => ?_, fun hinf i => ?_, fun hzero i => ?_, delay_of_isNaN,
    delay_of_negative hmillis, fun Q A io op => retry_eq_expand io policy op⟩
  · obtain ⟨again, log, hle, hbefore, hend, htalk, hjournal⟩ :=
      talk_tryFrom policy outcomes draws (policy.steps - 1) 0 []
    simp only [Nat.zero_add, Nat.sub_add_cancel hsteps] at hbefore hend htalk
    have hnone : drawn policy 0 = 0 := by simp [drawn]
    rw [hnone] at htalk
    have hlog : (log.map (·.request)).reverse = journal policy draws 0 again := by simpa using hjournal
    refine ⟨again + 1, log, drawn policy again, ⟨?_, ?_⟩, htalk, hlog, ?_, fun hjitter => ?_⟩
    · rcases hend with he | he
      · exact .inl (by omega)
      · exact .inr ⟨by omega, he⟩
    · rintro m (rfl | ⟨hm, hfinal⟩)
      · omega
      · by_contra hlt
        have h := hbefore (m - 1) (by omega)
        rw [hfinal] at h
        cases h
    · rw [hlog]
      exact pauses_le_max hmillis again 0
    · rw [hlog, sleeps_journal hjitter, Nat.add_sub_cancel, List.range_eq_range']
  · rw [delay_succ]
    exact Duration.scale_of_holds (delay_le_max hmillis i) hw
  · rw [delay_succ]
    exact Duration.scale_of_infinite (delay_le_max hmillis i) hinf
  · rw [delay_succ]
    exact Duration.scale_of_zero (delay_le_max hmillis i) hzero

private def busyTwice (tries : Nat) : Except Error Unit := if tries < 2 then .error (.tryAgain "busy") else .ok ()

/-- It is tried three times, after one second and two more. -/
theorem attempts_spec_busyTwice :
    1 ≤ ({ jitter := 0.0 } : RetryPolicy).steps ∧ ({ jitter := 0.0 } : RetryPolicy).initialMillis < 2 ^ 64 ∧
    ∃ log drawn, (attempts { jitter := 0.0 }).talk (laidDown busyTwice (fun _ => 0.0)) [] (0, 0) =
        (some (.ok ()), log, (3, drawn)) ∧
      sleeps (log.map (·.request)).reverse = [.ofSeconds 1, .ofSeconds 2] := by
  have hsteps : 1 ≤ ({ jitter := 0.0 } : RetryPolicy).steps := by decide
  have hmillis : ({ jitter := 0.0 } : RetryPolicy).initialMillis < 2 ^ 64 := by decide
  refine ⟨hsteps, hmillis, ?_⟩
  obtain ⟨n, log, drawn, ⟨hmem, hleast⟩, htalk, -, -, hsleeps⟩ :=
    (attempts_spec hsteps hmillis busyTwice (fun _ => 0.0)).1
  have hle : n ≤ 3 := hleast (.inr ⟨by norm_num, rfl⟩)
  obtain rfl : n = 3 := by
    rcases hmem with h | ⟨hn, hfinal⟩
    · have h' : n = 8 := h
      omega
    · by_contra hne
      have hbusy : busyTwice (n - 1) = .error (.tryAgain "busy") := if_pos (by omega)
      rw [hbusy] at hfinal
      cases hfinal
  have hpauses : (List.range (3 - 1)).map (delay { jitter := 0.0 }) = [.ofSeconds 1, .ofSeconds 2] := by decide +kernel
  exact ⟨log, drawn, htalk, (hsleeps (by decide +kernel)).trans hpauses⟩

private def vanishing : RetryPolicy :=
  { initialMillis := 1, factor := Float.ofBits 0x8000000000000001, steps := 3, jitter := 0.0 }

/-- The second pause does not last. -/
theorem not_kept_vanishing : vanishing.factor < 0.0 ∧ ¬ 0.0 < vanishing.jitter ∧
    ((attempts vanishing).talk (laidDown (fun _ => .error (.tryAgain "busy")) (fun _ => 0.0)) [] (0, 0)).1 =
      some (.error (.retryExhausted 3 (.tryAgain "busy"))) ∧
    sleeps (((attempts vanishing).talk (laidDown (fun _ => .error (.tryAgain "busy")) (fun _ => 0.0)) [] (0, 0)).2.1.map
      (·.request)).reverse = [.ofMillis 1, .zero] ∧ Duration.zero ≠ .ofMillis 1 := by
  exact ⟨by decide +kernel, by decide +kernel, by decide +kernel, by decide +kernel, by decide⟩

end Retry
end ServiceBalancer
