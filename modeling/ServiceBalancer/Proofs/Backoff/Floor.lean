import ServiceBalancer.Proofs.Backoff.History
import ServiceBalancer.Proofs.Duration.Scaling
import ServiceBalancer.Proofs.Simulation.Returning

/-! How short the delays of a throttle backoff get. They stay at the floor or above while they grow, but nothing keeps the
plateau above the floor, nor from being zero, and a key with no delay is ready again at once. -/
namespace ServiceBalancer

namespace Worker
variable {α : Type} [DecidableEq α] {q : WorkQueue α} {a : α} {now : Duration} {r : Requeue}

/-- An item that nobody else has asked for is ready as it is handed back exactly if it is put back without a delay. -/
theorem ready_handBack_iff (hopen : q.shuttingDown = false) (hdirty : a ∉ q.dirty) (hready : a ∉ q.ready) :
    a ∈ (q.afterDelayed (handBack q now a (some r))).ready ↔ r.delay = .zero := by
  by_cases hover : handBack q now a (some r) = .overflow
  · have hdelay : r.delay ≠ .zero := by
      intro hz
      simp [handBack, WorkQueue.addAfter, hz] at hover
    rw [hover]
    exact ⟨fun h => absurd h hready, fun h => absurd h hdelay⟩
  · rw [afterDelayed_handBack hover, putBack, WorkQueue.release_ready]
    rcases q.addAfter_cases now a r.delay with ⟨hz, he⟩ | ⟨hz, waiting, he⟩ <;> rw [he]
    · simp [hz, WorkQueue.mem_dirty_add, hopen]
    · simp [hz, hdirty, hready]

end Worker

namespace Backoff
variable {settings : BackoffSettings}

def scaledFloor (settings : BackoffSettings) (n : ℕ) : Duration :=
  (fun d : Duration => d.scale settings.factor)^[n] (.ofSeconds settings.floorSecs)

/-- Whether scaling the floor on and on passes the ceiling. -/
def Outgrows (settings : BackoffSettings) : Prop := ∃ n, Duration.ofSeconds settings.ceilingSecs < scaledFloor settings n

theorem scaledFloor_succ (settings : BackoffSettings) (n : ℕ) :
    scaledFloor settings (n + 1) = (scaledFloor settings n).scale settings.factor :=
  Function.iterate_succ_apply' _ n _

theorem course_eq_scaledFloor {n : ℕ} (h : ∀ k ≤ n, scaledFloor settings k ≤ .ofSeconds settings.ceilingSecs) :
    course settings n = scaledFloor settings n := by
  induction n with
  | zero => rfl
  | succ n ih =>
    have hle := h (n + 1) le_rfl
    rw [scaledFloor_succ] at hle ⊢
    rw [course, ih fun k hk => h k (Nat.le_succ_of_le hk), successor, if_pos hle]

/-- If the delays pass the ceiling, the plateau is among them. -/
theorem exists_course_plateau (ha : settings.Accepted) (h : Outgrows settings) :
    ∃ n, course settings n = .ofSeconds settings.plateauSecs := by
  classical
  have hbefore : ∀ k < Nat.find h, scaledFloor settings k ≤ .ofSeconds settings.ceilingSecs :=
    fun k hk => Nat.le_of_not_lt (Nat.find_min h hk)
  rcases hn : Nat.find h with _ | n
  · have hpast := Nat.find_spec h
    rw [hn] at hpast
    exact absurd hpast (Nat.not_lt_of_le (Duration.ofSeconds_mono ha.floor_le))
  · refine ⟨n + 1, ?_⟩
    have hpast := Nat.find_spec h
    rw [hn, scaledFloor_succ] at hpast
    rw [course, course_eq_scaledFloor fun k hk => hbefore k (by omega), successor]
    exact if_neg (Nat.not_le_of_lt hpast)

theorem course_succ (settings : BackoffSettings) (n : ℕ) :
    course settings (n + 1) = (course settings n).scale settings.factor ∨
      Outgrows settings ∧ course settings (n + 1) = .ofSeconds settings.plateauSecs := by
  by_cases h : Outgrows settings
  · rw [course, successor]
    split_ifs
    · exact .inl rfl
    · exact .inr ⟨h, rfl⟩
  · have hle : ∀ k, scaledFloor settings k ≤ .ofSeconds settings.ceilingSecs :=
      fun k => Nat.le_of_not_lt fun hk => h ⟨k, hk⟩
    left
    rw [course_eq_scaledFloor fun k _ => hle k, course_eq_scaledFloor fun k _ => hle k, scaledFloor_succ]

theorem course_le_max (ha : settings.Accepted) (hrange : settings.ceilingSecs < 2 ^ 64) (n : ℕ) :
    course settings n ≤ Duration.max :=
  Nat.le_trans (course_le_ceiling ha n) (Duration.ofSeconds_le_max hrange)

/-- A bound of whole seconds that scaling keeps is a bound for all delays if it is one for the floor, and for the plateau
if that is ever reached. -/
theorem le_course {m : ℕ} (ha : settings.Accepted) (hrange : settings.ceilingSecs < 2 ^ 64)
    (hself : Duration.ofSeconds m ≤ (Duration.ofSeconds m).scale settings.factor) (hfloor : m ≤ settings.floorSecs)
    (hplateau : Outgrows settings → m ≤ settings.plateauSecs) (n : ℕ) : Duration.ofSeconds m ≤ course settings n := by
  obtain ⟨w, -, hw⟩ := Duration.holds_of_isGrowthFactor ha.growth
  induction n with
  | zero => exact Duration.ofSeconds_mono hfloor
  | succ n ih =>
    rcases course_succ settings n with he | ⟨hout, he⟩ <;> rw [he]
    · exact Duration.le_scale hw hself (course_le_max ha hrange n) ih
    · exact Duration.ofSeconds_mono (hplateau hout)

theorem floor_le_course_iff (ha : settings.Accepted) (hrange : settings.ceilingSecs < 2 ^ 64) :
    (∀ n, Duration.ofSeconds settings.floorSecs ≤ course settings n) ↔
      Duration.ofSeconds settings.floorSecs ≤ (Duration.ofSeconds settings.floorSecs).scale settings.factor ∧
        (Outgrows settings → settings.floorSecs ≤ settings.plateauSecs) := by
  constructor
  · intro h
    refine ⟨?_, fun hout => ?_⟩
    · by_cases hone : (Duration.ofSeconds settings.floorSecs).scale settings.factor ≤ .ofSeconds settings.ceilingSecs
      · have h₁ := h 1
        rwa [course, course, successor, if_pos hone] at h₁
      · exact Nat.le_trans (Duration.ofSeconds_mono ha.floor_le) (Nat.le_of_not_le hone)
    · obtain ⟨n, hn⟩ := exists_course_plateau ha hout
      have hle := h n
      rw [hn] at hle
      exact Nat.le_of_mul_le_mul_right hle (by norm_num)
  · rintro ⟨hself, hplateau⟩ n
    exact le_course ha hrange hself le_rfl hplateau n

theorem course_ne_zero_iff (ha : settings.Accepted) (hrange : settings.ceilingSecs < 2 ^ 64) :
    (∀ n, course settings n ≠ .zero) ↔ (Outgrows settings → settings.plateauSecs ≠ 0) := by
  constructor
  · intro h hout hz
    obtain ⟨n, hn⟩ := exists_course_plateau ha hout
    apply h n
    rw [hn, hz]
    rfl
  · intro h n hz
    obtain ⟨w, hone, hw⟩ := Duration.holds_of_isGrowthFactor ha.growth
    have hself := Duration.le_scale_of_exact (n := 1) (by norm_num) hw hone
    have hle := le_course ha hrange hself ha.floor_pos (fun hout => Nat.pos_of_ne_zero (h hout)) n
    rw [hz] at hle
    change (Duration.ofSeconds 1).nanos ≤ 0 at hle
    norm_num [Duration.ofSeconds] at hle

/-- Whether a key whose sync was throttled may be ready at once, though nobody else asked for it while it was held. -/
def StraightBack (s : Settings) (b : Backoff) : Prop :=
  ∃ (e : Error) (q : WorkQueue ServiceKey) (key : ServiceKey) (now clock : Duration), e.isThrottled = true ∧
    q.shuttingDown = false ∧ key ∈ q.processing ∧ key ∉ q.dirty ∧ key ∉ q.ready ∧
    key ∈ (q.afterDelayed (Worker.handBack q now key
      (Worker.requeue? s.errorRequeue clock b (some (.error e))).1)).ready

private theorem straightBack_iff (s : Settings) (b : Backoff) :
    StraightBack s b ↔ ∃ clock, (b.next clock).1 = .zero := by
  have hrequeue : ∀ (e : Error) clock, e.isThrottled = true →
      (Worker.requeue? s.errorRequeue clock b (some (.error e))).1 = some ⟨"throttled", (b.next clock).1⟩ := by
    intro e clock he
    simp [Worker.requeue?, he]
  constructor
  · rintro ⟨e, q, key, now, clock, he, hopen, -, hdirty, hready, hback⟩
    rw [hrequeue e clock he, Worker.ready_handBack_iff hopen hdirty hready] at hback
    exact ⟨clock, hback⟩
  · rintro ⟨clock, hzero⟩
    let key : ServiceKey := ⟨"default", "web"⟩
    let q : WorkQueue ServiceKey := { processing := [key] }
    refine ⟨.cloud ⟨.throttled, ""⟩, q, key, .zero, clock, rfl, rfl, List.mem_cons_self, List.not_mem_nil,
      List.not_mem_nil, ?_⟩
    rw [hrequeue _ clock rfl, Worker.ready_handBack_iff rfl List.not_mem_nil List.not_mem_nil]
    exact hzero

/-- With accepted settings all delays are at least the floor if scaling does not take the floor below itself, which is
possible only past `2 ^ 53` seconds with the factor one, and if the plateau, should it be reached, is not below the
floor. No throttled key is straight back if and only if the plateau is not zero or never reached. -/
theorem floor_kept_iff {s : Settings} (hs : s.validate = .ok ()) (hrange : s.backoff.ceilingSecs < 2 ^ 64) :
    ((∀ log b, History s.backoff log b → ∀ now delay, Call.next now delay ∈ log →
        Duration.ofSeconds s.backoff.floorSecs ≤ delay) ↔
      Duration.ofSeconds s.backoff.floorSecs ≤ (Duration.ofSeconds s.backoff.floorSecs).scale s.backoff.factor ∧
        (Outgrows s.backoff → s.backoff.floorSecs ≤ s.backoff.plateauSecs)) ∧
    (1.0 < s.backoff.factor ∨ s.backoff.floorSecs ≤ 2 ^ 53 →
      Duration.ofSeconds s.backoff.floorSecs ≤ (Duration.ofSeconds s.backoff.floorSecs).scale s.backoff.factor) ∧
    ((∀ log b, History s.backoff log b → ¬ StraightBack s b) ↔
      (Outgrows s.backoff → s.backoff.plateauSecs ≠ 0)) := by
  have ha := s.accepted_of_validate hs
  obtain ⟨w, hone, hw⟩ := Duration.holds_of_isGrowthFactor ha.growth
  refine ⟨?_, ?_, ?_⟩
  · rw [forall_delay_iff]
    exact floor_le_course_iff ha hrange
  · rintro (hgrows | hexact)
    · exact Duration.le_scale_of_one_lt (ha.floor_le.trans_lt hrange) hw ((Number.one_lt_iff hw).mp hgrows)
    · exact Duration.le_scale_of_exact hexact hw hone
  · rw [← course_ne_zero_iff ha hrange, ← forall_next_iff (P := fun delay => delay ≠ .zero)]
    simp only [straightBack_iff, not_exists, ne_eq]

/-- The default settings keep to their floor. -/
theorem floor_kept_default : ({} : Settings).validate = .ok () ∧ (120 : ℕ) < 2 ^ 64 ∧
    ∀ log b, History {} log b → ∀ now delay, Call.next now delay ∈ log → Duration.ofSeconds 5 ≤ delay := by
  have hs : ({} : Settings).validate = .ok () := by rfl
  have hrange : (120 : ℕ) < 2 ^ 64 := by norm_num
  have h := floor_kept_iff (s := {}) hs hrange
  exact ⟨hs, hrange, h.1.mpr ⟨h.2.1 (.inr (by norm_num)), fun _ => by decide⟩⟩

private def dropping : Settings := { backoff := { floorSecs := 5, factor := 2.0, ceilingSecs := 8, plateauSecs := 0 } }

/-- The second throttled request in a row gets no delay, and its key is ready at once. -/
theorem not_floor_kept_dropping : dropping.validate = .ok () ∧
    (∃ log b, History dropping.backoff log b ∧ Call.next .zero .zero ∈ log ∧ ¬ Duration.ofSeconds 5 ≤ .zero) ∧
    ∃ log b, History dropping.backoff log b ∧ StraightBack dropping b := by
  have hscaled : (Duration.ofSeconds 5).scale 2.0 = .ofSeconds 10 := by decide +kernel
  have hsecond : course dropping.backoff 1 = .zero := by
    change successor dropping.backoff (.ofSeconds 5) = _
    unfold successor
    rw [show dropping.backoff.factor = 2.0 from rfl, hscaled]
    rfl
  obtain ⟨log, b, h, hlast⟩ := exists_history dropping.backoff 1
  obtain ⟨log₀, b₀, h₀, hlast₀⟩ := exists_history dropping.backoff 0
  refine ⟨by rfl, ⟨log, b, h, ?_, by decide⟩, log₀, b₀, h₀, (straightBack_iff _ _).mpr ⟨.zero, ?_⟩⟩
  · rw [← hsecond]
    exact mem_of_lastThrottle? hlast
  · rw [h₀.next_eq, hlast₀, ← hsecond]
    rfl

/-- Whole seconds past `2 ^ 53` are rounded, so that a factor of one may take them below themselves. -/
example : (Duration.ofSeconds 9007199254740993).scale 1.0 = .ofSeconds 9007199254740992 := by decide +kernel

end Backoff
end ServiceBalancer
