import Mathlib.Tactic.SplitIfs
import ServiceBalancer.Settings

/-! The calls that a throttle backoff has had since it was made, with their answers, and what follows from them for its
next answer. Nothing is asked of the times of the calls: a clock may go backwards. -/
namespace ServiceBalancer

theorem Duration.ofSeconds_mono {m n : Nat} (h : m ≤ n) : Duration.ofSeconds m ≤ .ofSeconds n :=
  Nat.mul_le_mul_right 1000000000 h

structure BackoffSettings.Accepted (b : BackoffSettings) : Prop where
  growth : isGrowthFactor b.factor = true
  floor_pos : 0 < b.floorSecs
  decay_pos : 0 < b.decayCheckSecs
  floor_le : b.floorSecs ≤ b.ceilingSecs
  plateau_le : b.plateauSecs ≤ b.ceilingSecs

theorem Settings.accepted_of_validate {s : Settings} (h : s.validate = .ok ()) : s.backoff.Accepted := by
  have hfault : s.backoff.fault? = none := by
    unfold validate fault? at h
    by_cases hw : s.workers = 0
    · simp [hw] at h
    · rcases hb : s.backoff.fault? with _ | fault
      · rfl
      · simp [hw, hb] at h
  unfold BackoffSettings.fault? at hfault
  split_ifs at hfault with hfactor hzero hfloor hplateau
  exact ⟨by simpa using hfactor, by omega, by omega, by omega, by omega⟩

namespace Backoff

/-- A call of a backoff: the time on the clock, and the answer. -/
inductive Call where
  | next (now delay : Duration)
  | relax (now : Duration) (reset : Bool)

/-- The calls that a backoff has had since it was new, the last first. -/
inductive History (settings : BackoffSettings) : List Call → Backoff → Prop
  | new : History settings [] { settings }
  | next {log : List Call} {b : Backoff} (now : Duration) (h : History settings log b) :
      History settings (.next now (b.next now).1 :: log) (b.next now).2
  | relax {log : List Call} {b : Backoff} (now : Duration) (h : History settings log b) :
      History settings (.relax now (b.relax now).1 :: log) (b.relax now).2

/-- The last throttled request since the backoff was last reset: its time, and the delay it got. -/
def lastThrottle? : List Call → Option (Duration × Duration)
  | [] => none
  | .next now delay :: _ => some (now, delay)
  | .relax _ true :: _ => none
  | .relax _ false :: log => lastThrottle? log

def successor (settings : BackoffSettings) (delay : Duration) : Duration :=
  if delay.scale settings.factor ≤ .ofSeconds settings.ceilingSecs then delay.scale settings.factor
  else .ofSeconds settings.plateauSecs

variable {settings : BackoffSettings} {log : List Call} {b : Backoff}

/-! ### One call -/

theorem grown_eq (b : Backoff) : b.grown = (b.delay.map (successor b.settings)).getD b.floor := by
  unfold grown successor
  rcases b.delay with _ | delay
  · rfl
  · by_cases h : b.ceiling < delay.scale b.settings.factor
    · exact (if_pos h).trans (if_neg (Nat.not_le_of_lt h)).symm
    · exact (if_neg h).trans (if_pos (Nat.le_of_not_lt h)).symm

/-- A backoff that is asked to relax falls back if it was throttled long enough ago, or stays as it is. -/
theorem relax_cases (b : Backoff) (now : Duration) :
    (b.relax now = (true, { b with delay := none }) ∧ ∃ delay last, b.delay = some delay ∧ b.lastThrottle = some last ∧
      b.quietPeriod.nanos ≤ now.nanos - last.nanos) ∨
    b.relax now = (false, b) ∧ ∀ delay last, b.delay = some delay → b.lastThrottle = some last →
      now.nanos - last.nanos < b.quietPeriod.nanos := by
  rcases hd : b.delay with _ | delay
  · right
    exact ⟨by simp only [relax, hd], fun delay last h => by cases h⟩
  · rcases hl : b.lastThrottle with _ | last
    · right
      exact ⟨by simp only [relax, hd, hl], fun delay last _ h => by cases h⟩
    · by_cases hquiet : b.quietPeriod.nanos ≤ now.nanos - last.nanos
      · left
        exact ⟨by simp only [relax, hd, hl, if_pos hquiet], delay, last, rfl, rfl, hquiet⟩
      · right
        refine ⟨by simp only [relax, hd, hl, if_neg hquiet], fun delay' last' _ h => ?_⟩
        obtain rfl := Option.some.inj h
        exact Nat.lt_of_not_le hquiet

/-! ### All calls -/

theorem History.settings_eq (h : History settings log b) : b.settings = settings := by
  induction h with
  | new => rfl
  | next now h ih => exact ih
  | @relax log b now h ih =>
    rcases b.relax_cases now with ⟨he, -⟩ | ⟨he, -⟩ <;> rw [he] <;> exact ih

/-- What a backoff keeps is the delay of the last throttled request and its time. -/
theorem History.delay_eq (h : History settings log b) : b.delay = (lastThrottle? log).map (·.2) ∧
    ∀ p, lastThrottle? log = some p → b.lastThrottle = some p.1 := by
  induction h with
  | new => exact ⟨rfl, fun p hp => by cases hp⟩
  | next now h ih =>
    refine ⟨rfl, fun p hp => ?_⟩
    obtain rfl := Option.some.inj hp
    rfl
  | @relax log b now h ih =>
    rcases b.relax_cases now with ⟨he, -⟩ | ⟨he, -⟩ <;> rw [he]
    · exact ⟨rfl, fun p hp => by cases hp⟩
    · exact ih

theorem History.next_eq (h : History settings log b) (now : Duration) :
    (b.next now).1 = match lastThrottle? log with
      | none => .ofSeconds settings.floorSecs
      | some (_, delay) => successor settings delay := by
  change b.grown = _
  rw [grown_eq, h.delay_eq.1, h.settings_eq, floor, h.settings_eq]
  rcases lastThrottle? log with _ | ⟨last, delay⟩ <;> rfl

theorem successor_le_ceiling (ha : settings.Accepted) (delay : Duration) :
    successor settings delay ≤ .ofSeconds settings.ceilingSecs := by
  unfold successor
  split_ifs with h
  · exact h
  · exact Duration.ofSeconds_mono ha.plateau_le

theorem History.next_le_ceiling (ha : settings.Accepted) (h : History settings log b) (now : Duration) :
    (b.next now).1 ≤ .ofSeconds settings.ceilingSecs := by
  rw [h.next_eq now]
  rcases lastThrottle? log with _ | ⟨last, delay⟩
  · exact Duration.ofSeconds_mono ha.floor_le
  · exact successor_le_ceiling ha delay

theorem History.delay_le_ceiling (ha : settings.Accepted) (h : History settings log b) {now delay : Duration}
    (hd : Call.next now delay ∈ log) : delay ≤ .ofSeconds settings.ceilingSecs := by
  induction h with
  | new => cases hd
  | next now h ih =>
    rcases List.mem_cons.mp hd with he | hd
    · cases he
      exact h.next_le_ceiling ha _
    · exact ih hd
  | relax now h ih =>
    rcases List.mem_cons.mp hd with he | hd
    · cases he
    · exact ih hd

theorem mem_of_lastThrottle? {log : List Call} {last delay : Duration} (h : lastThrottle? log = some (last, delay)) :
    Call.next last delay ∈ log := by
  fun_induction lastThrottle? log with
  | case1 => cases h
  | case2 now delay log =>
    cases h
    exact List.mem_cons_self
  | case3 => cases h
  | case4 now log ih => exact List.mem_cons_of_mem _ (ih h)

theorem History.current_le_ceiling (ha : settings.Accepted) (h : History settings log b) :
    b.current ≤ .ofSeconds settings.ceilingSecs := by
  rw [current, h.delay_eq.1, floor, h.settings_eq]
  rcases hlast : lastThrottle? log with _ | ⟨last, delay⟩
  · exact Duration.ofSeconds_mono ha.floor_le
  · exact h.delay_le_ceiling ha (mem_of_lastThrottle? hlast)

theorem History.relax_iff (h : History settings log b) (now : Duration) :
    (b.relax now).1 = true ↔ ∃ last delay, lastThrottle? log = some (last, delay) ∧
      (Duration.ofSeconds settings.quietPeriodSecs).nanos ≤ now.nanos - last.nanos := by
  obtain ⟨hdelay, hlast⟩ := h.delay_eq
  have hquiet : b.quietPeriod = .ofSeconds settings.quietPeriodSecs := by rw [quietPeriod, h.settings_eq]
  rw [← hquiet]
  rcases hl : lastThrottle? log with _ | ⟨last, delay⟩ <;> rw [hl] at hdelay
  · have hnever : (b.relax now).1 = false := by
      rcases b.relax_cases now with ⟨-, delay, last, hd, -⟩ | ⟨he, -⟩
      · cases hdelay.symm.trans hd
      · rw [he]
    simp [hnever]
  · have hsome := hlast _ hl
    rcases b.relax_cases now with ⟨he, delay', last', -, hl', hle⟩ | ⟨he, hlt⟩ <;> rw [he]
    · obtain rfl := Option.some.inj (hsome.symm.trans hl')
      exact ⟨fun _ => ⟨_, _, rfl, hle⟩, fun _ => rfl⟩
    · refine ⟨fun hf => absurd hf Bool.false_ne_true, ?_⟩
      rintro ⟨_, _, hp, hle⟩
      cases hp
      exact absurd hle (Nat.not_le_of_lt (hlt delay last hdelay hsome))

/-! ### The course of throttling -/

/-- The delays of throttled requests that no reset comes between. -/
def course (settings : BackoffSettings) : Nat → Duration
  | 0 => .ofSeconds settings.floorSecs
  | n + 1 => successor settings (course settings n)

theorem course_le_ceiling (ha : settings.Accepted) (n : Nat) : course settings n ≤ .ofSeconds settings.ceilingSecs := by
  cases n with
  | zero => exact Duration.ofSeconds_mono ha.floor_le
  | succ n => exact successor_le_ceiling ha _

theorem History.mem_course (h : History settings log b) :
    ∀ now delay, Call.next now delay ∈ log → ∃ n, course settings n = delay := by
  induction h with
  | new =>
    intro now delay hd
    cases hd
  | @next log b moment h ih =>
    intro now delay hd
    rcases List.mem_cons.mp hd with he | hd
    · cases he
      rw [h.next_eq moment]
      rcases hlast : lastThrottle? log with _ | ⟨last, delay⟩
      · exact ⟨0, rfl⟩
      · obtain ⟨n, rfl⟩ := ih last delay (mem_of_lastThrottle? hlast)
        exact ⟨n + 1, rfl⟩
    · exact ih now delay hd
  | relax moment h ih =>
    intro now delay hd
    rcases List.mem_cons.mp hd with he | hd
    · cases he
    · exact ih now delay hd

theorem exists_history (settings : BackoffSettings) (n : Nat) :
    ∃ log b, History settings log b ∧ lastThrottle? log = some (.zero, course settings n) := by
  induction n with
  | zero => exact ⟨_, _, .next .zero .new, by rw [lastThrottle?, History.new.next_eq]; rfl⟩
  | succ n ih =>
    obtain ⟨log, b, h, hlast⟩ := ih
    exact ⟨_, _, .next .zero h, by rw [lastThrottle?, h.next_eq, hlast]; rfl⟩

/-- What holds for the delays of all histories holds along the course. -/
theorem forall_delay_iff {P : Duration → Prop} :
    (∀ log b, History settings log b → ∀ now delay, Call.next now delay ∈ log → P delay) ↔
      ∀ n, P (course settings n) := by
  constructor
  · intro h n
    obtain ⟨log, b, hb, hlast⟩ := exists_history settings n
    exact h log b hb _ _ (mem_of_lastThrottle? hlast)
  · intro h log b hb now delay hd
    obtain ⟨n, rfl⟩ := hb.mem_course now delay hd
    exact h n

/-- The same for the delays that a next call would get. -/
theorem forall_next_iff {P : Duration → Prop} :
    (∀ log b, History settings log b → ∀ now, P (b.next now).1) ↔ ∀ n, P (course settings n) := by
  constructor
  · intro h n
    cases n with
    | zero => exact h _ _ .new .zero
    | succ n =>
      obtain ⟨log, b, hb, hlast⟩ := exists_history settings n
      have hnext := h log b hb .zero
      rwa [hb.next_eq, hlast] at hnext
  · intro h log b hb now
    exact forall_delay_iff.mpr h _ _ (.next now hb) now _ List.mem_cons_self

/-! ### The bound -/

/-- A backoff with accepted settings never passes its ceiling. It begins at the floor and goes on by scaling or with the
plateau until it is reset, which takes a throttled request and then a quiet period; asking in vain changes nothing. -/
theorem History.bounded_until_quiet {s : Settings} (hs : s.validate = .ok ()) (h : History s.backoff log b) :
    (∀ now delay, Call.next now delay ∈ log → delay ≤ .ofSeconds s.backoff.ceilingSecs) ∧
    b.current ≤ .ofSeconds s.backoff.ceilingSecs ∧
    (∀ now, (b.next now).1 ≤ .ofSeconds s.backoff.ceilingSecs ∧
      (b.next now).1 = match lastThrottle? log with
        | none => .ofSeconds s.backoff.floorSecs
        | some (_, delay) =>
          if delay.scale s.backoff.factor ≤ .ofSeconds s.backoff.ceilingSecs then delay.scale s.backoff.factor
          else .ofSeconds s.backoff.plateauSecs) ∧
    ∀ now, ((b.relax now).1 = true ↔ ∃ last delay, lastThrottle? log = some (last, delay) ∧
        (Duration.ofSeconds s.backoff.quietPeriodSecs).nanos ≤ now.nanos - last.nanos) ∧
      ((b.relax now).1 = false → (b.relax now).2 = b) := by
  have ha := s.accepted_of_validate hs
  refine ⟨fun now delay => h.delay_le_ceiling ha, h.current_le_ceiling ha,
    fun now => ⟨h.next_le_ceiling ha now, h.next_eq now⟩, fun now => ⟨h.relax_iff now, fun hf => ?_⟩⟩
  rcases b.relax_cases now with ⟨he, -⟩ | ⟨he, -⟩
  · rw [he] at hf
    cases hf
  · rw [he]

theorem History.bounded_by_default : ({} : Settings).validate = .ok () ∧
    (∃ b, History {} [.next .zero (.ofSeconds 5)] b ∧ (b.next .zero).1 = ⟨7500000000⟩) ∧
    ∃ log b, History {} log b ∧ lastThrottle? log = some (.zero, ⟨85429687500⟩) ∧ b.current ≤ .ofSeconds 120 ∧
      (b.next .zero).1 = .ofSeconds 30 ∧ b.relax (.ofSeconds 59) = (false, b) ∧ (b.relax (.ofSeconds 60)).1 = true := by
  have hs : ({} : Settings).validate = .ok () := by rfl
  refine ⟨hs, ?_, ?_⟩
  · have h : History {} [.next .zero (.ofSeconds 5)] (Backoff.next { settings := {} } .zero).2 := .next .zero .new
    refine ⟨_, h, ?_⟩
    rw [((h.bounded_until_quiet (s := {}) hs).2.2.1 .zero).2]
    decide +kernel
  · obtain ⟨log, b, h, hlast⟩ := exists_history {} 7
    have hdelay : course {} 7 = ⟨85429687500⟩ := by decide +kernel
    rw [hdelay] at hlast
    obtain ⟨-, hcurrent, hnext, hrelax⟩ := h.bounded_until_quiet (s := {}) hs
    have hearly : (b.relax (.ofSeconds 59)).1 = false := by
      rw [← Bool.not_eq_true, (hrelax _).1, hlast]
      rintro ⟨last, delay, he, hle⟩
      cases he
      revert hle
      decide
    refine ⟨log, b, h, hlast, hcurrent, ?_, Prod.ext hearly ((hrelax _).2 hearly), ?_⟩
    · rw [(hnext .zero).2, hlast]
      decide +kernel
    · exact (hrelax _).1.mpr ⟨_, _, hlast, by decide⟩

end Backoff
end ServiceBalancer
