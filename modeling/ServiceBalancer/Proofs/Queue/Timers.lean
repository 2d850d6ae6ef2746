import ServiceBalancer.Proofs.Queue.Deadlines
import Mathlib.Data.List.MinMax
import Mathlib.Order.Bounds.Defs

/-! A work queue beside a clock. Every delayed add that sets a deadline starts a timer, and none is ever stopped. Of the
delayed adds of an item that are called for together only the earliest deadline counts when its timer rings. -/
namespace ServiceBalancer

/-- The moment a span after another. -/
instance : Add Duration := ⟨fun a b => ⟨a.nanos + b.nanos⟩⟩

namespace WorkQueue
variable {α : Type} [DecidableEq α]

/-- What a delayed add that takes time comes to: nothing past the end of the clock or beside an earlier deadline, and
else a new deadline with a timer. -/
theorem addAfter_open {q : WorkQueue α} {delay : Duration} (now : Duration) (a : α) (ho : q.shuttingDown = false)
    (hdelay : delay ≠ .zero) : clockLimit ≤ now + delay ∧ q.addAfter now a delay = .overflow ∨
      now + delay < clockLimit ∧
        ((∃ d, q.deadline? a = some d ∧ d ≤ now + delay) ∧ q.addAfter now a delay = .settled q ∨
          (∀ d, q.deadline? a = some d → now + delay < d) ∧ q.addAfter now a delay = .timed
            { q with waiting := (a, now + delay) :: q.waiting.filter (fun w => w.1 ≠ a) } (now + delay)) := by
  have hsum : (⟨now.nanos + delay.nanos⟩ : Duration) = now + delay := rfl
  unfold addAfter
  simp only [if_neg hdelay, hsum]
  by_cases hlimit : clockLimit ≤ now + delay
  · exact .inl ⟨hlimit, if_pos hlimit⟩
  · refine .inr ⟨Nat.lt_of_not_le hlimit, ?_⟩
    rw [if_neg hlimit, if_neg (by simp [ho])]
    rcases hd : q.deadline? a with _ | d
    · exact .inr ⟨by simp, rfl⟩
    · by_cases hle : d ≤ now + delay
      · exact .inl ⟨⟨d, rfl, hle⟩, if_pos hle⟩
      · refine .inr ⟨fun e he => ?_, if_neg hle⟩
        obtain rfl := Option.some.inj he
        exact Nat.lt_of_not_le hle

/-- What an add makes of an open queue: the item needs work, and it joins the line unless it did need work already, or
is held. -/
structure Adds (q : WorkQueue α) (a : α) (q' : WorkQueue α) : Prop where
  dirty : ∀ x, x ∈ q'.dirty ↔ x = a ∨ x ∈ q.dirty
  ready : q'.ready = q.ready ++ if a ∉ q.dirty ∧ a ∉ q.processing then [a] else []
  processing : q'.processing = q.processing

theorem adds_add (q : WorkQueue α) (ho : q.shuttingDown = false) (a : α) : q.Adds a (q.add a) where
  dirty x := by rw [mem_dirty_add, or_comm, and_iff_right ho]
  ready := by simp only [add_ready_eq, ho, true_and]
  processing := add_processing q a

/-- A timer whose deadline counts adds its item. -/
theorem adds_fire {q : WorkQueue α} (ho : q.shuttingDown = false) {a : α} {deadline : Duration}
    (hd : q.deadline? a = some deadline) : q.Adds a (q.fire a deadline) := by
  rcases q.fire_cases a deadline with ⟨-, waiting, he⟩ | ⟨hne, -⟩
  · have hadds := adds_add { q with waiting } ho a
    rw [he]
    exact ⟨hadds.dirty, hadds.ready, hadds.processing⟩
  · exact absurd hd hne

/-- A timer whose deadline counts takes the deadline away, and any other leaves all deadlines. -/
theorem fire_deadline? (q : WorkQueue α) (a x : α) (deadline : Duration) : (q.fire a deadline).deadline? x =
    if q.deadline? a = some deadline ∧ x = a then none else q.deadline? x := by
  unfold fire
  split_ifs with hd hx hx
  · obtain rfl := hx.2
    simp [deadline?]
  · rw [add_deadline?, deadline?_clear q fun he => hx ⟨hd, he⟩]
  · exact absurd hx.1 hd
  · rfl

end WorkQueue

/-- An open work queue, the time, and the timers that have not rung. -/
structure Clocked (α : Type) where
  queue : WorkQueue α := {}
  now : Duration := .zero
  /-- What each timer is for, and when it rings. -/
  timers : List (α × Duration) := []

namespace Clocked

inductive Move (α : Type) where
  | add (a : α)
  | get
  | release (a : α)
  | addAfter (a : α) (delay : Duration)
  | ring (a : α) (deadline : Duration)
  | pass (till : Duration)

inductive Mark (α : Type) where
  /-- A delayed add that takes time. -/
  | call (a : α) (now delay : Duration)
  /-- An add by a timer. -/
  | rang (a : α) (now : Duration)
  | other

def opened {α : Type} (name : String) (now : Duration) : Clocked α := { queue := { name }, now }

/-- Whether a moment is past: it is reached, and all that was to ring by then has rung. -/
def Past {α : Type} (s : Clocked α) (moment : Duration) : Prop := moment ≤ s.now ∧ ∀ w ∈ s.timers, moment < w.2

variable {α : Type} [DecidableEq α]

/-- Makes a move. Timers ring at their deadlines: none rings before, and time does not pass one by. -/
def act? (s : Clocked α) : Move α → Option (Clocked α)
  | .add a => some { s with queue := s.queue.add a }
  | .get =>
    match s.queue.take? with
    | some (_, queue) => some { s with queue }
    | none => some s
  | .release a => some { s with queue := s.queue.release a }
  | .addAfter a delay =>
    match s.queue.addAfter s.now a delay with
    | .settled queue => some { s with queue }
    | .timed queue deadline => some { s with queue, timers := (a, deadline) :: s.timers }
    | .overflow => some s
  | .ring a deadline =>
    if (a, deadline) ∈ s.timers ∧ deadline ≤ s.now then
      some { s with queue := s.queue.fire a deadline, timers := s.timers.erase (a, deadline) }
    else none
  | .pass till =>
    if s.now ≤ till ∧ till < clockLimit ∧ ∀ w ∈ s.timers, till ≤ w.2 then some { s with now := till } else none

/-- What a move means for the delayed adds. A timer whose deadline no longer counts adds nothing. -/
def mark (s : Clocked α) : Move α → Mark α
  | .addAfter a delay => if delay = .zero then .other else .call a s.now delay
  | .ring a deadline => if s.queue.deadline? a = some deadline then .rang a s.now else .other
  | _ => .other

/-- Any number of moves, with their marks, newest first. -/
inductive Run (s : Clocked α) : List (Mark α) → Clocked α → Prop where
  | start : Run s [] s
  | next {h t move u} : Run s h t → t.act? move = some u → Run s (t.mark move :: h) u

/-- When the delayed adds of an item are due that were called for since a timer added it last. What is due past the
end of the clock is left out. -/
def outstanding (k : α) : List (Mark α) → List Duration
  | [] => []
  | .call a now delay :: h =>
    if a = k ∧ now + delay < clockLimit then (now + delay) :: outstanding k h else outstanding k h
  | .rang a _ :: h => if a = k then [] else outstanding k h
  | .other :: h => outstanding k h

def rings (k : α) : List (Mark α) → List Duration
  | [] => []
  | .rang a now :: h => if a = k then now :: rings k h else rings k h
  | .call _ _ _ :: h => rings k h
  | .other :: h => rings k h

def First (moments : List Duration) : Option Duration → Prop
  | none => moments = []
  | some d => IsLeast {e | e ∈ moments} d

variable {s t u : Clocked α} {h later earlier : List (Mark α)} {k a : α} {d e now delay moment : Duration}
  {move : Move α} {moments : List Duration}

/-! ### First moments -/

omit [DecidableEq α] in
theorem First.of_le (h : First moments (some d)) (hle : d ≤ e) : First (e :: moments) (some d) := by
  refine ⟨.tail _ h.1, fun x hx => ?_⟩
  rcases List.mem_cons.mp hx with rfl | hx
  · exact hle
  · exact h.2 hx

omit [DecidableEq α] in
theorem First.of_lt {first : Option Duration} (h : First moments first) (hlt : ∀ d, first = some d → e < d) :
    First (e :: moments) (some e) := by
  refine ⟨.head _, fun x hx => ?_⟩
  rcases List.mem_cons.mp hx with rfl | hx
  · exact Nat.le_refl _
  · cases first with
    | none =>
      obtain rfl : moments = [] := h
      cases hx
    | some d => exact Nat.le_trans (Nat.le_of_lt (hlt d rfl)) (h.2 hx)

omit [DecidableEq α] in
theorem First.unique (hd : First moments (some d)) (he : First moments (some e)) : d = e :=
  congrArg Duration.mk (Nat.le_antisymm (hd.2 he.1) (he.2 hd.1))

/-! ### One move -/

structure Timely (h : List (Mark α)) (s : Clocked α) : Prop where
  isOpen : s.queue.shuttingDown = false
  inReach : s.now < clockLimit
  ahead : ∀ w ∈ s.timers, s.now ≤ w.2
  first : ∀ k, First (outstanding k h) (s.queue.deadline? k)
  timed : ∀ k d, s.queue.deadline? k = some d → (k, d) ∈ s.timers

theorem timely_opened {name : String} (hnow : now < clockLimit) : Timely [] (opened name now : Clocked α) where
  isOpen := rfl
  inReach := hnow
  ahead := by simp [opened]
  first := fun _ => rfl
  timed := by simp [opened, WorkQueue.deadline?]

/-- What changes neither deadlines nor timers nor the time is no delayed add. -/
theorem Timely.frame (hs : Timely h s) {queue : WorkQueue α} (hopen : queue.shuttingDown = s.queue.shuttingDown)
    (hdeadline : ∀ k, queue.deadline? k = s.queue.deadline? k) : Timely (.other :: h) { s with queue } where
  isOpen := hopen.trans hs.isOpen
  inReach := hs.inReach
  ahead := hs.ahead
  first := fun k => (hdeadline k).symm ▸ hs.first k
  timed := fun k d hd => hs.timed k d ((hdeadline k).symm.trans hd)

theorem Timely.call (hs : Timely h s) (hdelay : delay ≠ .zero) (ht : s.act? (.addAfter a delay) = some t) :
    Timely (.call a s.now delay :: h) t := by
  rcases WorkQueue.addAfter_open s.now a hs.isOpen hdelay with ⟨hlimit, he⟩ | ⟨hlimit, ⟨⟨d, hd, hle⟩, he⟩ | ⟨hlt, he⟩⟩
  all_goals
    simp only [act?, he] at ht
    obtain rfl := Option.some.inj ht
  · refine ⟨hs.isOpen, hs.inReach, hs.ahead, fun k => ?_, hs.timed⟩
    rw [outstanding, if_neg fun h => Nat.not_lt.mpr hlimit h.2]
    exact hs.first k
  · refine ⟨hs.isOpen, hs.inReach, hs.ahead, fun k => ?_, hs.timed⟩
    rw [outstanding]
    split_ifs with hk
    · obtain rfl := hk.1
      have hfirst := hs.first a
      rw [hd] at hfirst ⊢
      exact hfirst.of_le hle
    · exact hs.first k
  · refine ⟨hs.isOpen, hs.inReach, ?_, fun k => ?_, fun k d hd => ?_⟩
    · intro w hw
      rcases List.mem_cons.mp hw with rfl | hw
      · exact Nat.le_add_right _ _
      · exact hs.ahead w hw
    · rw [outstanding, WorkQueue.deadline?_set]
      by_cases hk : k = a
      · subst hk
        rw [if_pos ⟨rfl, hlimit⟩, if_pos rfl]
        exact (hs.first k).of_lt hlt
      · rw [if_neg fun h => hk h.1.symm, if_neg hk]
        exact hs.first k
    · rw [WorkQueue.deadline?_set] at hd
      split_ifs at hd with hk
      · obtain rfl := Option.some.inj hd
        exact hk ▸ .head _
      · exact .tail _ (hs.timed k d hd)

theorem Timely.ring (hs : Timely h s) (ht : s.act? (.ring a d) = some t) : Timely (s.mark (.ring a d) :: h) t := by
  simp only [act?] at ht
  split at ht
  · obtain rfl := Option.some.inj ht
    have hopen : (s.queue.fire a d).shuttingDown = false := by
      rcases s.queue.fire_cases a d with ⟨_, waiting, he⟩ | ⟨_, he⟩
      · rw [he, WorkQueue.add_shuttingDown]
        exact hs.isOpen
      · rw [he]
        exact hs.isOpen
    refine ⟨hopen, hs.inReach, fun w hw => hs.ahead w (List.mem_of_mem_erase hw), fun k => ?_, fun k e he => ?_⟩
    · simp only [mark, WorkQueue.fire_deadline?]
      by_cases hd : s.queue.deadline? a = some d
      · by_cases hk : k = a
        · simp [hd, hk, outstanding, First]
        · simpa [hd, hk, outstanding, Ne.symm hk] using hs.first k
      · simpa [hd, outstanding] using hs.first k
    · simp only [WorkQueue.fire_deadline?] at he
      split_ifs at he with hk
      refine (List.mem_erase_of_ne ?_).mpr (hs.timed k e he)
      rintro ⟨⟩
      exact hk ⟨he, rfl⟩
  · cases ht

theorem Timely.act (hs : Timely h s) (ht : s.act? move = some t) : Timely (s.mark move :: h) t := by
  cases move with
  | add a =>
    obtain rfl := Option.some.inj ht
    exact hs.frame (by simp) (by simp)
  | get =>
    simp only [act?] at ht
    split at ht
    · next a queue hq =>
      obtain rfl := Option.some.inj ht
      obtain ⟨_, rest, _, rfl⟩ := WorkQueue.take?_eq_some.mp hq
      exact hs.frame rfl fun _ => rfl
    · obtain rfl := Option.some.inj ht
      exact hs.frame rfl fun _ => rfl
  | release a =>
    obtain rfl := Option.some.inj ht
    exact hs.frame (by simp) (by simp)
  | addAfter a delay =>
    by_cases hdelay : delay = .zero
    · simp only [act?, WorkQueue.addAfter, if_pos hdelay] at ht
      obtain rfl := Option.some.inj ht
      rw [mark, if_pos hdelay]
      exact hs.frame (by simp) (by simp)
    · rw [mark, if_neg hdelay]
      exact hs.call hdelay ht
  | ring a d => exact hs.ring ht
  | pass till =>
    simp only [act?] at ht
    split at ht
    · next hpass =>
      obtain rfl := Option.some.inj ht
      exact ⟨hs.isOpen, hpass.2.1, hpass.2.2, hs.first, hs.timed⟩
    · cases ht

/-- A timer that adds its item rings at the first of the deadlines that are outstanding. -/
theorem Timely.rang (hs : Timely h s) (ht : s.act? move = some t) (hm : s.mark move = .rang k moment) :
    First (outstanding k h) (some moment) := by
  cases move with
  | ring a d =>
    simp only [act?] at ht
    split at ht
    · next hring =>
      simp only [mark] at hm
      split at hm
      · next hd =>
        obtain ⟨rfl, rfl⟩ := Mark.rang.inj hm
        have hnow : s.now = d := congrArg Duration.mk (Nat.le_antisymm (hs.ahead _ hring.1) hring.2)
        rw [hnow, ← hd]
        exact hs.first a
      · cases hm
    · cases ht
  | addAfter a delay =>
    simp only [mark] at hm
    split at hm <;> cases hm
  | _ => cases hm

/-- A timer that is marked as one that adds its item does add it. -/
theorem Timely.adds (hs : Timely h s) (ht : s.act? move = some t) (hm : s.mark move = .rang k moment) :
    s.now = moment ∧ t.now = moment ∧ s.queue.Adds k t.queue := by
  cases move with
  | ring a d =>
    simp only [act?] at ht
    split at ht
    · simp only [mark] at hm
      split at hm
      · next hd =>
        obtain ⟨rfl, rfl⟩ := Mark.rang.inj hm
        obtain rfl := Option.some.inj ht
        exact ⟨rfl, rfl, WorkQueue.adds_fire hs.isOpen hd⟩
      · cases hm
    · cases ht
  | addAfter a delay =>
    simp only [mark] at hm
    split at hm <;> cases hm
  | _ => cases hm

/-- Any other timer leaves the queue as it is. -/
theorem ring_superseded (ht : s.act? (.ring k d) = some t) : s.mark (.ring k d) = .rang k s.now ∨ t.queue = s.queue := by
  simp only [act?] at ht
  split at ht
  · obtain rfl := Option.some.inj ht
    rcases s.queue.fire_cases k d with ⟨hd, -⟩ | ⟨-, he⟩
    · exact .inl (if_pos hd)
    · exact .inr he
  · cases ht

/-! ### Runs -/

theorem Run.split {m : Mark α} (run : Run s (later ++ m :: earlier) u) :
    ∃ t move v, Run s earlier t ∧ t.act? move = some v ∧ t.mark move = m ∧ Run v later u := by
  induction later generalizing u with
  | nil =>
    cases run with
    | next hr ht => exact ⟨_, _, _, hr, ht, rfl, .start⟩
  | cons _ later ih =>
    cases run with
    | next hr ht =>
      obtain ⟨t, move, v, hbefore, hmove, hmark, hafter⟩ := ih hr
      exact ⟨t, move, v, hbefore, hmove, hmark, hafter.next ht⟩

theorem Timely.run (hs : Timely earlier s) (run : Run s later t) : Timely (later ++ earlier) t := by
  induction run with
  | start => exact hs
  | next _ ht ih => exact ih.act ht

def Punctual (h : List (Mark α)) : Prop :=
  ∀ later earlier k moment, h = later ++ .rang k moment :: earlier → First (outstanding k earlier) (some moment)

theorem Punctual.tail {m : Mark α} (hp : Punctual (m :: h)) : Punctual h :=
  fun later earlier k moment he => hp (m :: later) earlier k moment (by rw [he]; rfl)

theorem Timely.punctual (hs : Timely [] s) (run : Run s h t) : Punctual h := by
  induction run with
  | start =>
    intro later earlier k moment he
    simp at he
  | next hr ht ih =>
    intro later earlier k moment he
    cases later with
    | nil =>
      obtain ⟨hm, rfl⟩ := List.cons.inj he
      exact (List.append_nil _ ▸ hs.run hr).rang ht hm
    | cons m later => exact ih later earlier k moment (List.cons.inj he).2

/-- A delayed add is outstanding until a timer has added its item, which is not after its own deadline. -/
theorem Punctual.call (hd : now + delay < clockLimit) (hp : Punctual (later ++ .call k now delay :: earlier)) :
    (∃ moment, .rang k moment ∈ later ∧ moment ≤ now + delay) ∨
      now + delay ∈ outstanding k (later ++ .call k now delay :: earlier) := by
  induction later with
  | nil => exact .inr (by simp [outstanding, hd])
  | cons m later ih =>
    rcases ih hp.tail with ⟨moment, hm, hle⟩ | hmem
    · exact .inl ⟨moment, .tail _ hm, hle⟩
    · cases m with
      | call a now' delay' =>
        refine .inr ?_
        rw [List.cons_append, outstanding]
        split_ifs
        · exact .tail _ hmem
        · exact hmem
      | rang a moment =>
        by_cases ha : a = k
        · subst ha
          exact .inl ⟨moment, .head _, (hp [] _ a moment rfl).2 hmem⟩
        · exact .inr (by rwa [List.cons_append, outstanding, if_neg ha])
      | other => exact .inr hmem

/-- As long as no more of them are called for, the delayed adds of an item that are outstanding are outstanding until
a timer adds the item once for all of them. -/
theorem Punctual.rings (hp : Punctual (later ++ earlier)) (hn : ∀ now delay, .call k now delay ∉ later) :
    rings k later = [] ∧ outstanding k (later ++ earlier) = outstanding k earlier ∨
      outstanding k (later ++ earlier) = [] ∧
        ∃ moment, rings k later = [moment] ∧ First (outstanding k earlier) (some moment) := by
  induction later with
  | nil => exact .inl ⟨rfl, rfl⟩
  | cons m later ih =>
    have ih := ih hp.tail fun now delay hm => hn now delay (.tail _ hm)
    cases m with
    | call a now' delay' =>
      have ha : a ≠ k := by
        rintro rfl
        exact hn now' delay' (.head _)
      simpa [outstanding, Clocked.rings, ha] using ih
    | rang a moment =>
      by_cases ha : a = k
      · subst ha
        have hfirst : First (outstanding a (later ++ earlier)) (some moment) := hp [] _ a moment rfl
        rcases ih with ⟨hrings, hsame⟩ | ⟨hnone, _⟩
        · refine .inr ⟨by simp [outstanding], moment, by simp [Clocked.rings, hrings], ?_⟩
          rwa [hsame] at hfirst
        · rw [hnone] at hfirst
          cases hfirst.1
      · simpa [outstanding, Clocked.rings, ha] using ih
    | other => simpa [outstanding, Clocked.rings] using ih

/-- Nothing is outstanding whose moment is past. -/
theorem Timely.not_past (hs : Timely h s) (hd : d ∈ outstanding k h) : ¬s.Past d := by
  intro hpast
  have hfirst := hs.first k
  rcases hk : s.queue.deadline? k with _ | e
  · rw [hk] at hfirst
    rw [show outstanding k h = [] from hfirst] at hd
    cases hd
  · rw [hk] at hfirst
    exact Nat.not_lt.mpr (hfirst.2 hd) (hpast.2 _ (hs.timed k e hk))

/-! ### Time goes on -/

theorem Run.trans (run : Run s earlier t) (run' : Run t later u) : Run s (later ++ earlier) u := by
  induction run' with
  | start => exact run
  | next _ ht ih => exact ih.next ht

/-- If a timer is still to ring, time can go on to the next that is, and that rings. -/
theorem Timely.rings_next (hs : Timely h s) (hn : s.timers ≠ []) : ∃ w ∈ s.timers, (∀ v ∈ s.timers, w.2 ≤ v.2) ∧
    (w.2 < clockLimit → ∃ m t, Run s [m, .other] t ∧ (∀ k now delay, m ≠ .call k now delay) ∧
      t.now = w.2 ∧ t.timers = s.timers.erase w) := by
  rcases hw : s.timers.argmin fun w => w.2.nanos with _ | w
  · exact absurd (List.argmin_eq_none.mp hw) hn
  · have hmem : w ∈ s.timers := List.argmin_mem hw
    have hleast : ∀ v ∈ s.timers, w.2 ≤ v.2 := fun v hv => List.le_of_mem_argmin hv hw
    refine ⟨w, hmem, hleast, fun hlimit => ?_⟩
    have hpass : s.act? (.pass w.2) = some { s with now := w.2 } := if_pos ⟨hs.ahead w hmem, hlimit, hleast⟩
    have hring : ({ s with now := w.2 } : Clocked α).act? (.ring w.1 w.2) =
        some { queue := s.queue.fire w.1 w.2, now := w.2, timers := s.timers.erase w } :=
      if_pos ⟨hmem, Nat.le_refl _⟩
    refine ⟨_, _, (Run.start.next hpass).next hring, fun k now delay => ?_, rfl, rfl⟩
    simp only [mark]
    split <;> simp

/-- Time can go on, if only the timers ring that have to. -/
theorem Timely.reaches (hs : Timely h s) (hle : s.now ≤ moment) (hlimit : moment < clockLimit) :
    ∃ later t, Run s later t ∧ (∀ k now delay, .call k now delay ∉ later) ∧ t.Past moment := by
  generalize hn : s.timers.length = n
  induction n using Nat.strong_induction_on generalizing s h with
  | _ n ih =>
    by_cases hall : ∀ w ∈ s.timers, moment < w.2
    · have hpass : s.act? (.pass moment) = some { s with now := moment } :=
        if_pos ⟨hle, hlimit, fun w hw => Nat.le_of_lt (hall w hw)⟩
      exact ⟨_, _, Run.start.next hpass, by simp [mark], Nat.le_refl _, hall⟩
    · push Not at hall
      obtain ⟨v, hv, hvm⟩ := hall
      obtain ⟨w, hw, hleast, hnext⟩ := hs.rings_next (List.ne_nil_of_mem hv)
      have hwm : w.2 ≤ moment := Nat.le_trans (hleast v hv) (Nat.le_of_not_lt hvm)
      obtain ⟨m, t, hrun, hm, hnow, htimers⟩ := hnext (Nat.lt_of_le_of_lt hwm hlimit)
      have hfewer : t.timers.length < n := by
        have hpos := List.length_pos_of_mem hw
        rw [htimers, List.length_erase_of_mem hw]
        omega
      obtain ⟨later, u, hlater, hcalls, hpast⟩ := ih _ hfewer (hs.run hrun) (hnow ▸ hwm) rfl
      refine ⟨later ++ [m, .other], u, hrun.trans hlater, fun k now delay hmem => ?_, hpast⟩
      rcases List.mem_append.mp hmem with hmem | hmem
      · exact hcalls k now delay hmem
      · rcases List.mem_cons.mp hmem with he | hmem
        · exact hm k now delay he.symm
        · simp at hmem

/-- What becomes of the delayed adds of an item in a run from a new queue on. -/
structure DelayedAdds (name : String) (start : Duration) (h : List (Mark α)) (s : Clocked α) (k : α) : Prop where
  deadline : First (outstanding k h) (s.queue.deadline? k)
  rang : ∀ later earlier moment, h = later ++ .rang k moment :: earlier →
    First (outstanding k earlier) (some moment) ∧ ∃ t u, Run (opened name start) earlier t ∧ Run u later s ∧
      t.now = moment ∧ u.now = moment ∧ t.queue.Adds k u.queue
  /-- No other timer adds the item, or does anything to the queue. -/
  superseded : ∀ d t, s.act? (.ring k d) = some t → s.mark (.ring k d) = .rang k s.now ∨ t.queue = s.queue
  followed : ∀ later earlier called delay, h = later ++ .call k called delay :: earlier → s.Past (called + delay) →
    ∃ moment, .rang k moment ∈ later ∧ moment ≤ called + delay
  once : ∀ later earlier, h = later ++ earlier → (∀ called delay, .call k called delay ∉ later) →
    (outstanding k earlier = [] → rings k later = []) ∧ ∀ d, First (outstanding k earlier) (some d) →
      (rings k later = [] ∨ rings k later = [d]) ∧ (s.Past d → rings k later = [d])
  goesOn : ∀ moment, s.now ≤ moment → moment < clockLimit → ∃ later t, Run s later t ∧
    (∀ a called delay, .call a called delay ∉ later) ∧ t.Past moment

/-- Delayed adds add their item once for all that are called for together, and in time. Whatever else is done with an
open queue, the deadline of an item is the first of those outstanding, that is, of the delayed adds since a timer added
the item last. A timer adds the item at no other moment than that, and then the item needs work; any other timer does
nothing. Every delayed add is followed by an add by a timer that is not after its own deadline. As long as no more are
called for, those outstanding cause one add if there are any, and none if there are none. And time can always go on until
they have. -/
theorem delayed_adds {name : String} (hnow : now < clockLimit) (run : Run (opened name now) h s) (k : α) :
    DelayedAdds name now h s k := by
  have hstart : Timely [] (opened name now : Clocked α) := timely_opened hnow
  have hs : Timely h s := List.append_nil h ▸ hstart.run run
  have hp : Punctual h := hstart.punctual run
  refine ⟨hs.first k, ?_, fun d t => ring_superseded, ?_, ?_, fun moment hle hlimit => hs.reaches hle hlimit⟩
  · rintro later earlier moment rfl
    obtain ⟨t, move, u, hbefore, hmove, hmark, hafter⟩ := run.split
    have ht : Timely earlier t := List.append_nil earlier ▸ hstart.run hbefore
    exact ⟨hp later earlier k moment rfl, t, u, hbefore, hafter, ht.adds hmove hmark⟩
  · rintro later earlier called delay rfl hpast
    have hlimit : called + delay < clockLimit := Nat.lt_of_le_of_lt hpast.1 hs.inReach
    exact (hp.call hlimit).resolve_right fun hmem => hs.not_past hmem hpast
  · rintro later earlier rfl hn
    rcases hp.rings hn with ⟨hrings, hsame⟩ | ⟨_, moment, hrings, hfirst⟩
    · refine ⟨fun _ => hrings, fun d hd => ⟨.inl hrings, fun hpast => ?_⟩⟩
      exact absurd hpast (hs.not_past (hsame ▸ hd.1))
    · refine ⟨fun hnone => ?_, fun d hd => ?_⟩
      · rw [hnone] at hfirst
        cases hfirst.1
      · obtain rfl : moment = d := hfirst.unique hd
        exact ⟨.inr hrings, fun _ => hrings⟩

private def atTime (now : Nat) (waiting timers ready : List Nat) : Clocked Nat where
  queue := { name := "service", ready, dirty := ready, waiting := waiting.map fun d => (1, ⟨d⟩) }
  now := ⟨now⟩
  timers := timers.map fun d => (1, ⟨d⟩)

private def calledAgain : List (Mark Nat) :=
  [.call 1 ⟨5⟩ ⟨5⟩, .other, .rang 1 ⟨3⟩, .other, .call 1 ⟨1⟩ ⟨2⟩, .other, .call 1 ⟨0⟩ ⟨10⟩]

/-- The superseded timer and the new one ring at the same moment, and together they add the item once. -/
theorem delayed_adds_reused : Duration.zero < clockLimit ∧
    Run (opened "service" .zero) ([.other, .rang 1 ⟨10⟩, .other] ++ calledAgain) (atTime 10 [] [] [1]) ∧
    rings 1 [.other, .rang 1 ⟨10⟩, .other] = [⟨10⟩] ∧
    ∃ t u : Clocked Nat, Run (opened "service" .zero) (.other :: calledAgain) t ∧ t.now = ⟨10⟩ ∧ u.now = ⟨10⟩ ∧
      t.queue.Adds 1 u.queue := by
  have h1 := (Run.start : Run (atTime 0 [] [] []) _ _).next
    (show act? _ (.addAfter 1 ⟨10⟩) = some (atTime 0 [10] [10] []) from rfl)
  have h2 := h1.next (show act? _ (.pass ⟨1⟩) = some (atTime 1 [10] [10] []) from rfl)
  have h3 := h2.next (show act? _ (.addAfter 1 ⟨2⟩) = some (atTime 1 [3] [3, 10] []) from rfl)
  have h4 := h3.next (show act? _ (.pass ⟨3⟩) = some (atTime 3 [3] [3, 10] []) from rfl)
  have h5 := h4.next (show act? _ (.ring 1 ⟨3⟩) = some (atTime 3 [] [10] [1]) from rfl)
  have h6 := h5.next (show act? _ (.pass ⟨5⟩) = some (atTime 5 [] [10] [1]) from rfl)
  have h7 := h6.next (show act? _ (.addAfter 1 ⟨5⟩) = some (atTime 5 [10] [10, 10] [1]) from rfl)
  have h8 := h7.next (show act? _ (.pass ⟨10⟩) = some (atTime 10 [10] [10, 10] [1]) from rfl)
  have h9 := h8.next (show act? _ (.ring 1 ⟨10⟩) = some (atTime 10 [] [10] [1]) from rfl)
  have run := h9.next (show act? _ (.ring 1 ⟨10⟩) = some (atTime 10 [] [] [1]) from rfl)
  have hnone : First [] none := rfl
  have hfirst : First (outstanding 1 calledAgain) (some ⟨10⟩) := hnone.of_lt (by simp)
  have hpast : (atTime 10 [] [] [1]).Past ⟨10⟩ := ⟨Nat.le_refl _, by simp [atTime]⟩
  have hadds := delayed_adds (by decide) (show Run (opened "service" .zero) _ _ from run) 1
  have hrings := hadds.once [.other, .rang 1 ⟨10⟩, .other] calledAgain rfl (by simp)
  obtain ⟨-, t, u, hbefore, -, ht, hu, hadd⟩ := hadds.rang [.other] (.other :: calledAgain) ⟨10⟩ rfl
  exact ⟨by decide, run, (hrings.2 ⟨10⟩ hfirst).2 hpast, t, u, hbefore, ht, hu, hadd⟩

end Clocked
end ServiceBalancer
