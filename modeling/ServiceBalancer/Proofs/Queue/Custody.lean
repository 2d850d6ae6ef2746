import ServiceBalancer.Proofs.Queue.Orderly

/-! A work queue in use. Any number of workers take items and release what they hold, while items are
added and timers fire in any order. Each item is in one hand at most. -/
namespace ServiceBalancer

/-- A work queue, and who holds which of its items. -/
structure Custody (α ι : Type) where
  queue : WorkQueue α := {}
  /-- What was handed out and has not been released since. -/
  held : List (ι × α) := []

namespace Custody
variable {α ι : Type}

inductive Op (α ι : Type) where
  | add (a : α)
  | addAfter (now : Duration) (a : α) (delay : Duration)
  /-- A timer fires, on time or late. -/
  | fire (a : α) (deadline : Duration)
  | get (who : ι)
  | release (who : ι) (a : α)
  | shutDown

inductive Effect (α : Type) where
  /-- An item is added, at once or by a timer. -/
  | signal (a : α)
  | handout (a : α)
  | quiet
  deriving DecidableEq

def opened (name : String) : Custody α ι := { queue := { name } }

def AtRest (s : Custody α ι) (a : α) : Prop := a ∉ s.queue.ready ∧ ∀ who, (who, a) ∉ s.held

variable [DecidableEq α] [DecidableEq ι]

/-- Does an operation. Nobody releases an item but who holds it. -/
def act? (s : Custody α ι) : Op α ι → Option (Custody α ι)
  | .add a => some { s with queue := s.queue.add a }
  | .addAfter now a delay => some { s with queue := s.queue.afterDelayed (s.queue.addAfter now a delay) }
  | .fire a deadline => some { s with queue := s.queue.fire a deadline }
  | .get who =>
    match s.queue.take? with
    | some (a, queue) => some { queue, held := (who, a) :: s.held }
    | none => some s
  | .release who a =>
    if (who, a) ∈ s.held then some { queue := s.queue.release a, held := s.held.erase (who, a) } else none
  | .shutDown => some { s with queue := s.queue.shutDown }

/-- What an operation on a queue means for the items. A timer whose deadline no longer counts means
nothing, nor does asking a queue that has nothing to hand out. -/
def effect (q : WorkQueue α) : Op α ι → Effect α
  | .add a => .signal a
  | .addAfter _ a delay => if delay = .zero then .signal a else .quiet
  | .fire a deadline => if q.deadline? a = some deadline then .signal a else .quiet
  | .get _ =>
    match q.take? with
    | some (a, _) => .handout a
    | none => .quiet
  | .release _ _ | .shutDown => .quiet

/-- Any number of operations, with their effects, newest first. -/
inductive Run (s : Custody α ι) : List (Effect α) → Custody α ι → Prop where
  | start : Run s [] s
  | next {es t op u} : Run s es t → t.act? op = some u → Run s (effect t.queue op :: es) u

structure Kept (s : Custody α ι) : Prop where
  orderly : s.queue.Orderly
  single : (s.held.map (·.2)).Nodup
  holds : ∀ a, a ∈ s.queue.processing ↔ a ∈ s.held.map (·.2)

omit [DecidableEq α] [DecidableEq ι] in
theorem kept_opened (name : String) : (opened name : Custody α ι).Kept where
  orderly := WorkQueue.orderly_new name
  single := List.nodup_nil
  holds := by simp [opened]

private theorem mem_erase_held {held : List (ι × α)} (hn : (held.map (·.2)).Nodup) {who : ι} {a x : α}
    (hm : (who, a) ∈ held) : x ∈ (held.erase (who, a)).map (·.2) ↔ x ∈ held.map (·.2) ∧ x ≠ a := by
  simp only [List.mem_map, Prod.exists, exists_eq_right]
  constructor
  · rintro ⟨w, hw⟩
    have hw' := (List.Nodup.mem_erase_iff hn.of_map).mp hw
    refine ⟨⟨w, hw'.2⟩, ?_⟩
    rintro rfl
    exact hw'.1 (List.inj_on_of_nodup_map hn hw'.2 hm rfl)
  · rintro ⟨⟨w, hw⟩, hx⟩
    exact ⟨w, (List.Nodup.mem_erase_iff hn.of_map).mpr ⟨fun he => hx (congrArg Prod.snd he), hw⟩⟩

/-- All that an operation can come to. Adds differ in the deadlines that they leave, and so does what is quiet and
neither a release nor a shut-down. -/
theorem act_cases {s t : Custody α ι} {op : Op α ι} (ht : s.act? op = some t) :
    (∃ a waiting, effect s.queue op = .signal a ∧ t = { s with queue := { s.queue with waiting }.add a }) ∨
    (∃ who a queue, effect s.queue op = .handout a ∧ s.queue.take? = some (a, queue) ∧
      t = { queue, held := (who, a) :: s.held }) ∨
    (∃ waiting, effect s.queue op = .quiet ∧ (∀ who a, op ≠ .release who a) ∧
      (∀ who, op = .get who → s.queue.take? = none) ∧ t = { s with queue := { s.queue with waiting } }) ∨
    (∃ who a, op = .release who a ∧ (who, a) ∈ s.held ∧
      t = { queue := s.queue.release a, held := s.held.erase (who, a) }) ∨
    op = .shutDown ∧ t = { s with queue := s.queue.shutDown } := by
  cases op with
  | add a => exact .inl ⟨a, s.queue.waiting, rfl, (Option.some.inj ht).symm⟩
  | addAfter now a delay =>
    obtain rfl := Option.some.inj ht
    rcases s.queue.addAfter_cases now a delay with ⟨hd, he⟩ | ⟨hd, waiting, he⟩
    · exact .inl ⟨a, s.queue.waiting, by simp [effect, hd], by rw [he]⟩
    · exact .inr (.inr (.inl ⟨waiting, by simp [effect, hd], by simp, by simp, by rw [he]⟩))
  | fire a deadline =>
    obtain rfl := Option.some.inj ht
    rcases s.queue.fire_cases a deadline with ⟨hd, waiting, he⟩ | ⟨hd, he⟩
    · exact .inl ⟨a, waiting, by simp [effect, hd], by rw [he]⟩
    · exact .inr (.inr (.inl ⟨s.queue.waiting, by simp [effect, hd], by simp, by simp, by rw [he]⟩))
  | get who =>
    simp only [act?] at ht
    split at ht
    · next a queue hq => exact .inr (.inl ⟨who, a, queue, by simp [effect, hq], hq, (Option.some.inj ht).symm⟩)
    · next hq =>
      obtain rfl := Option.some.inj ht
      exact .inr (.inr (.inl ⟨s.queue.waiting, by simp [effect, hq], by simp, fun _ _ => hq, rfl⟩))
  | release who a =>
    simp only [act?] at ht
    split at ht
    · next hm => exact .inr (.inr (.inr (.inl ⟨who, a, rfl, hm, (Option.some.inj ht).symm⟩)))
    · cases ht
  | shutDown => exact .inr (.inr (.inr (.inr ⟨rfl, (Option.some.inj ht).symm⟩)))

/-- One operation keeps the queue in order and every item in one hand. -/
theorem Kept.act {s t : Custody α ι} {op : Op α ι} (h : s.Kept) (ht : s.act? op = some t) : t.Kept := by
  rcases act_cases ht with ⟨a, waiting, _, rfl⟩ | ⟨who, a, queue, _, hq, rfl⟩ | ⟨waiting, _, _, _, rfl⟩ |
    ⟨who, a, _, hm, rfl⟩ | ⟨_, rfl⟩
  · exact ⟨(h.orderly.withWaiting waiting).add a, h.single, by simpa using h.holds⟩
  · have ha : a ∉ s.held.map (·.2) := fun hm => h.orderly.take_free hq ((h.holds a).mpr hm)
    refine ⟨h.orderly.take hq, List.nodup_cons.mpr ⟨ha, h.single⟩, fun x => ?_⟩
    rw [WorkQueue.mem_processing_take hq, h.holds x, List.map_cons, List.mem_cons]
  · exact ⟨h.orderly.withWaiting waiting, h.single, h.holds⟩
  · have ha : a ∈ s.queue.processing := (h.holds a).mpr (List.mem_map.mpr ⟨_, hm, rfl⟩)
    refine ⟨h.orderly.release ha, h.single.sublist (List.erase_sublist.map _), fun x => ?_⟩
    rw [mem_erase_held h.single hm, ← h.holds x]
    simp
  · exact ⟨h.orderly.shutDown, h.single, h.holds⟩

theorem Kept.run {s t : Custody α ι} {es : List (Effect α)} (h : s.Kept) (hr : Run s es t) : t.Kept := by
  induction hr with
  | start => exact h
  | next _ ht ih => exact ih.act ht

/-- A shut queue stays shut. -/
theorem shuttingDown_of_act {s t : Custody α ι} {op : Op α ι} (ht : s.act? op = some t)
    (hs : s.queue.shuttingDown = true) : t.queue.shuttingDown = true := by
  rcases act_cases ht with ⟨a, waiting, _, rfl⟩ | ⟨who, a, queue, _, hq, rfl⟩ | ⟨waiting, _, _, _, rfl⟩ |
    ⟨who, a, _, _, rfl⟩ | ⟨_, rfl⟩
  · simpa using hs
  · cases hs.symm.trans (WorkQueue.take?_eq_some.mp hq).1
  · exact hs
  · simpa using hs
  · rfl

/-- However a queue is used, what is ready is listed once, needs work and is held by no one; what needs
work is ready or held until the queue is shut down; and nobody is handed an item that someone holds. -/
theorem held_by_one {name : String} {es : List (Effect α)} {s : Custody α ι} (h : Run (opened name) es s) :
    s.queue.ready.Nodup ∧ (∀ a ∈ s.queue.ready, a ∈ s.queue.dirty ∧ a ∉ s.queue.processing) ∧
      (s.queue.shuttingDown = false → ∀ a ∈ s.queue.dirty, a ∈ s.queue.ready ∨ a ∈ s.queue.processing) ∧
      (∀ a, a ∈ s.queue.processing ↔ ∃ who, (who, a) ∈ s.held) ∧
      ∀ a queue, s.queue.take? = some (a, queue) → ∀ who, (who, a) ∉ s.held := by
  have hk := (kept_opened name).run h
  have hp (a : α) : a ∈ s.queue.processing ↔ ∃ who, (who, a) ∈ s.held := by simpa using hk.holds a
  refine ⟨hk.orderly.nodup, fun a ha => ⟨hk.orderly.dirty a ha, hk.orderly.free a ha⟩, hk.orderly.kept, hp, ?_⟩
  intro a queue ht who hw
  exact hk.orderly.take_free ht ((hp a).mpr ⟨who, hw⟩)

/-- An item that is added again while it is held waits for its release, whoever else asks. -/
theorem held_by_one_added_again : ∃ s : Custody Nat Nat,
    Run (opened "service") [.quiet, .handout 2, .signal 1, .handout 1, .signal 2, .signal 1] s ∧
      s.held = [(8, 2), (7, 1)] ∧ s.queue.dirty = [1] ∧ s.queue.ready.Nodup ∧
      (s.queue.shuttingDown = false → ∀ a ∈ s.queue.dirty, a ∈ s.queue.ready ∨ a ∈ s.queue.processing) := by
  have h1 := Run.start.next (show act? (opened "service" : Custody Nat Nat) (.add 1) = some _ from rfl)
  have h2 := h1.next (show act? _ (.addAfter .zero 2 .zero) = some _ from rfl)
  have h3 := h2.next (show act? _ (.get 7) = some _ from rfl)
  have h4 := h3.next (show act? _ (.add 1) = some _ from rfl)
  have h5 := h4.next (show act? _ (.get 8) = some _ from rfl)
  have h6 := h5.next (show act? _ (.get 9) = some _ from rfl)
  exact ⟨_, h6, rfl, rfl, (held_by_one h6).1, (held_by_one h6).2.2.1⟩

end Custody
end ServiceBalancer
