import ServiceBalancer.Proofs.Queue.Demand
import ServiceBalancer.Proofs.Queue.Signals

/-! When an item of a work queue is due at the latest. A deadline that counts is never put off: a delayed add leaves an
earlier one, its timer makes the item need work, and nothing but a hand-out of the item itself ends that. -/
namespace ServiceBalancer
namespace WorkQueue
variable {α : Type} [DecidableEq α] {q q' : WorkQueue α} {a x : α} {now delay deadline latest : Duration}

def DueBy (q : WorkQueue α) (a : α) (latest : Duration) : Prop :=
  a ∈ q.dirty ∨ ∃ deadline, q.deadline? a = some deadline ∧ deadline ≤ latest

/-! ### Deadlines -/

private theorem find?_others (waiting : List (α × Duration)) (hx : x ≠ a) :
    (waiting.filter (fun w => w.1 ≠ a)).find? (fun w => w.1 = x) = waiting.find? (fun w => w.1 = x) := by
  rw [List.find?_filter]
  congr 1
  funext w
  grind

theorem deadline?_set (q : WorkQueue α) (a x : α) (deadline : Duration) :
    { q with waiting := (a, deadline) :: q.waiting.filter (fun w => w.1 ≠ a) }.deadline? x =
      if x = a then some deadline else q.deadline? x := by
  by_cases hx : x = a
  · simp [deadline?, hx]
  · have hne : decide (a = x) = false := decide_eq_false (Ne.symm hx)
    simp only [deadline?, List.find?_cons, hne, find?_others q.waiting hx, if_neg hx]

theorem deadline?_clear (q : WorkQueue α) (hx : x ≠ a) :
    { q with waiting := q.waiting.filter (fun w => w.1 ≠ a) }.deadline? x = q.deadline? x := by
  simp only [deadline?, find?_others q.waiting hx]

@[simp] theorem add_deadline? (q : WorkQueue α) (a x : α) : (q.add a).deadline? x = q.deadline? x := by
  rw [deadline?, deadline?, add_waiting]

@[simp] theorem release_deadline? (q : WorkQueue α) (a x : α) : (q.release a).deadline? x = q.deadline? x := by
  rw [deadline?, deadline?, release_waiting]

/-- A delayed add that takes time sets a deadline only where there is none or a later one. -/
theorem addAfter_deadline? (q : WorkQueue α) (now : Duration) (a : α) (hdelay : delay ≠ .zero) :
    q.afterDelayed (q.addAfter now a delay) = q ∨ q.afterDelayed (q.addAfter now a delay) =
      { q with waiting := (a, ⟨now.nanos + delay.nanos⟩) :: q.waiting.filter (fun w => w.1 ≠ a) } ∧
      ∀ earlier, q.deadline? a = some earlier → now.nanos + delay.nanos < earlier.nanos := by
  unfold addAfter
  rw [if_neg hdelay]
  dsimp only
  split_ifs
  · exact .inl rfl
  · exact .inl rfl
  · split
    · next earlier he =>
      split_ifs with hle
      · exact .inl rfl
      · refine .inr ⟨rfl, fun earlier' he' => ?_⟩
        obtain rfl := Option.some.inj (he.symm.trans he')
        exact Nat.lt_of_not_le hle
    · next he => exact .inr ⟨rfl, fun earlier' he' => by cases he.symm.trans he'⟩

/-- A delayed add leaves every deadline that is not later than its own. -/
theorem addAfter_keeps_deadline (h : q.deadline? x = some deadline)
    (hle : x = a → deadline.nanos ≤ now.nanos + delay.nanos) :
    (q.afterDelayed (q.addAfter now a delay)).deadline? x = some deadline := by
  rcases q.addAfter_cases now a delay with ⟨_, he⟩ | ⟨hdelay, _⟩
  · rw [he, add_deadline?, h]
  · rcases q.addAfter_deadline? now a hdelay with he | ⟨he, hlater⟩
    · rw [he, h]
    · have hx : x ≠ a := by
        rintro rfl
        have hlt := hlater deadline h
        have hge := hle rfl
        omega
      rw [he, deadline?_set, if_neg hx, h]

/-! ### What is due -/

theorem dueBy_of_deadline (h : q.deadline? x = some deadline) : q.DueBy x deadline := .inr ⟨deadline, h, Nat.le_refl _⟩

theorem DueBy.add (h : q.DueBy x latest) : (q.add a).DueBy x latest := by
  rcases h with h | ⟨deadline, hd, hl⟩
  · exact .inl (mem_dirty_add.mpr (.inl h))
  · exact .inr ⟨deadline, by rw [add_deadline?, hd], hl⟩

theorem DueBy.addAfter (h : q.DueBy x latest) : (q.afterDelayed (q.addAfter now a delay)).DueBy x latest := by
  by_cases hdelay : delay = .zero
  · rcases q.addAfter_cases now a delay with ⟨_, he⟩ | ⟨hne, _⟩
    · exact he ▸ h.add
    · exact absurd hdelay hne
  · rcases q.addAfter_deadline? now a hdelay with he | ⟨he, hlater⟩
    · rwa [he]
    · rw [he]
      rcases h with h | ⟨deadline, hd, hl⟩
      · exact .inl h
      · refine .inr ?_
        rw [deadline?_set]
        split_ifs with hx
        · have hlt := hlater deadline (hx ▸ hd)
          exact ⟨_, rfl, Nat.le_trans (Nat.le_of_lt hlt) hl⟩
        · exact ⟨deadline, hd, hl⟩

/-- A delayed add that is taken in makes its item due in time. -/
theorem dueBy_addAfter (ho : q.shuttingDown = false) (hr : q.addAfter now a delay ≠ .overflow) :
    (q.afterDelayed (q.addAfter now a delay)).DueBy a ⟨now.nanos + delay.nanos⟩ := by
  unfold WorkQueue.addAfter at hr ⊢
  by_cases hdelay : delay = .zero
  · rw [if_pos hdelay]
    exact .inl (mem_dirty_add.mpr (.inr ⟨ho, rfl⟩))
  · rw [if_neg hdelay] at hr ⊢
    by_cases hlimit : clockLimit ≤ (⟨now.nanos + delay.nanos⟩ : Duration)
    · exact absurd (if_pos hlimit) hr
    · rw [if_neg hlimit, if_neg (by simp [ho])]
      split
      · next earlier he =>
        split_ifs with hle
        · exact .inr ⟨earlier, he, hle⟩
        · exact .inr ⟨_, (deadline?_set q a a _).trans (if_pos rfl), Nat.le_refl _⟩
      · exact .inr ⟨_, (deadline?_set q a a _).trans (if_pos rfl), Nat.le_refl _⟩

/-- A timer of the item itself makes it need work at once. -/
theorem DueBy.fire (ho : q.shuttingDown = false) (h : q.DueBy x latest) : (q.fire a deadline).DueBy x latest := by
  unfold WorkQueue.fire
  split_ifs
  · by_cases hx : x = a
    · exact .inl (mem_dirty_add.mpr (.inr ⟨ho, hx⟩))
    · apply DueBy.add
      rcases h with h | ⟨earliest, hd, hl⟩
      · exact .inl h
      · exact .inr ⟨earliest, (deadline?_clear q hx).trans hd, hl⟩
  · exact h

theorem DueBy.take (ht : q.take? = some (a, q')) (h : q.DueBy x latest) (hx : x ≠ a) : q'.DueBy x latest := by
  rcases h with h | ⟨deadline, hd, hl⟩
  · exact .inl ((mem_dirty_take ht).mpr ⟨hx, h⟩)
  · obtain ⟨_, rest, _, rfl⟩ := take?_eq_some.mp ht
    exact .inr ⟨deadline, hd, hl⟩

theorem dueBy_release : (q.release a).DueBy x latest ↔ q.DueBy x latest := by simp [DueBy]

end WorkQueue

namespace Custody
variable {α ι : Type} [DecidableEq α] [DecidableEq ι] {s t u : Custody α ι} {op : Op α ι} {es later : List (Effect α)}
  {k : α} {latest : Duration}

/-- One operation on an open queue puts nothing off, unless it hands the item out. -/
theorem dueBy_act (ht : s.act? op = some t) (ho : t.queue.shuttingDown = false) (he : effect s.queue op ≠ .handout k)
    (h : s.queue.DueBy k latest) : t.queue.DueBy k latest := by
  have hopen := open_of_act ht ho
  cases op with
  | add a =>
    obtain rfl := Option.some.inj ht
    exact h.add
  | addAfter now a delay =>
    obtain rfl := Option.some.inj ht
    exact h.addAfter
  | fire a deadline =>
    obtain rfl := Option.some.inj ht
    exact h.fire hopen
  | get who =>
    simp only [act?] at ht
    split at ht
    · next a queue hq =>
      obtain rfl := Option.some.inj ht
      have hk : k ≠ a := by
        rintro rfl
        exact he (by simp [effect, hq])
      exact h.take hq hk
    · obtain rfl := Option.some.inj ht
      exact h
  | release who a =>
    simp only [act?] at ht
    split at ht
    · obtain rfl := Option.some.inj ht
      exact WorkQueue.dueBy_release.mpr h
    · cases ht
  | shutDown =>
    obtain rfl := Option.some.inj ht
    simp [WorkQueue.shutDown] at ho

theorem dueBy_run (hr : Run s es t) (ho : t.queue.shuttingDown = false) (hn : .handout k ∉ es)
    (h : s.queue.DueBy k latest) : t.queue.DueBy k latest := by
  induction hr with
  | start => exact h
  | next _ ht ih =>
    exact dueBy_act ht ho (fun he => hn (he ▸ .head _)) (ih (open_of_act ht ho) fun hm => hn (.tail _ hm))

/-- A run goes on where another has stopped. -/
theorem Run.trans (h : Run s es t) (h' : Run t later u) : Run s (later ++ es) u := by
  induction h' with
  | start => exact h
  | next _ ht ih => exact ih.next ht

end Custody
end ServiceBalancer
