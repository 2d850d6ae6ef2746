import ServiceBalancer.Proofs.Queue.Orderly
import ServiceBalancer.Worker

/-! Which items a work queue has to do with, and which of them are yet to be handed out. No operation but a
hand-out of the item itself ends the demand for it, and none brings up an item of its own accord. -/
namespace ServiceBalancer
namespace WorkQueue
variable {α : Type}

def Due (q : WorkQueue α) (a : α) : Prop := a ∈ q.dirty ∨ ∃ deadline, (a, deadline) ∈ q.waiting

def Knows (q : WorkQueue α) (a : α) : Prop := q.Due a ∨ a ∈ q.processing

variable [DecidableEq α] {q q' : WorkQueue α} {a x : α} {now delay deadline : Duration}

theorem Due.add (h : q.Due x) : (q.add a).Due x := by
  rcases h with h | ⟨deadline, h⟩
  · exact .inl (mem_dirty_add.mpr (.inl h))
  · exact .inr ⟨deadline, by rwa [add_waiting]⟩

theorem due_add (ho : q.shuttingDown = false) : (q.add a).Due a := .inl (mem_dirty_add.mpr (.inr ⟨ho, rfl⟩))

theorem Knows.of_add (h : (q.add a).Knows x) : q.Knows x ∨ x = a := by
  rcases h with (h | ⟨deadline, h⟩) | h
  · rcases mem_dirty_add.mp h with h | ⟨_, h⟩
    · exact .inl (.inl (.inl h))
    · exact .inr h
  · exact .inl (.inl (.inr ⟨deadline, by rwa [add_waiting] at h⟩))
  · exact .inl (.inr (by rwa [add_processing] at h))

/-! ### Timers -/

/-- A delayed add that is not settled at once sets the deadline of its item, or leaves an earlier one. -/
theorem addAfter_waiting (q : WorkQueue α) (now : Duration) (a : α) (delay : Duration) :
    q.afterDelayed (q.addAfter now a delay) = q ∨ q.afterDelayed (q.addAfter now a delay) = q.add a ∨
      ∃ deadline, q.afterDelayed (q.addAfter now a delay) =
        { q with waiting := (a, deadline) :: q.waiting.filter (fun w => w.1 ≠ a) } := by
  unfold addAfter
  dsimp only
  split_ifs
  · exact .inr (.inl rfl)
  · exact .inl rfl
  · exact .inl rfl
  · split
    · split_ifs
      · exact .inl rfl
      · exact .inr (.inr ⟨_, rfl⟩)
    · exact .inr (.inr ⟨_, rfl⟩)

theorem Due.addAfter (h : q.Due x) : (q.afterDelayed (q.addAfter now a delay)).Due x := by
  rcases q.addAfter_waiting now a delay with he | he | ⟨deadline, he⟩
  · exact he.symm ▸ h
  · exact he.symm ▸ h.add
  · rw [he]
    rcases h with h | ⟨other, h⟩
    · exact .inl h
    · by_cases hx : x = a
      · exact .inr ⟨deadline, hx ▸ .head _⟩
      · exact .inr ⟨other, .tail _ (List.mem_filter.mpr ⟨h, by simpa using hx⟩)⟩

theorem Knows.of_addAfter (h : (q.afterDelayed (q.addAfter now a delay)).Knows x) : q.Knows x ∨ x = a := by
  rcases q.addAfter_waiting now a delay with he | he | ⟨deadline, he⟩
  · exact .inl (he ▸ h)
  · exact Knows.of_add (he ▸ h)
  · rw [he] at h
    rcases h with (h | ⟨other, h⟩) | h
    · exact .inl (.inl (.inl h))
    · rcases List.mem_cons.mp h with h | h
      · exact .inr (congrArg Prod.fst h)
      · exact .inl (.inl (.inr ⟨other, (List.mem_filter.mp h).1⟩))
    · exact .inl (.inr h)

theorem mem_waiting_of_deadline? (h : q.deadline? a = some deadline) : (a, deadline) ∈ q.waiting := by
  obtain ⟨⟨b, d⟩, hf, rfl⟩ := Option.map_eq_some_iff.mp h
  have hb : b = a := by simpa using List.find?_some hf
  exact hb ▸ List.mem_of_find?_eq_some hf

/-- A delayed add that is taken in makes its item due. -/
theorem due_addAfter (ho : q.shuttingDown = false) (hr : q.addAfter now a delay ≠ .overflow) :
    (q.afterDelayed (q.addAfter now a delay)).Due a := by
  unfold WorkQueue.addAfter at hr ⊢
  by_cases hz : delay = .zero
  · rw [if_pos hz]
    exact due_add ho
  · rw [if_neg hz] at hr ⊢
    by_cases hlimit : clockLimit ≤ (⟨now.nanos + delay.nanos⟩ : Duration)
    · exact absurd (if_pos hlimit) hr
    · rw [if_neg hlimit, if_neg (by simp [ho])]
      split
      · next earlier he =>
        split_ifs
        · exact .inr ⟨earlier, mem_waiting_of_deadline? he⟩
        · exact .inr ⟨_, .head _⟩
      · exact .inr ⟨_, .head _⟩

theorem Due.fire (ho : q.shuttingDown = false) (h : q.Due x) : (q.fire a deadline).Due x := by
  unfold WorkQueue.fire
  split_ifs
  · by_cases hx : x = a
    · exact hx ▸ due_add (q := { q with waiting := q.waiting.filter (fun w => w.1 ≠ a) }) ho
    · apply Due.add
      rcases h with h | ⟨other, h⟩
      · exact .inl h
      · exact .inr ⟨other, List.mem_filter.mpr ⟨h, by simpa using hx⟩⟩
  · exact h

theorem Knows.of_fire (h : (q.fire a deadline).Knows x) : q.Knows x := by
  unfold WorkQueue.fire at h
  split_ifs at h with hd
  · rcases h.of_add with ((h | ⟨other, h⟩) | h) | rfl
    · exact .inl (.inl h)
    · exact .inl (.inr ⟨other, (List.mem_filter.mp h).1⟩)
    · exact .inr h
    · exact .inl (.inr ⟨deadline, mem_waiting_of_deadline? hd⟩)
  · exact h

/-! ### Hand-outs and releases -/

theorem Due.take (ht : q.take? = some (a, q')) (h : q.Due x) (hx : x ≠ a) : q'.Due x := by
  rcases h with h | ⟨deadline, h⟩
  · exact .inl ((mem_dirty_take ht).mpr ⟨hx, h⟩)
  · obtain ⟨_, rest, _, rfl⟩ := take?_eq_some.mp ht
    exact .inr ⟨deadline, h⟩

theorem Orderly.knows_of_take (h : q.Orderly) (ht : q.take? = some (a, q')) : q.Knows a := by
  obtain ⟨_, rest, hr, _⟩ := take?_eq_some.mp ht
  exact .inl (.inl (h.dirty a (hr ▸ .head _)))

theorem Orderly.knows_take (hq : q.Orderly) (ht : q.take? = some (a, q')) (h : q'.Knows x) : q.Knows x := by
  rcases h with (h | ⟨deadline, h⟩) | h
  · exact .inl (.inl ((mem_dirty_take ht).mp h).2)
  · obtain ⟨_, rest, _, rfl⟩ := take?_eq_some.mp ht
    exact .inl (.inr ⟨deadline, h⟩)
  · rcases (mem_processing_take ht).mp h with rfl | h
    · exact hq.knows_of_take ht
    · exact .inr h

theorem due_release : (q.release a).Due x ↔ q.Due x := by simp [Due]

theorem Knows.of_release (h : (q.release a).Knows x) : q.Knows x := by
  rcases h with h | h
  · exact .inl (due_release.mp h)
  · rw [release_processing] at h
    exact .inr (List.mem_filter.mp h).1

/-! ### Others at work -/

/-- What others may do to a queue without taking an item or giving it back: they add any item, at once or later, fire
timers, and take and release other items. -/
inductive Bustle (a : α) (q : WorkQueue α) : WorkQueue α → Prop where
  | add (x : α) : Bustle a q (q.add x)
  | addAfter (now delay : Duration) (x : α) : Bustle a q (q.afterDelayed (q.addAfter now x delay))
  | fire (x : α) (deadline : Duration) : Bustle a q (q.fire x deadline)
  | take {x : α} {q' : WorkQueue α} : q.take? = some (x, q') → x ≠ a → Bustle a q q'
  | release {x : α} : x ∈ q.processing → x ≠ a → Bustle a q (q.release x)

theorem Bustle.orderly (h : Bustle a q q') (ho : q.Orderly) : q'.Orderly := by
  cases h with
  | add x => exact ho.add x
  | addAfter now delay x => exact ho.addAfter now x delay
  | fire x deadline => exact ho.fire x deadline
  | take ht hx => exact ho.take ht
  | release hx hne => exact ho.release hx

/-- The queue stays open, and the item stays with the one who holds it, if anyone does. -/
theorem Bustle.frame (h : Bustle a q q') :
    q'.shuttingDown = q.shuttingDown ∧ (a ∈ q'.processing ↔ a ∈ q.processing) := by
  cases h with
  | add x => simp
  | addAfter now delay x =>
    rcases q.addAfter_waiting now x delay with he | he | ⟨deadline, he⟩ <;> simp [he]
  | fire x deadline =>
    rcases q.fire_cases x deadline with ⟨_, waiting, he⟩ | ⟨_, he⟩ <;> simp [he]
  | take ht hx =>
    refine ⟨?_, by simp [mem_processing_take ht, Ne.symm hx]⟩
    obtain ⟨_, rest, _, rfl⟩ := take?_eq_some.mp ht
    rfl
  | release hx hne => simp [Ne.symm hne]

theorem Bustle.due (h : Bustle a q q') (ho : q.shuttingDown = false) (hd : q.Due a) : q'.Due a := by
  cases h with
  | add x => exact hd.add
  | addAfter now delay x => exact hd.addAfter
  | fire x deadline => exact hd.fire ho
  | take ht hx => exact hd.take ht (Ne.symm hx)
  | release hx hne => exact due_release.mpr hd

omit [DecidableEq α] in
/-- An item that is due and held by no one is ready, or waits for its timer. -/
theorem Orderly.ready_or_waiting (h : q.Orderly) (ho : q.shuttingDown = false) (hd : q.Due a) (hp : a ∉ q.processing) :
    a ∈ q.ready ∨ ∃ deadline, (a, deadline) ∈ q.waiting :=
  hd.imp_left fun hdirty => (h.kept ho a hdirty).resolve_right hp

end WorkQueue

namespace Worker
variable {α : Type} [DecidableEq α] {q : WorkQueue α} {a : α} {now : Duration}

/-- Handing an item back releases it, perhaps after a delayed add of it. -/
theorem handBack_settled {r : Option Requeue} {q' : WorkQueue α}
    (h : handBack q now a r = .settled q' ∨ ∃ deadline, handBack q now a r = .timed q' deadline) :
    ∃ added : WorkQueue α, q' = added.release a ∧
      (added = q ∨ ∃ delay, added = q.afterDelayed (q.addAfter now a delay)) := by
  cases r with
  | none =>
    rcases h with h | ⟨_, h⟩
    · exact ⟨q, (WorkQueue.Delayed.settled.inj h).symm, .inl rfl⟩
    · cases h
  | some r =>
    simp only [handBack] at h
    split at h
    · next added he =>
      rcases h with h | ⟨_, h⟩
      · exact ⟨added, (WorkQueue.Delayed.settled.inj h).symm, .inr ⟨r.delay, by rw [he]; rfl⟩⟩
      · cases h
    · next added deadline he =>
      rcases h with h | ⟨_, h⟩
      · cases h
      · exact ⟨added, (WorkQueue.Delayed.timed.inj h).1.symm, .inr ⟨r.delay, by rw [he]; rfl⟩⟩
    · rcases h with h | ⟨_, h⟩ <;> cases h

/-- An item that is put back is due. -/
theorem due_handBack {r : Requeue} {q' : WorkQueue α} (ho : q.shuttingDown = false)
    (h : handBack q now a (some r) = .settled q' ∨ ∃ deadline, handBack q now a (some r) = .timed q' deadline) :
    q'.Due a := by
  have hadd : q.addAfter now a r.delay ≠ .overflow → (q.afterDelayed (q.addAfter now a r.delay)).Due a :=
    WorkQueue.due_addAfter ho
  simp only [handBack] at h
  split at h
  · next added he =>
    rw [he] at hadd
    rcases h with h | ⟨_, h⟩
    · exact WorkQueue.Delayed.settled.inj h ▸ WorkQueue.due_release.mpr (hadd (by simp))
    · cases h
  · next added deadline he =>
    rw [he] at hadd
    rcases h with h | ⟨_, h⟩
    · cases h
    · exact (WorkQueue.Delayed.timed.inj h).1 ▸ WorkQueue.due_release.mpr (hadd (by simp))
  · rcases h with h | ⟨_, h⟩ <;> cases h

/-- A worker puts a key back unless its sync went well. -/
theorem requeue?_isSome (errorDelay clock : Duration) (b : Backoff) {outcome : SyncOutcome}
    (h : outcome ≠ some (.ok ())) : ∃ r, (requeue? errorDelay clock b outcome).1 = some r := by
  rcases outcome with _ | e | ⟨⟩
  · exact ⟨_, rfl⟩
  · simp only [requeue?]
    split <;> exact ⟨_, rfl⟩
  · exact absurd rfl h

end Worker
end ServiceBalancer
