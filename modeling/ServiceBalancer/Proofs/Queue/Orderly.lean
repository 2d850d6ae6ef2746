import ServiceBalancer.Queue.WorkQueue
import Mathlib.Data.List.Nodup

/-! What holds of a work queue whatever is done with it. Each operation keeps the representation in
order, and says what it does to the items that need work. -/
namespace ServiceBalancer.WorkQueue
variable {α : Type}

/-- The representation of a queue. What is ready is listed once, needs work and is held by no one;
what needs work is ready or held, until the queue is shut down. -/
structure Orderly (q : WorkQueue α) : Prop where
  nodup : q.ready.Nodup
  dirty : ∀ a ∈ q.ready, a ∈ q.dirty
  free : ∀ a ∈ q.ready, a ∉ q.processing
  kept : q.shuttingDown = false → ∀ a ∈ q.dirty, a ∈ q.ready ∨ a ∈ q.processing

theorem orderly_new (name : String) : ({ name } : WorkQueue α).Orderly where
  nodup := List.nodup_nil
  dirty := by simp
  free := by simp
  kept := by simp

theorem Orderly.shutDown {q : WorkQueue α} (h : q.Orderly) : q.shutDown.Orderly where
  nodup := h.nodup
  dirty := h.dirty
  free := h.free
  kept := fun h => by cases h

/-- Dropping deadlines does not touch what is ready, dirty or held. -/
theorem Orderly.withWaiting {q : WorkQueue α} (h : q.Orderly) (waiting : List (α × Duration)) :
    { q with waiting }.Orderly where
  nodup := h.nodup
  dirty := h.dirty
  free := h.free
  kept := h.kept

variable [DecidableEq α]

/-! ### Adding -/

@[simp] theorem add_shuttingDown (q : WorkQueue α) (a : α) : (q.add a).shuttingDown = q.shuttingDown := by
  unfold add; split_ifs <;> rfl

@[simp] theorem add_processing (q : WorkQueue α) (a : α) : (q.add a).processing = q.processing := by
  unfold add; split_ifs <;> rfl

@[simp] theorem add_waiting (q : WorkQueue α) (a : α) : (q.add a).waiting = q.waiting := by
  unfold add; split_ifs <;> rfl

theorem add_dirty (q : WorkQueue α) (a : α) :
    (q.add a).dirty = if q.shuttingDown ∨ a ∈ q.dirty then q.dirty else a :: q.dirty := by
  unfold add; split_ifs <;> rfl

theorem add_ready (q : WorkQueue α) (a : α) :
    (q.add a).ready = q.ready ∨ (q.add a).ready = q.ready ++ [a] ∧ a ∉ q.dirty ∧ a ∉ q.processing := by
  unfold add
  split_ifs with hd hp
  · exact .inl rfl
  · exact .inl rfl
  · exact .inr ⟨rfl, fun h => hd (.inr h), hp⟩

/-- An add puts an item that is new to an open queue at the end of the line, and else changes nothing there. -/
theorem add_ready_eq (q : WorkQueue α) (a : α) : (q.add a).ready =
    q.ready ++ if q.shuttingDown = false ∧ a ∉ q.dirty ∧ a ∉ q.processing then [a] else [] := by
  unfold add
  split_ifs <;> grind

theorem mem_dirty_add {q : WorkQueue α} {a x : α} :
    x ∈ (q.add a).dirty ↔ x ∈ q.dirty ∨ q.shuttingDown = false ∧ x = a := by
  rw [add_dirty]
  split_ifs with h
  · refine ⟨.inl, fun hx => hx.elim id fun ⟨hs, he⟩ => ?_⟩
    rcases h with h | h
    · simp [hs] at h
    · exact he ▸ h
  · have hs : q.shuttingDown = false := by simpa using fun hs => h (.inl hs)
    simp [hs, or_comm]

theorem Orderly.add {q : WorkQueue α} (h : q.Orderly) (a : α) : (q.add a).Orderly := by
  unfold WorkQueue.add
  split_ifs with hd hp
  · exact h
  · refine ⟨h.nodup, fun x hx => .tail _ (h.dirty x hx), h.free, fun hs x hx => ?_⟩
    rcases List.mem_cons.mp hx with rfl | hx
    · exact .inr hp
    · exact h.kept hs x hx
  · have ha : a ∉ q.ready := fun hr => hd (.inr (h.dirty a hr))
    refine ⟨?_, ?_, ?_, ?_⟩
    · simpa using h.nodup.concat ha
    · intro x hx
      rcases List.mem_append.mp hx with hx | hx
      · exact .tail _ (h.dirty x hx)
      · exact List.mem_singleton.mp hx ▸ .head _
    · intro x hx
      rcases List.mem_append.mp hx with hx | hx
      · exact h.free x hx
      · exact List.mem_singleton.mp hx ▸ hp
    · intro hs x hx
      rcases List.mem_cons.mp hx with rfl | hx
      · exact .inl (by simp)
      · exact (h.kept hs x hx).imp_left (List.mem_append_left _)

/-! ### Adding later -/

/-- The queue after a delayed add; one past what the clock can show leaves it as it was. -/
def afterDelayed (q : WorkQueue α) : Delayed α → WorkQueue α
  | .settled q => q
  | .timed q _ => q
  | .overflow => q

/-- A delayed add is an add at once without a delay, and else touches deadlines only. -/
theorem addAfter_cases (q : WorkQueue α) (now : Duration) (a : α) (delay : Duration) :
    delay = .zero ∧ q.afterDelayed (q.addAfter now a delay) = q.add a ∨
      delay ≠ .zero ∧ ∃ waiting, q.afterDelayed (q.addAfter now a delay) = { q with waiting } := by
  unfold addAfter
  by_cases hz : delay = .zero
  · exact .inl ⟨hz, by simp [hz, afterDelayed]⟩
  · refine .inr ⟨hz, ?_⟩
    simp only [if_neg hz]
    split_ifs
    · exact ⟨q.waiting, rfl⟩
    · exact ⟨q.waiting, rfl⟩
    · split
      · split_ifs
        · exact ⟨q.waiting, rfl⟩
        · exact ⟨_, rfl⟩
      · exact ⟨_, rfl⟩

theorem Orderly.addAfter {q : WorkQueue α} (h : q.Orderly) (now : Duration) (a : α) (delay : Duration) :
    (q.afterDelayed (q.addAfter now a delay)).Orderly := by
  rcases q.addAfter_cases now a delay with ⟨_, he⟩ | ⟨_, waiting, he⟩
  · exact he ▸ h.add a
  · exact he ▸ h.withWaiting waiting

/-- A timer whose deadline counts adds its item; any other timer does nothing. -/
theorem fire_cases (q : WorkQueue α) (a : α) (deadline : Duration) :
    q.deadline? a = some deadline ∧ (∃ waiting, q.fire a deadline = { q with waiting }.add a) ∨
      q.deadline? a ≠ some deadline ∧ q.fire a deadline = q := by
  unfold fire
  by_cases hd : q.deadline? a = some deadline
  · exact .inl ⟨hd, _, if_pos hd⟩
  · exact .inr ⟨hd, if_neg hd⟩

theorem Orderly.fire {q : WorkQueue α} (h : q.Orderly) (a : α) (deadline : Duration) :
    (q.fire a deadline).Orderly := by
  rcases q.fire_cases a deadline with ⟨_, waiting, he⟩ | ⟨_, he⟩
  · exact he ▸ (h.withWaiting waiting).add a
  · exact he.symm ▸ h

/-! ### Handing out -/

theorem take?_eq_some {q q' : WorkQueue α} {a : α} : q.take? = some (a, q') ↔
    q.shuttingDown = false ∧ ∃ rest, q.ready = a :: rest ∧ q' = { q with
      ready := rest, dirty := q.dirty.filter (· ≠ a), processing := a :: q.processing.filter (· ≠ a) } := by
  unfold take?
  split_ifs with hs
  · simp [hs]
  · cases hr : q.ready with
    | nil => simp
    | cons x rest =>
      simp only [Option.some.injEq, Prod.mk.injEq, List.cons.injEq, Bool.not_eq_true] at hs ⊢
      constructor
      · rintro ⟨rfl, rfl⟩
        exact ⟨hs, rest, ⟨rfl, rfl⟩, rfl⟩
      · rintro ⟨_, rest, ⟨rfl, rfl⟩, rfl⟩
        exact ⟨rfl, rfl⟩

theorem Orderly.take {q q' : WorkQueue α} {a : α} (h : q.Orderly) (ht : q.take? = some (a, q')) :
    q'.Orderly := by
  obtain ⟨hs, rest, hr, rfl⟩ := take?_eq_some.mp ht
  have hn : a ∉ rest ∧ rest.Nodup := List.nodup_cons.mp (hr ▸ h.nodup)
  have hrest : ∀ x ∈ rest, x ∈ q.ready := fun x hx => hr ▸ .tail _ hx
  have hne : ∀ x ∈ rest, x ≠ a := fun x hx he => hn.1 (he ▸ hx)
  refine ⟨hn.2, ?_, ?_, ?_⟩
  · intro x hx
    exact List.mem_filter.mpr ⟨h.dirty x (hrest x hx), by simpa using hne x hx⟩
  · intro x hx hp
    rcases List.mem_cons.mp hp with he | hp
    · exact hne x hx he
    · exact h.free x (hrest x hx) (List.mem_filter.mp hp).1
  · intro _ x hx
    obtain ⟨hx, hxa⟩ := List.mem_filter.mp hx
    have hxa : x ≠ a := by simpa using hxa
    rcases h.kept hs x hx with hx | hx
    · rw [hr] at hx
      exact .inl ((List.mem_cons.mp hx).resolve_left hxa)
    · exact .inr (.tail _ (List.mem_filter.mpr ⟨hx, by simpa using hxa⟩))

/-- What is handed out was held by no one. -/
theorem Orderly.take_free {q q' : WorkQueue α} {a : α} (h : q.Orderly) (ht : q.take? = some (a, q')) :
    a ∉ q.processing := by
  obtain ⟨_, rest, hr, _⟩ := take?_eq_some.mp ht
  exact h.free a (hr ▸ .head _)

theorem mem_processing_take {q q' : WorkQueue α} {a x : α} (ht : q.take? = some (a, q')) :
    x ∈ q'.processing ↔ x = a ∨ x ∈ q.processing := by
  obtain ⟨_, rest, _, rfl⟩ := take?_eq_some.mp ht
  by_cases hx : x = a <;> simp [hx]

theorem mem_dirty_take {q q' : WorkQueue α} {a x : α} (ht : q.take? = some (a, q')) :
    x ∈ q'.dirty ↔ x ≠ a ∧ x ∈ q.dirty := by
  obtain ⟨_, rest, _, rfl⟩ := take?_eq_some.mp ht
  simp [and_comm]

/-! ### Releasing -/

@[simp] theorem release_shuttingDown (q : WorkQueue α) (a : α) :
    (q.release a).shuttingDown = q.shuttingDown := by
  unfold release; dsimp only; split_ifs <;> rfl

@[simp] theorem release_dirty (q : WorkQueue α) (a : α) : (q.release a).dirty = q.dirty := by
  unfold release; dsimp only; split_ifs <;> rfl

@[simp] theorem release_processing (q : WorkQueue α) (a : α) :
    (q.release a).processing = q.processing.filter (· ≠ a) := by
  unfold release; dsimp only; split_ifs <;> rfl

@[simp] theorem release_waiting (q : WorkQueue α) (a : α) : (q.release a).waiting = q.waiting := by
  unfold release; dsimp only; split_ifs <;> rfl

theorem release_ready (q : WorkQueue α) (a : α) :
    (q.release a).ready = if a ∈ q.dirty ∧ ¬q.shuttingDown then q.ready ++ [a] else q.ready := by
  unfold release; dsimp only; split_ifs <;> rfl

/-- A held item can be released. An item that no one holds may not: it could be listed twice. -/
theorem Orderly.release {q : WorkQueue α} {a : α} (h : q.Orderly) (ha : a ∈ q.processing) :
    (q.release a).Orderly := by
  have hr : a ∉ q.ready := fun hr => h.free a hr ha
  refine ⟨?_, ?_, ?_, ?_⟩
  · rw [release_ready]
    split_ifs
    · simpa using h.nodup.concat hr
    · exact h.nodup
  · intro x hx
    rw [release_dirty]
    rw [release_ready] at hx
    split_ifs at hx with hd
    · rcases List.mem_append.mp hx with hx | hx
      · exact h.dirty x hx
      · exact List.mem_singleton.mp hx ▸ hd.1
    · exact h.dirty x hx
  · intro x hx hp
    rw [release_processing, List.mem_filter] at hp
    have hxa : x ≠ a := by simpa using hp.2
    rw [release_ready] at hx
    split_ifs at hx
    · rcases List.mem_append.mp hx with hx | hx
      · exact h.free x hx hp.1
      · exact hxa (List.mem_singleton.mp hx)
    · exact h.free x hx hp.1
  · intro hs x hx
    rw [release_shuttingDown] at hs
    rw [release_dirty] at hx
    rw [release_ready, release_processing]
    by_cases hxa : x = a
    · subst hxa
      exact .inl (by simp [hx, hs])
    · refine (h.kept hs x hx).imp (fun hx => ?_) fun hx => List.mem_filter.mpr ⟨hx, by simpa using hxa⟩
      split_ifs
      · exact List.mem_append_left _ hx
      · exact hx

end ServiceBalancer.WorkQueue
