import ServiceBalancer.Proofs.Queue.Custody
import Mathlib.Data.List.Count

/-! Signals of a work queue in use. An item needs work exactly if it was added since it was handed out
last, so no signal is lost, and however many come before a hand-out, they cause that one only. -/
namespace ServiceBalancer.Custody
variable {α ι : Type}

/-- Whether an item was added since it was handed out last. Effects come newest first. -/
def Signalled (k : α) (es : List (Effect α)) : Prop :=
  ∃ later earlier, es = later ++ .signal k :: earlier ∧ .handout k ∉ later

theorem not_signalled_nil (k : α) : ¬Signalled k [] := by
  rintro ⟨later, earlier, he, _⟩
  simp at he

theorem signalled_cons {k : α} {e : Effect α} {es : List (Effect α)} :
    Signalled k (e :: es) ↔ e = .signal k ∨ e ≠ .handout k ∧ Signalled k es := by
  constructor
  · rintro ⟨later, earlier, he, hl⟩
    cases later with
    | nil => exact .inl (List.cons.inj he).1
    | cons x later =>
      obtain ⟨rfl, rfl⟩ := List.cons.inj he
      exact .inr ⟨fun hx => hl (hx ▸ .head _), later, earlier, rfl, fun hm => hl (.tail _ hm)⟩
  · rintro (rfl | ⟨he, later, earlier, rfl, hl⟩)
    · exact ⟨[], es, rfl, by simp⟩
    · exact ⟨e :: later, earlier, rfl, fun hm => (List.mem_cons.mp hm).elim (fun h => he h.symm) hl⟩

variable [DecidableEq α] [DecidableEq ι] {s t u : Custody α ι} {op : Op α ι} {es later earlier : List (Effect α)}
  {k : α}

/-! ### One operation -/

/-- While the queue is open, an item comes to need work by a signal and ceases to by a hand-out. -/
theorem mem_dirty_act (ht : s.act? op = some t) (ho : t.queue.shuttingDown = false) : k ∈ t.queue.dirty ↔
    effect s.queue op = .signal k ∨ effect s.queue op ≠ .handout k ∧ k ∈ s.queue.dirty := by
  rcases act_cases ht with ⟨a, waiting, he, rfl⟩ | ⟨who, a, queue, he, hq, rfl⟩ | ⟨waiting, he, _, _, rfl⟩ |
    ⟨who, a, rfl, _, rfl⟩ | ⟨_, rfl⟩
  · have ho : s.queue.shuttingDown = false := by simpa using ho
    simp only [he, WorkQueue.mem_dirty_add, ho, Effect.signal.injEq]
    grind
  · simp only [he, WorkQueue.mem_dirty_take hq]
    grind
  · simp [he]
  · simp [effect]
  · cases ho

omit [DecidableEq ι] in
/-- Asking for an item adds none. -/
theorem not_get_of_signal {q : WorkQueue α} {a : α} (he : effect q op = .signal a) (who : ι) : op ≠ .get who := by
  rintro rfl
  simp only [effect] at he
  split at he <;> cases he

/-- A hand-out takes the first item that is ready. Any other operation adds to the end of the line, if
to anything; asking does nothing only if nothing is ready. -/
theorem ready_act (ht : s.act? op = some t) (ho : t.queue.shuttingDown = false) :
    (∃ a, effect s.queue op = .handout a ∧ s.queue.ready = a :: t.queue.ready) ∨
      (∀ a, effect s.queue op ≠ .handout a) ∧ (∃ fresh, t.queue.ready = s.queue.ready ++ fresh) ∧
        ∀ who, op = .get who → s.queue.ready = [] := by
  rcases act_cases ht with ⟨a, waiting, he, rfl⟩ | ⟨who, a, queue, he, hq, rfl⟩ | ⟨waiting, he, _, hg, rfl⟩ |
    ⟨who, a, rfl, _, rfl⟩ | ⟨_, rfl⟩
  · refine .inr ⟨by simp [he], ?_, fun who hw => absurd hw (not_get_of_signal he who)⟩
    rcases ({ s.queue with waiting } : WorkQueue α).add_ready a with hr | ⟨hr, _⟩
    · exact ⟨[], by simpa using hr⟩
    · exact ⟨[a], hr⟩
  · obtain ⟨_, rest, hr, rfl⟩ := WorkQueue.take?_eq_some.mp hq
    exact .inl ⟨a, he, hr⟩
  · refine .inr ⟨by simp [he], ⟨[], by simp⟩, fun who hw => ?_⟩
    have hopen : s.queue.shuttingDown = false := ho
    have hnone := hg who hw
    cases hr : s.queue.ready with
    | nil => rfl
    | cons a rest => simp [WorkQueue.take?, hopen, hr] at hnone
  · refine .inr ⟨by simp [effect], ?_, by simp⟩
    rw [WorkQueue.release_ready]
    split_ifs
    · exact ⟨[a], rfl⟩
    · exact ⟨[], by simp⟩
  · cases ho

omit [DecidableEq ι] in
/-- Only what needs work is handed out. -/
theorem Kept.mem_dirty_of_handout (h : s.Kept) (he : effect s.queue op = .handout k) : k ∈ s.queue.dirty := by
  cases op with
  | get who =>
    simp only [effect] at he
    split at he
    · next a queue hq =>
      obtain rfl := Effect.handout.inj he
      obtain ⟨_, rest, hr, _⟩ := WorkQueue.take?_eq_some.mp hq
      exact h.orderly.dirty a (hr ▸ .head _)
    · cases he
  | addAfter now a delay => simp only [effect] at he; split_ifs at he
  | fire a deadline => simp only [effect] at he; split_ifs at he
  | add a => cases he
  | release who a => cases he
  | shutDown => cases he

omit [DecidableEq α] [DecidableEq ι] in
/-- In an open queue, what is neither listed nor held needs no work. -/
theorem Kept.not_mem_dirty (h : s.Kept) (ho : s.queue.shuttingDown = false) (hr : s.AtRest k) :
    k ∉ s.queue.dirty := by
  intro hd
  rcases h.orderly.kept ho k hd with hk | hk
  · exact hr.1 hk
  · obtain ⟨⟨who, a⟩, hm, rfl⟩ := List.mem_map.mp ((h.holds k).mp hk)
    exact hr.2 who hm

/-! ### Runs -/

theorem open_of_act (ht : s.act? op = some t) (ho : t.queue.shuttingDown = false) :
    s.queue.shuttingDown = false := by
  by_contra hs
  simp [shuttingDown_of_act ht (by simpa using hs)] at ho

theorem Run.open_start (h : Run s es t) (ho : t.queue.shuttingDown = false) : s.queue.shuttingDown = false := by
  induction h with
  | start => exact ho
  | next _ ht ih => exact ih (open_of_act ht ho)

/-- A run stops on the way after any of its operations. -/
theorem Run.stop (h : Run s (later ++ earlier) u) : ∃ t, Run s earlier t ∧ Run t later u := by
  induction later generalizing u with
  | nil => exact ⟨u, h, .start⟩
  | cons e later ih =>
    generalize hes : e :: later ++ earlier = es at h
    cases h with
    | start => cases hes
    | next hr ht =>
      obtain ⟨rfl, rfl⟩ := List.cons.inj hes
      obtain ⟨t, he, hl⟩ := ih hr
      exact ⟨t, he, hl.next ht⟩

/-- While the queue is open, an item needs work exactly if it was added since its last hand-out. -/
theorem mem_dirty_iff {name : String} (h : Run (opened name) es s) (ho : s.queue.shuttingDown = false) :
    k ∈ s.queue.dirty ↔ Signalled k es := by
  induction h with
  | start => simp [opened, not_signalled_nil]
  | next _ ht ih => rw [mem_dirty_act ht ho, signalled_cons, ih (open_of_act ht ho)]

/-- Without a signal an item is handed out once if it needs work, and then no more. -/
theorem Kept.count_handout (hk : s.Kept) (h : Run s es t) (ho : t.queue.shuttingDown = false)
    (hn : .signal k ∉ es) : es.count (.handout k) + (if k ∈ t.queue.dirty then 1 else 0) =
      if k ∈ s.queue.dirty then 1 else 0 := by
  induction h with
  | start => simp
  | @next es t op u hr ht ih =>
    have hs : effect t.queue op ≠ .signal k := fun he => hn (he ▸ .head _)
    rw [← ih (open_of_act ht ho) fun hm => hn (.tail _ hm), List.count_cons]
    by_cases he : effect t.queue op = .handout k
    · have hd := (hk.run hr).mem_dirty_of_handout he
      have hu : k ∉ u.queue.dirty := by simp [mem_dirty_act ht ho, he]
      simp [he, hd, hu]
    · have hu : k ∈ u.queue.dirty ↔ k ∈ t.queue.dirty := by simp [mem_dirty_act ht ho, he, hs]
      simp [he, hu]

/-! ### Runs without end -/

/-- A run that goes on for ever, the queue never being shut down. -/
structure EndlessRun (α ι : Type) [DecidableEq α] [DecidableEq ι] where
  name : String
  state : Nat → Custody α ι
  op : Nat → Op α ι
  start : state 0 = opened name
  step : ∀ n, (state n).act? (op n) = some (state (n + 1))
  isOpen : ∀ n, (state n).queue.shuttingDown = false

namespace EndlessRun
variable (r : EndlessRun α ι)

/-- What the operation at a time means for the items. -/
def effectAt (n : Nat) : Effect α := effect (r.state n).queue (r.op n)

/-- Someone asks for an item again and again, and whoever holds the item `k` releases it some time. -/
structure Fair (k : α) : Prop where
  asks : ∀ n, ∃ m, n ≤ m ∧ ∃ who, r.op m = .get who
  releases : ∀ n who, (who, k) ∈ (r.state n).held → ∃ m, n ≤ m ∧ ∃ who, r.op m = .release who k

theorem kept (n : Nat) : (r.state n).Kept := by
  induction n with
  | zero => exact r.start ▸ kept_opened r.name
  | succ n ih => exact ih.act (r.step n)

/-- What each step keeps that does not hand an item out lasts until one does. -/
theorem until_handout {p : Nat → Prop} (hstep : ∀ m, p m → r.effectAt m = .handout k ∨ p (m + 1)) {n : Nat}
    (hp : p n) {m : Nat} (hm : n ≤ m) : (∃ j, n ≤ j ∧ j < m ∧ r.effectAt j = .handout k) ∨ p m := by
  induction hm with
  | refl => exact .inr hp
  | @step m hm ih =>
    have hm : n ≤ m := hm
    rcases ih with ⟨j, hj, hjm, he⟩ | hp
    · exact .inl ⟨j, hj, by omega, he⟩
    · rcases hstep m hp with he | hp
      · exact .inl ⟨m, hm, by omega, he⟩
      · exact .inr hp

/-- What needs work needs it until it is handed out. -/
theorem dirty_succ {n : Nat} (hd : k ∈ (r.state n).queue.dirty) :
    r.effectAt n = .handout k ∨ k ∈ (r.state (n + 1)).queue.dirty := by
  by_cases he : r.effectAt n = .handout k
  · exact .inl he
  · exact .inr ((mem_dirty_act (r.step n) (r.isOpen _)).mpr (.inr ⟨he, hd⟩))

def Within (n : Nat) (k : α) (i : Nat) : Prop :=
  ∃ before after, (r.state n).queue.ready = before ++ k :: after ∧ before.length ≤ i

/-- The line in front of an item never grows, and a hand-out shortens it. -/
theorem within_succ {n i : Nat} (h : r.Within n k i) : r.effectAt n = .handout k ∨
    r.Within (n + 1) k i ∧ ∀ who, r.op n = .get who → 0 < i ∧ r.Within (n + 1) k (i - 1) := by
  obtain ⟨before, after, hr, hi⟩ := h
  rcases ready_act (r.step n) (r.isOpen _) with ⟨a, he, ha⟩ | ⟨_, ⟨fresh, hf⟩, hg⟩
  · cases before with
    | nil =>
      rw [hr] at ha
      exact .inl ((List.cons.inj ha).1 ▸ he)
    | cons b before =>
      rw [hr] at ha
      have hrest : (r.state (n + 1)).queue.ready = before ++ k :: after := (List.cons.inj ha).2.symm
      simp only [List.length_cons] at hi
      exact .inr ⟨⟨before, after, hrest, by omega⟩, fun _ _ => ⟨by omega, before, after, hrest, by omega⟩⟩
  · refine .inr ⟨⟨before, after ++ fresh, by rw [hf, hr]; simp, hi⟩, fun who hw => ?_⟩
    rw [hg who hw] at hr
    simp at hr

/-- What is ready is handed out some time: each asking brings it forward. -/
theorem handout_of_within (hf : r.Fair k) {i n : Nat} (h : r.Within n k i) :
    ∃ m, n ≤ m ∧ r.effectAt m = .handout k := by
  -- The measure is the place in line, which the next asking makes smaller.
  induction i using Nat.strongRecOn generalizing n with
  | _ i ih =>
    obtain ⟨m, hm, who, hw⟩ := hf.asks n
    have hkept : ∀ m, r.Within m k i → r.effectAt m = .handout k ∨ r.Within (m + 1) k i :=
      fun m h => (r.within_succ h).imp_right And.left
    rcases r.until_handout hkept h hm with ⟨j, hj, _, he⟩ | h
    · exact ⟨j, hj, he⟩
    · rcases r.within_succ h with he | ⟨_, hg⟩
      · exact ⟨m, hm, he⟩
      · obtain ⟨hi, hnext⟩ := hg who hw
        obtain ⟨j, hj, he⟩ := ih (i - 1) (by omega) hnext
        exact ⟨j, by omega, he⟩

theorem within_of_mem {n : Nat} (h : k ∈ (r.state n).queue.ready) : ∃ i, r.Within n k i := by
  obtain ⟨before, after, hr⟩ := List.append_of_mem h
  exact ⟨before.length, before, after, hr, Nat.le_refl _⟩

/-- What needs work is handed out some time. If it is held, its release lists it. -/
theorem handout_of_dirty (hf : r.Fair k) {n : Nat} (hd : k ∈ (r.state n).queue.dirty) :
    ∃ m, n ≤ m ∧ r.effectAt m = .handout k := by
  rcases (r.kept n).orderly.kept (r.isOpen n) k hd with hk | hk
  · obtain ⟨i, hw⟩ := r.within_of_mem hk
    exact r.handout_of_within hf hw
  · obtain ⟨⟨who, a⟩, hm, rfl⟩ := List.mem_map.mp (((r.kept n).holds k).mp hk)
    obtain ⟨m, hm, who, hw⟩ := hf.releases n who hm
    rcases r.until_handout (fun _ => r.dirty_succ) hd hm with ⟨j, hj, _, he⟩ | hd
    · exact ⟨j, hj, he⟩
    · have hs := r.step m
      simp only [hw, act?] at hs
      split at hs
      · have hr : a ∈ (r.state (m + 1)).queue.ready := by
          rw [← Option.some.inj hs, WorkQueue.release_ready, if_pos ⟨hd, by simp [r.isOpen]⟩]
          simp
        obtain ⟨i, hw⟩ := r.within_of_mem hr
        obtain ⟨j, hj, he⟩ := r.handout_of_within hf hw
        exact ⟨j, by omega, he⟩
      · cases hs

end EndlessRun

/-- No signal is lost or doubled. In an open queue an item that was added needs work until it is handed
out; it is handed out only if it was added since the last time, and any number of adds makes for one
hand-out, which has happened when the item is at rest. If workers go on asking and releasing, every add
is followed by a hand-out. -/
theorem one_handout_for_signals (name : String) (k : α) :
    (∀ es (s : Custody α ι), Run (opened name) es s → s.queue.shuttingDown = false →
      (k ∈ s.queue.dirty ↔ Signalled k es) ∧
      (∀ later earlier, es = later ++ .handout k :: earlier → Signalled k earlier) ∧
      (∀ later earlier, es = later ++ .signal k :: earlier → s.AtRest k → .handout k ∈ later) ∧
      ∀ later earlier, es = later ++ earlier → .signal k ∉ later →
        (¬Signalled k earlier → later.count (.handout k) = 0) ∧
        (Signalled k earlier → later.count (.handout k) ≤ 1 ∧ (s.AtRest k → later.count (.handout k) = 1))) ∧
    ∀ r : EndlessRun α ι, r.name = name → r.Fair k → ∀ n, r.effectAt n = .signal k →
      ∃ m, n < m ∧ r.effectAt m = .handout k := by
  refine ⟨fun es s h ho => ⟨mem_dirty_iff h ho, ?_, ?_, ?_⟩, ?_⟩
  · rintro later earlier rfl
    obtain ⟨u, hu, hl⟩ := h.stop
    generalize hes : Effect.handout k :: earlier = es at hu
    cases hu with
    | start => cases hes
    | next hr ht =>
      obtain ⟨he, rfl⟩ := List.cons.inj hes
      have hd := ((kept_opened name).run hr).mem_dirty_of_handout he.symm
      exact (mem_dirty_iff hr (open_of_act ht (hl.open_start ho))).mp hd
  · rintro later earlier rfl hr
    by_contra hl
    have hd := (mem_dirty_iff h ho).mpr ⟨later, earlier, rfl, hl⟩
    exact ((kept_opened name).run h).not_mem_dirty ho hr hd
  · rintro later earlier rfl hn
    obtain ⟨t, ht, hl⟩ := h.stop
    have hk := (kept_opened name).run ht
    have hc := hk.count_handout hl ho hn
    rw [← mem_dirty_iff ht (hl.open_start ho)]
    refine ⟨fun hd => ?_, fun hd => ⟨?_, fun hr => ?_⟩⟩
    · rw [if_neg hd] at hc
      omega
    · rw [if_pos hd] at hc
      omega
    · have hs := (hk.run hl).not_mem_dirty ho hr
      rwa [if_pos hd, if_neg hs] at hc
  · rintro r _ hf n he
    have hd := (mem_dirty_act (r.step n) (r.isOpen _)).mpr (.inl he)
    obtain ⟨m, hm, he⟩ := r.handout_of_dirty hf hd
    exact ⟨m, by omega, he⟩

/-- A worker that takes an item as soon as it is added and releases it, round after round. -/
def EndlessRun.rounds : EndlessRun Nat Nat where
  name := "services"
  state n :=
    match n % 3 with
    | 0 => opened "services"
    | 1 => { queue := { name := "services", ready := [0], dirty := [0] } }
    | _ => { queue := { name := "services", processing := [0] }, held := [(0, 0)] }
  op n :=
    match n % 3 with
    | 0 => .add 0
    | 1 => .get 0
    | _ => .release 0 0
  start := rfl
  step n := by
    have hn : n % 3 = 0 ∧ (n + 1) % 3 = 1 ∨ n % 3 = 1 ∧ (n + 1) % 3 = 2 ∨ n % 3 = 2 ∧ (n + 1) % 3 = 0 := by omega
    rcases hn with ⟨h, h'⟩ | ⟨h, h'⟩ | ⟨h, h'⟩ <;> rw [h, h'] <;> rfl
  isOpen n := by split <;> rfl

theorem EndlessRun.fair_rounds : rounds.Fair 0 where
  asks n := by
    have h : (3 * n + 1) % 3 = 1 := by omega
    exact ⟨3 * n + 1, by omega, 0, by simp [rounds, h]⟩
  releases n _ _ := by
    have h : (3 * n + 2) % 3 = 2 := by omega
    exact ⟨3 * n + 2, by omega, 0, by simp [rounds, h]⟩

/-- What was added twice while it was held is handed out once more; and an endless run hands out what is added. -/
theorem handout_in_rounds :
    (∃ later earlier, later = [.quiet, .handout 0, .quiet] ∧ earlier = [.signal 0, .signal 0, .handout 0, .signal 0] ∧
      ∃ s : Custody Nat Nat, Run (opened "services") (later ++ earlier) s ∧ s.queue.shuttingDown = false ∧
        (0 ∈ s.queue.dirty ↔ Signalled 0 (later ++ earlier)) ∧ Signalled 0 earlier ∧ s.AtRest 0 ∧
        later.count (.handout 0) = 1) ∧
    EndlessRun.rounds.Fair 0 ∧ EndlessRun.rounds.effectAt 3 = .signal 0 ∧
    ∃ m, 3 < m ∧ EndlessRun.rounds.effectAt m = .handout 0 := by
  refine ⟨⟨_, _, rfl, rfl, opened "services", ?_⟩, EndlessRun.fair_rounds, rfl,
    (one_handout_for_signals "services" 0).2 EndlessRun.rounds rfl EndlessRun.fair_rounds 3 rfl⟩
  have h1 := Run.start.next (show act? (opened "services" : Custody Nat Nat) (.add 0) = some _ from rfl)
  have h2 := h1.next (show act? _ (.get 0) = some _ from rfl)
  have h3 := h2.next (show act? _ (.add 0) = some _ from rfl)
  have h4 := h3.next (show act? _ (.add 0) = some _ from rfl)
  have h5 := h4.next (show act? _ (.release 0 0) = some _ from rfl)
  have h6 := h5.next (show act? _ (.get 1) = some _ from rfl)
  have h7 := h6.next (show act? _ (.release 1 0) = some _ from rfl)
  have hs : Signalled (0 : Nat) [.signal 0, .signal 0, .handout 0, .signal 0] := ⟨[], _, rfl, List.not_mem_nil⟩
  have hrest : (opened "services" : Custody Nat Nat).AtRest 0 := ⟨by simp [opened], by simp [opened]⟩
  obtain ⟨hdirty, -, -, hcount⟩ := (one_handout_for_signals "services" 0).1 _ _ h7 rfl
  exact ⟨h7, rfl, hdirty, hs, hrest, ((hcount [.quiet, .handout 0, .quiet] _ rfl (by decide)).2 hs).2 hrest⟩

end ServiceBalancer.Custody
