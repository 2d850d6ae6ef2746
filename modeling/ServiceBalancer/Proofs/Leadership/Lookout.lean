import ServiceBalancer.Leadership.LossWatch

/-! A watcher at the channel on which leadership is published. When it is polled it sees the latest value, and nothing
of what was published in between. It counts what it has seen itself, and not what was seen for it before. -/
namespace ServiceBalancer.LossWatch
open List

inductive Event where
  | publish (leading : Bool)
  /-- Nothing is published any more. -/
  | close
  | poll
  deriving DecidableEq

structure Lookout where
  latest : Bool
  closed : Bool := false
  /-- Whether there is something to look at: the watcher has not looked yet, or something was published since. -/
  news : Bool := true
  watch : LossWatch := {}
  /-- Whether the watcher has noticed a loss. It does nothing from then on. -/
  noticed : Bool := false

namespace Lookout

/-- A watcher that has yet to look, while the latest value is known to whoever sent it. -/
def start (leading : Bool) : Lookout := { latest := leading }

def after (l : Lookout) : Event → Lookout
  | .publish leading => { l with latest := leading, news := true }
  | .close => { l with closed := true }
  | .poll =>
    if l.noticed || !(l.news || l.closed) then l
    else { l with
      news := false
      noticed := (l.watch.poll l.latest l.closed).1
      watch := (l.watch.poll l.latest l.closed).2 }

def afterAll (l : Lookout) (events : List Event) : Lookout := events.foldl after l

end Lookout

/-- What is published, oldest first. -/
def publications : List Event → List Bool
  | [] => []
  | .publish leading :: rest => leading :: publications rest
  | .close :: rest | .poll :: rest => publications rest

/-- The latest values at the times of the polls, oldest first. -/
def seen (latest : Bool) : List Event → List Bool
  | [] => []
  | .publish leading :: rest => seen leading rest
  | .close :: rest => seen latest rest
  | .poll :: rest => latest :: seen latest rest

variable {l : Lookout} {latest : Bool} {events : List Event}

/-! ### What polls see -/

private theorem pair_sublist_cons {α : Type} {a b c : α} {l : List α} :
    [a, b] <+ c :: l ↔ [a, b] <+ l ∨ a = c ∧ b ∈ l := by
  rw [List.sublist_cons_iff]
  refine or_congr_right ⟨?_, ?_⟩
  · rintro ⟨_, he, hb⟩
    obtain ⟨rfl, rfl⟩ := List.cons.inj he
    exact ⟨rfl, List.singleton_sublist.mp hb⟩
  · rintro ⟨rfl, hb⟩
    exact ⟨_, rfl, List.singleton_sublist.mpr hb⟩

theorem seen_append (earlier later : List Event) : seen latest (earlier ++ later) =
    seen latest earlier ++ seen ((publications earlier).getLastD latest) later := by
  induction earlier generalizing latest with
  | nil => rfl
  | cons e rest ih =>
    cases e with
    | publish leading =>
      rw [List.cons_append, seen, ih, seen, publications, List.getLastD_cons]
    | close => rw [List.cons_append, seen, ih, seen, publications]
    | poll => rw [List.cons_append, seen, ih, seen, publications, List.cons_append]

theorem mem_publications {leading : Bool} : leading ∈ publications events ↔ .publish leading ∈ events := by
  induction events with
  | nil => simp [publications]
  | cons e rest ih => cases e <;> simp [publications, ih]

private theorem getLastD_of_not_mem {values : List Bool} (h : true ∉ values) : values.getLastD false = false := by
  rw [List.getLastD_eq_getLast?]
  cases hlast : values.getLast? with
  | none => rfl
  | some value =>
    have hmem := List.mem_of_getLast? hlast
    cases value with
    | false => rfl
    | true => exact absurd hmem h

theorem mem_of_seen {leading : Bool} (h : leading ∈ seen latest events) : leading ∈ latest :: publications events := by
  induction events generalizing latest with
  | nil => cases h
  | cons e rest ih =>
    cases e with
    | publish later => exact .tail _ (ih h)
    | close => exact ih h
    | poll =>
      rcases List.mem_cons.mp h with rfl | h
      · exact .head _
      · exact ih h

/-- What polls see one after the other was published one after the other. -/
theorem published_of_seen (h : [true, false] <+ seen latest events) : [true, false] <+ latest :: publications events := by
  induction events generalizing latest with
  | nil => cases h
  | cons e rest ih =>
    cases e with
    | publish later => exact (ih h).cons _
    | close => exact ih h
    | poll =>
      rcases pair_sublist_cons.mp h with h | ⟨rfl, h⟩
      · exact ih h
      · have hfalse : false ∈ publications rest := by simpa using mem_of_seen h
        exact pair_sublist_cons.mpr (.inr ⟨rfl, hfalse⟩)

/-! ### What the watcher makes of it -/

/-- Whether a watcher that has looked at the latest value knows of it, or has noticed the loss. -/
def Lookout.Abreast (l : Lookout) : Prop := l.news = false → l.noticed = false → l.watch.held = l.latest

theorem Lookout.Abreast.after (h : l.Abreast) (e : Event) : (l.after e).Abreast := by
  cases e with
  | publish leading => exact fun hnews => by cases hnews
  | close => exact h
  | poll =>
    simp only [Lookout.after]
    split
    · exact h
    · intro _ hnoticed
      have hnot : (l.watch.poll l.latest l.closed).1 = false := hnoticed
      change (l.watch.poll l.latest l.closed).2.held = l.latest
      cases hheld : l.watch.held <;> cases hlatest : l.latest <;> simp_all [LossWatch.poll]

/-- A loss is noticed if it has been, if a poll finds the channel closed, or if one sees that the lead is not held
after it was seen held. -/
theorem Lookout.noticed_iff (h : l.Abreast) (events : List Event) : (l.afterAll events).noticed = true ↔
    l.noticed = true ∨ (l.closed = true ∧ .poll ∈ events ∨ [.close, .poll] <+ events) ∨
      (l.watch.held = true ∧ false ∈ seen l.latest events ∨ [true, false] <+ seen l.latest events) := by
  induction events generalizing l with
  | nil => simp [afterAll, seen]
  | cons e rest ih =>
    have hstep := ih (h.after e)
    change ((l.after e).afterAll rest).noticed = true ↔ _
    rw [hstep]
    cases e with
    | publish leading => simp [Lookout.after, seen, pair_sublist_cons]
    | close =>
      have hpoll : [.close, .poll] <+ rest → .poll ∈ rest := fun hs => hs.subset (by simp)
      simp only [Lookout.after, seen, pair_sublist_cons]
      grind
    | poll =>
      simp only [Lookout.after, seen, pair_sublist_cons]
      split
      · next hidle =>
        -- It is not woken, since it knows of the latest value. To see that once more would add nothing.
        have hknown : l.noticed = true ∨ l.closed = false ∧ l.watch.held = l.latest := by
          simp only [Bool.or_eq_true, Bool.not_eq_true', Bool.or_eq_false_iff] at hidle
          by_cases hnoticed : l.noticed = true
          · exact .inl hnoticed
          · obtain ⟨hnews, hclosed⟩ := hidle.resolve_left hnoticed
            exact .inr ⟨hclosed, h hnews (by simpa using hnoticed)⟩
        grind
      · simp only [LossWatch.poll]
        grind

/-- A watcher has noticed a loss exactly if one of its polls has found the channel closed, or one has seen that the lead
is not held after another had seen that it is. So it notices nothing while the channel is open and no loss was published,
and it notices at its next poll a loss that was published after it had seen the lead, unless the lead is held again by
then. -/
theorem noticed_iff_seen (leading : Bool) (events : List Event) :
    let l := (Lookout.start leading).afterAll events
    (l.noticed = true ↔ [.close, .poll] <+ events ∨ [true, false] <+ seen leading events) ∧
    (l.noticed = true → .close ∉ events → [true, false] <+ leading :: publications events) ∧
    (∀ earlier later, events = earlier ++ .publish false :: later → true ∈ seen leading earlier →
      .publish true ∉ later → (l.after .poll).noticed = true) := by
  intro l
  have hexact (events : List Event) : ((Lookout.start leading).afterAll events).noticed = true ↔
      [.close, .poll] <+ events ∨ [true, false] <+ seen leading events := by
    have habreast : (Lookout.start leading).Abreast := fun hnews => by cases hnews
    simpa [Lookout.start] using Lookout.noticed_iff habreast events
  refine ⟨hexact events, fun hnoticed hopen => ?_, ?_⟩
  · refine published_of_seen (((hexact events).mp hnoticed).resolve_left fun hclosed => hopen ?_)
    exact hclosed.subset (.head _)
  · rintro earlier later rfl hseen hlost
    have hnext : l.after .poll = (Lookout.start leading).afterAll (earlier ++ .publish false :: later ++ [.poll]) := by
      simp [l, Lookout.afterAll]
    rw [hnext, hexact, List.append_assoc, seen_append]
    have hlatest : (publications later).getLastD false = false :=
      getLastD_of_not_mem fun hmem => hlost (mem_publications.mp hmem)
    have hfalse : false ∈ seen ((publications earlier).getLastD leading) (.publish false :: later ++ [.poll]) := by
      rw [List.cons_append, seen, seen_append, hlatest]
      exact List.mem_append_right _ (.head _)
    exact .inr ((List.singleton_sublist.mpr hseen).append (List.singleton_sublist.mpr hfalse))

/-- A loss after a first poll, which has seen the lead, is noticed at the next one. -/
theorem noticed_after_first_poll :
    (((Lookout.start true).afterAll [.poll, .publish false]).after .poll).noticed = true :=
  (noticed_iff_seen true [.poll, .publish false]).2.2 [.poll] [] rfl (by decide) (by decide)

/-- A loss before the first poll is not noticed at it: that the lead was held has been seen for the watcher, and not by
it. -/
theorem not_noticed_before_first_poll : ¬∀ events : List Event, .close ∉ events →
    [true, false] <+ true :: publications events →
      (((Lookout.start true).afterAll events).after .poll).noticed = true := by
  intro hall
  have hnoticed := hall [.publish false] (by simp) (by decide)
  exact absurd hnoticed (by decide)

end ServiceBalancer.LossWatch
