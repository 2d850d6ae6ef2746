import ServiceBalancer.Proofs.Queue.Orderly
import ServiceBalancer.Queue.Signal

/-! Workers who sleep until a queue has something for them. One looks for an item, and if it finds none it goes to
sleep, but others act in between: a wake-up that is in store by then is not stored twice. -/
namespace ServiceBalancer

inductive Crew.Post (α : Type) where
  | away
  /-- It is about to look for an item. -/
  | looking
  /-- It has found none and is about to go to sleep; it will not if all were called meanwhile. -/
  | dozing (called : Bool)
  | asleep
  | holding (a : α)
  /-- It was told that the queue is shut down. -/
  | left
  deriving DecidableEq

/-- A queue, its signal, and what each worker is at. -/
structure Crew (α : Type) where
  queue : WorkQueue α := {}
  signal : Signal Nat := {}
  posts : List (Crew.Post α) := []

namespace Crew
variable {α : Type}

namespace Post

def isLooking : Post α → Bool
  | looking => true
  | _ => false

def isDozing : Post α → Bool
  | dozing _ => true
  | _ => false

def isOff : Post α → Bool
  | dozing _ | asleep => true
  | _ => false

/-- Whether a worker will look for an item, at once or when it is done with the one it holds. -/
def isUp : Post α → Bool
  | looking | holding _ => true
  | _ => false

def call : Post α → Post α
  | asleep => looking
  | dozing _ => dozing true
  | p => p

end Post

inductive Act (α : Type) where
  | add (a : α)
  | addAfter (now : Duration) (a : α) (delay : Duration)
  | fire (a : α) (deadline : Duration)
  | shutDown
  | start (who : Nat)
  | look (who : Nat)
  | doze (who : Nat)
  | release (who : Nat)

/-- Some workers at a new queue, none of whom has started. -/
def opened (name : String) (workers : Nat) : Crew α := { queue := { name }, posts := List.replicate workers .away }

def stand (s : Crew α) (who : Nat) (p : Post α) : Crew α := { s with posts := s.posts.set who p }

def notify (s : Crew α) : Crew α :=
  match s.signal.notifyOne with
  | (some who, signal) => { s with signal }.stand who .looking
  | (none, signal) => { s with signal }

def change (s : Crew α) (queue : WorkQueue α) : Crew α :=
  if s.queue.size < queue.size then { s with queue }.notify else { s with queue }

/-- Does an act. Looking for an item and going to sleep are two; whoever has released an item looks for the next. -/
def act? [DecidableEq α] (s : Crew α) : Act α → Option (Crew α)
  | .add a => some (s.change (s.queue.add a))
  | .addAfter now a delay => some (s.change (s.queue.afterDelayed (s.queue.addAfter now a delay)))
  | .fire a deadline => some (s.change (s.queue.fire a deadline))
  | .shutDown =>
    some { queue := s.queue.shutDown, signal := s.signal.notifyAll.2, posts := s.posts.map Post.call }
  | .start who => if s.posts[who]? = some .away then some (s.stand who .looking) else none
  | .look who =>
    if s.posts[who]? = some .looking then
      if s.queue.shuttingDown then some (s.stand who .left)
      else
        match s.queue.take? with
        | some (a, queue) => some ({ s with queue }.stand who (.holding a))
        | none => some (s.stand who (.dozing false))
    else none
  | .doze who =>
    match s.posts[who]? with
    | some (.dozing called) =>
      if called ∧ ¬s.signal.stored then some (s.stand who .looking)
      else
        let (asleep, signal) := s.signal.sleep who
        some ({ s with signal }.stand who (if asleep then .asleep else .looking))
    | _ => none
  | .release who =>
    match s.posts[who]? with
    | some (.holding a) => some ((s.change (s.queue.release a)).stand who .looking)
    | _ => none

/-- Whether a wake-up was due between two states and got lost: one was stored already, and a worker that had found
nothing was not asleep yet. -/
def loses (s t : Crew α) : Bool :=
  decide (s.queue.size < t.queue.size) && s.signal.stored && s.posts.any Post.isDozing

/-- Any number of acts, and whether a wake-up got lost. -/
inductive Run [DecidableEq α] (s : Crew α) : Bool → Crew α → Prop where
  | start : Run s false s
  | next {lost t act u} : Run s lost t → t.act? act = some u → Run s (lost || t.loses u) u

def Grows (q q' : WorkQueue α) : Prop :=
  q'.shuttingDown = q.shuttingDown ∧ (q'.ready = q.ready ∨ ∃ a, q'.ready = q.ready ++ [a])

/-- What holds of the workers at an open queue. As long as no wake-up got lost, there is one for every item that is
ready, stored or on its way to look for it, if anyone is asleep or about to be. -/
structure Roused (lost : Bool) (s : Crew α) : Prop where
  nodup : s.signal.sleepers.Nodup
  asleep : ∀ who, who ∈ s.signal.sleepers ↔ s.posts[who]? = some .asleep
  stored : s.signal.stored = true → s.signal.sleepers = []
  minded : 0 < s.queue.ready.length → 0 < s.signal.stored.toNat + s.posts.countP Post.isUp
  enough : lost = false → 0 < s.posts.countP Post.isOff →
    s.queue.ready.length ≤ s.signal.stored.toNat + s.posts.countP Post.isLooking

variable {s t u : Crew α} {lost : Bool} {deed : Act α} {who : Nat} {p p' : Post α} {queue : WorkQueue α}

/-! ### Changes of the queue -/

section
variable [DecidableEq α]

theorem grows_add (q : WorkQueue α) (a : α) : Grows q (q.add a) :=
  ⟨by simp, (q.add_ready a).imp id fun h => ⟨a, h.1⟩⟩

theorem grows_addAfter (q : WorkQueue α) (now : Duration) (a : α) (delay : Duration) :
    Grows q (q.afterDelayed (q.addAfter now a delay)) := by
  rcases q.addAfter_cases now a delay with ⟨_, he⟩ | ⟨_, waiting, he⟩
  · exact he ▸ grows_add q a
  · exact he ▸ ⟨rfl, .inl rfl⟩

theorem grows_fire (q : WorkQueue α) (a : α) (deadline : Duration) : Grows q (q.fire a deadline) := by
  rcases q.fire_cases a deadline with ⟨_, waiting, he⟩ | ⟨_, he⟩
  · exact he ▸ grows_add { q with waiting } a
  · rw [he]
    exact ⟨rfl, .inl rfl⟩

theorem grows_release (q : WorkQueue α) (a : α) : Grows q (q.release a) := by
  refine ⟨by simp, ?_⟩
  rw [WorkQueue.release_ready]
  split_ifs
  · exact .inr ⟨a, rfl⟩
  · exact .inl rfl

end

/-! ### Changes of a post -/

theorem countP_set_post {posts : List (Post α)} (f : Post α → Bool) (hp : posts[who]? = some p) :
    (posts.set who p').countP f + (f p).toNat = posts.countP f + (f p').toNat := by
  obtain ⟨hlt, rfl⟩ := List.getElem?_eq_some_iff.mp hp
  rw [List.countP_set hlt]
  have hpos : f posts[who] = true → 0 < posts.countP f :=
    fun h => List.countP_pos_iff.mpr ⟨_, List.getElem_mem hlt, h⟩
  cases hf : f posts[who] <;> cases f p' <;> simp_all

/-- Who sleeps is not changed by a worker who neither wakes up nor goes to sleep. -/
theorem asleep_set_post {sleepers : List Nat} {posts : List (Post α)}
    (h : ∀ w, w ∈ sleepers ↔ posts[w]? = some .asleep) (hp : posts[who]? = some p) (hne : p ≠ .asleep)
    (hne' : p' ≠ .asleep) (w : Nat) : w ∈ sleepers ↔ (posts.set who p')[w]? = some .asleep := by
  rw [h w]
  by_cases hw : who = w
  · subst hw
    have hlt : who < posts.length := (List.getElem?_eq_some_iff.mp hp).1
    rw [hp, List.getElem?_set_self hlt]
    simp [hne, hne']
  · rw [List.getElem?_set_ne hw]

/-! ### One act -/

theorem roused_opened (name : String) (workers : Nat) : Roused false (opened name workers : Crew α) where
  nodup := List.nodup_nil
  asleep := fun who => by simp [opened, List.getElem?_replicate]
  stored := fun h => by cases h
  minded := fun h => by simp [opened] at h
  enough := fun _ _ => Nat.zero_le _

theorem Roused.mono (h : Roused lost s) (more : Bool) : Roused (lost || more) s :=
  { h with enough := fun hl => h.enough (Bool.or_eq_false_iff.mp hl).1 }

/-- A worker who comes to look for an item, from wherever but sleep, does no harm. -/
theorem Roused.looks (h : Roused lost s) (hp : s.posts[who]? = some p) (hne : p ≠ .asleep) (hlook : p.isLooking = false) :
    Roused lost (s.stand who .looking) := by
  have hup : (s.posts.set who .looking).countP Post.isUp + p.isUp.toNat = s.posts.countP Post.isUp + 1 :=
    countP_set_post Post.isUp hp
  have hlooking : (s.posts.set who .looking).countP Post.isLooking + p.isLooking.toNat =
      s.posts.countP Post.isLooking + 1 := countP_set_post Post.isLooking hp
  have hoff : (s.posts.set who .looking).countP Post.isOff + p.isOff.toNat = s.posts.countP Post.isOff :=
    countP_set_post Post.isOff hp
  have hle := Bool.toNat_le p.isUp
  simp only [hlook, Bool.toNat_false] at hlooking
  refine ⟨h.nodup, asleep_set_post h.asleep hp hne (by simp), h.stored, fun hr => ?_, fun hl ho => ?_⟩
  · have hminded := h.minded hr
    simp only [stand]
    omega
  · simp only [stand] at ho ⊢
    have henough := h.enough hl (by omega)
    omega

/-- A worker who finds an item takes it with the look at it. -/
theorem Roused.takes (h : Roused lost s) (hp : s.posts[who]? = some .looking) {a : α} {rest : List α}
    (hr : s.queue.ready = a :: rest) (hq : queue.ready = rest) :
    Roused lost ({ s with queue }.stand who (.holding a)) := by
  have hup : (s.posts.set who (.holding a)).countP Post.isUp + 1 = s.posts.countP Post.isUp + 1 :=
    countP_set_post Post.isUp hp
  have hlooking : (s.posts.set who (.holding a)).countP Post.isLooking + 1 = s.posts.countP Post.isLooking :=
    countP_set_post Post.isLooking hp
  have hoff : (s.posts.set who (.holding a)).countP Post.isOff + 0 = s.posts.countP Post.isOff :=
    countP_set_post Post.isOff hp
  have hpos : 0 < s.posts.countP Post.isUp := List.countP_pos_iff.mpr ⟨_, List.mem_of_getElem? hp, rfl⟩
  refine ⟨h.nodup, asleep_set_post h.asleep hp (by simp) (by simp), h.stored, fun _ => ?_, fun hl ho => ?_⟩
  · simp only [stand]
    omega
  · simp only [stand] at ho ⊢
    have henough := h.enough hl (by omega)
    rw [hr, List.length_cons] at henough
    rw [hq]
    omega

/-- With nothing ready, a worker may go away. -/
theorem Roused.finds_none (h : Roused lost s) (hp : s.posts[who]? = some .looking) (hr : s.queue.ready = []) :
    Roused lost (s.stand who (.dozing false)) where
  nodup := h.nodup
  asleep := asleep_set_post h.asleep hp (by simp) (by simp)
  stored := h.stored
  minded := by simp [stand, hr]
  enough := by simp [stand, hr]

/-- A worker who goes to sleep uses up the wake-up that is stored, if there is one. -/
theorem Roused.dozes {called : Bool} (h : Roused lost s) (hp : s.posts[who]? = some (.dozing called)) :
    Roused lost ({ s with signal := (s.signal.sleep who).2 }.stand who
      (if (s.signal.sleep who).1 then .asleep else .looking)) := by
  unfold Signal.sleep
  by_cases hs : s.signal.stored = true
  · have hlooks := h.looks hp (by simp) rfl
    have hup : (s.posts.set who .looking).countP Post.isUp + 0 = s.posts.countP Post.isUp + 1 :=
      countP_set_post Post.isUp hp
    have hlooking : (s.posts.set who .looking).countP Post.isLooking + 0 = s.posts.countP Post.isLooking + 1 :=
      countP_set_post Post.isLooking hp
    have hoff : (s.posts.set who .looking).countP Post.isOff + 1 = s.posts.countP Post.isOff + 0 :=
      countP_set_post Post.isOff hp
    simp only [if_pos hs, Bool.false_eq_true, if_false]
    refine ⟨h.nodup, hlooks.asleep, (fun hst => by cases hst), fun _ => ?_, fun hl ho => ?_⟩
    · simp only [stand]
      omega
    · simp only [stand] at ho ⊢
      have henough := h.enough hl (by omega)
      simp only [hs, Bool.toNat_true, Bool.toNat_false] at henough ⊢
      omega
  · have hup : (s.posts.set who .asleep).countP Post.isUp + 0 = s.posts.countP Post.isUp + 0 :=
      countP_set_post Post.isUp hp
    have hlooking : (s.posts.set who .asleep).countP Post.isLooking + 0 = s.posts.countP Post.isLooking + 0 :=
      countP_set_post Post.isLooking hp
    have hoff : (s.posts.set who .asleep).countP Post.isOff + 1 = s.posts.countP Post.isOff + 1 :=
      countP_set_post Post.isOff hp
    have hwho : who ∉ s.signal.sleepers := fun hm => by simpa [hp] using (h.asleep who).mp hm
    simp only [if_neg hs, if_true]
    refine ⟨?_, fun w => ?_, fun hst => absurd hst hs, fun hr => ?_, fun hl ho => ?_⟩
    · simpa [stand] using h.nodup.concat hwho
    · simp only [stand, List.mem_append, List.mem_singleton, h.asleep w]
      by_cases hw : who = w
      · subst hw
        simp [(List.getElem?_eq_some_iff.mp hp).1]
      · simp [List.getElem?_set_ne hw, Ne.symm hw]
    · have hminded := h.minded hr
      simp only [stand]
      omega
    · simp only [stand] at ho ⊢
      have henough := h.enough hl (by omega)
      omega

/-- An item that becomes ready wakes the first sleeper up. -/
theorem Roused.wakes {w : Nat} {rest : List Nat} {a : α} (h : Roused lost s) (hs : s.signal.sleepers = w :: rest)
    (hq : queue.ready = s.queue.ready ++ [a]) :
    Roused lost ({ s with queue, signal := { s.signal with sleepers := rest } }.stand w .looking) := by
  have hp : s.posts[w]? = some .asleep := (h.asleep w).mp (hs ▸ .head _)
  have hlt : w < s.posts.length := (List.getElem?_eq_some_iff.mp hp).1
  have hup : (s.posts.set w .looking).countP Post.isUp + 0 = s.posts.countP Post.isUp + 1 :=
    countP_set_post Post.isUp hp
  have hlooking : (s.posts.set w .looking).countP Post.isLooking + 0 = s.posts.countP Post.isLooking + 1 :=
    countP_set_post Post.isLooking hp
  have hoff : (s.posts.set w .looking).countP Post.isOff + 1 = s.posts.countP Post.isOff + 0 :=
    countP_set_post Post.isOff hp
  obtain ⟨hw, hrest⟩ := List.nodup_cons.mp (hs ▸ h.nodup)
  refine ⟨hrest, fun v => ?_, fun hst => ?_, fun _ => ?_, fun hl ho => ?_⟩
  · simp only [stand]
    by_cases hv : w = v
    · subst hv
      simp [hw, hlt]
    · rw [List.getElem?_set_ne hv, ← h.asleep v, hs]
      simp [Ne.symm hv]
  · exact absurd (h.stored hst) (by simp [hs])
  · simp only [stand]
    omega
  · simp only [stand] at ho ⊢
    have henough := h.enough hl (by omega)
    rw [hq, List.length_append, List.length_singleton]
    omega

/-- Without a sleeper the wake-up is stored. It gets lost on whoever is about to sleep if one is stored already. -/
theorem Roused.stores {a : α} (h : Roused lost s) (hs : s.signal.sleepers = [])
    (hq : queue.ready = s.queue.ready ++ [a]) (hlost : lost = false → s.posts.any Post.isDozing = true → s.signal.stored = false) :
    Roused lost { s with queue, signal := { s.signal with stored := true } } := by
  refine ⟨h.nodup, h.asleep, fun _ => hs, fun _ => ?_, fun hl ho => ?_⟩
  · simp only [Bool.toNat_true]
    omega
  · obtain ⟨p, hp, hoff⟩ := List.countP_pos_iff.mp ho
    have hdozing : p.isDozing = true := by
      cases p with
      | dozing called => rfl
      | asleep =>
        obtain ⟨w, hw⟩ := List.mem_iff_getElem?.mp hp
        simpa [hs] using (h.asleep w).mpr hw
      | _ => cases hoff
    have hstored := hlost hl (List.any_eq_true.mpr ⟨p, hp, hdozing⟩)
    have henough := h.enough hl ho
    rw [hstored] at henough
    rw [hq, List.length_append, List.length_singleton]
    simp only [Bool.toNat_true, Bool.toNat_false] at henough ⊢
    omega

theorem Roused.change (h : Roused lost s) (hg : Grows s.queue queue) :
    Roused (lost || s.loses (s.change queue)) (s.change queue) := by
  rcases hg.2 with hsame | ⟨a, hq⟩
  · have hchange : s.change queue = { s with queue } := if_neg (by simp [WorkQueue.size, hsame])
    have hquiet : Roused lost { s with queue } :=
      ⟨h.nodup, h.asleep, h.stored, fun hr => h.minded (hsame ▸ hr), fun hl ho => hsame ▸ h.enough hl ho⟩
    exact hchange ▸ hquiet.mono _
  · have hgrown : s.queue.size < queue.size := by simp [WorkQueue.size, hq]
    cases hs : s.signal.sleepers with
    | nil =>
      have hchange : s.change queue = { s with queue, signal := { s.signal with stored := true } } := by
        simp [Crew.change, hgrown, notify, Signal.notifyOne, hs]
      rw [hchange]
      refine (h.mono _).stores hs hq fun hl hdozing => ?_
      simpa [loses, hgrown, hdozing] using (Bool.or_eq_false_iff.mp hl).2
    | cons w rest =>
      have hchange : s.change queue =
          { s with queue, signal := { s.signal with sleepers := rest } }.stand w .looking := by
        simp [Crew.change, hgrown, notify, Signal.notifyOne, hs]
      exact hchange ▸ (h.wakes hs hq).mono _

/-- A change of the queue leaves whoever is not asleep at what it is at. -/
theorem Roused.post_change (h : Roused lost s) (hp : s.posts[who]? = some p) (hne : p ≠ .asleep) :
    (s.change queue).posts[who]? = some p := by
  unfold Crew.change notify Signal.notifyOne
  split_ifs
  · cases hs : s.signal.sleepers with
    | nil => exact hp
    | cons w rest =>
      have hw : w ≠ who := by
        rintro rfl
        exact hne (Option.some.inj (hp.symm.trans ((h.asleep w).mp (hs ▸ .head _))))
      exact (List.getElem?_set_ne hw).trans hp
  · exact hp

@[simp] theorem change_queue (s : Crew α) (queue : WorkQueue α) : (s.change queue).queue = queue := by
  unfold Crew.change notify
  split_ifs
  · split <;> rfl
  · rfl

variable [DecidableEq α]

/-- Each act at an open queue keeps the workers up, or gets a wake-up lost. -/
theorem Roused.act (h : Roused lost s) (ht : s.act? deed = some t) (ho : t.queue.shuttingDown = false) :
    Roused (lost || s.loses t) t := by
  cases deed with
  | add a =>
    obtain rfl := Option.some.inj ht
    exact h.change (grows_add _ a)
  | addAfter now a delay =>
    obtain rfl := Option.some.inj ht
    exact h.change (grows_addAfter _ now a delay)
  | fire a deadline =>
    obtain rfl := Option.some.inj ht
    exact h.change (grows_fire _ a deadline)
  | shutDown =>
    obtain rfl := Option.some.inj ht
    cases ho
  | start who =>
    simp only [act?] at ht
    split at ht
    · next hp =>
      obtain rfl := Option.some.inj ht
      exact (h.looks hp (by simp) rfl).mono _
    · cases ht
  | look who =>
    simp only [act?] at ht
    split at ht
    · next hp =>
      split at ht
      · next hshut =>
        obtain rfl := Option.some.inj ht
        cases hshut.symm.trans ho
      · next hopen =>
        split at ht
        · next a queue hq =>
          obtain rfl := Option.some.inj ht
          obtain ⟨_, rest, hr, rfl⟩ := WorkQueue.take?_eq_some.mp hq
          exact (h.takes hp hr rfl).mono _
        · next hq =>
          obtain rfl := Option.some.inj ht
          refine (h.finds_none hp ?_).mono _
          cases hr : s.queue.ready with
          | nil => rfl
          | cons a rest => simp [WorkQueue.take?, hopen, hr] at hq
    · cases ht
  | doze who =>
    simp only [act?] at ht
    split at ht
    · next called hp =>
      split at ht
      · obtain rfl := Option.some.inj ht
        exact (h.looks hp (by simp) rfl).mono _
      · obtain rfl := Option.some.inj ht
        exact (h.dozes hp).mono _
    · cases ht
  | release who =>
    simp only [act?] at ht
    split at ht
    · next a hp =>
      obtain rfl := Option.some.inj ht
      have hchanged := h.change (grows_release s.queue a)
      exact hchanged.looks (h.post_change hp (by simp)) (by simp) rfl
    · cases ht

/-! ### Runs -/

/-- A shut queue stays shut. -/
theorem open_of_act (ht : s.act? deed = some t) (ho : t.queue.shuttingDown = false) : s.queue.shuttingDown = false := by
  cases deed with
  | add a =>
    obtain rfl := Option.some.inj ht
    simpa using ho
  | addAfter now a delay =>
    obtain rfl := Option.some.inj ht
    simpa [(grows_addAfter s.queue now a delay).1] using ho
  | fire a deadline =>
    obtain rfl := Option.some.inj ht
    simpa [(grows_fire s.queue a deadline).1] using ho
  | shutDown =>
    obtain rfl := Option.some.inj ht
    cases ho
  | start who =>
    simp only [act?] at ht
    split at ht
    · obtain rfl := Option.some.inj ht
      exact ho
    · cases ht
  | look who =>
    simp only [act?] at ht
    split at ht
    · split at ht
      · obtain rfl := Option.some.inj ht
        exact ho
      · next hopen => simpa using hopen
    · cases ht
  | doze who =>
    simp only [act?] at ht
    split at ht
    · split at ht <;> (obtain rfl := Option.some.inj ht; exact ho)
    · cases ht
  | release who =>
    simp only [act?] at ht
    split at ht
    · obtain rfl := Option.some.inj ht
      simpa [stand] using ho
    · cases ht

theorem Roused.run (h : Roused false s) (run : Run s lost t) (ho : t.queue.shuttingDown = false) : Roused lost t := by
  induction run with
  | start => exact h
  | next _ ht ih => exact (ih (open_of_act ht ho)).act ht ho

/-- If a worker sleeps although an item is ready, another is about to look for it; but if a wake-up got lost on a worker
that was about to sleep, it may be that one only who holds an item, and looks for the next when it has released it. -/
theorem up_beside_ready {name : String} {workers : Nat} (run : Run (opened name workers) lost s)
    (ho : s.queue.shuttingDown = false) (hr : s.queue.ready ≠ []) (hw : s.posts[who]? = some .asleep) :
    .looking ∈ s.posts ∨ lost = true ∧ ∃ a, .holding a ∈ s.posts := by
  have h : Roused lost s := (roused_opened name workers).run run ho
  have hpos : 0 < s.queue.ready.length := List.length_pos_iff.mpr hr
  have hstored : s.signal.stored = false := by
    by_contra hst
    have hnone := h.stored (by simpa using hst)
    simpa [hnone] using (h.asleep who).mpr hw
  have hminded := h.minded hpos
  rw [hstored] at hminded
  obtain ⟨p, hp, hup⟩ := List.countP_pos_iff.mp (Nat.lt_of_lt_of_eq hminded (Nat.zero_add _))
  cases hl : lost with
  | true =>
    cases p with
    | looking => exact .inl hp
    | holding a => exact .inr ⟨rfl, a, hp⟩
    | _ => cases hup
  | false =>
    have henough := h.enough hl (List.countP_pos_iff.mpr ⟨_, List.mem_of_getElem? hw, rfl⟩)
    rw [hstored] at henough
    have hlooking : 0 < s.posts.countP Post.isLooking := by
      simp only [Bool.toNat_false] at henough
      omega
    obtain ⟨p, hp, hlook⟩ := List.countP_pos_iff.mp hlooking
    cases p with
    | looking => exact .inl hp
    | _ => cases hlook

private def pair (ready dirty processing : List Nat) (sleepers : List Nat) (stored : Bool) (first second : Post Nat) :
    Crew Nat where
  queue := { name := "service", ready, dirty, processing }
  signal := { sleepers, stored }
  posts := [first, second]

/-- Of two workers that sleep, the first is woken up for an item. -/
theorem up_beside_ready_woken : ∃ (s : Crew Nat) (lost : Bool), Run (opened "service" 2) lost s ∧
    s.queue.ready ≠ [] ∧ s.posts[1]? = some .asleep ∧ .looking ∈ s.posts := by
  have h1 := (Run.start : Run (pair [] [] [] [] false .away .away) _ _).next
    (show act? _ (.start 0) = some (pair [] [] [] [] false .looking .away) from rfl)
  have h2 := h1.next (show act? _ (.look 0) = some (pair [] [] [] [] false (.dozing false) .away) from rfl)
  have h3 := h2.next (show act? _ (.doze 0) = some (pair [] [] [] [0] false .asleep .away) from rfl)
  have h4 := h3.next (show act? _ (.start 1) = some (pair [] [] [] [0] false .asleep .looking) from rfl)
  have h5 := h4.next (show act? _ (.look 1) = some (pair [] [] [] [0] false .asleep (.dozing false)) from rfl)
  have h6 := h5.next (show act? _ (.doze 1) = some (pair [] [] [] [0, 1] false .asleep .asleep) from rfl)
  have h7 := h6.next (show act? _ (.add 1) = some (pair [1] [1] [] [1] false .looking .asleep) from rfl)
  have run : Run (opened "service" 2) false (pair [1] [1] [] [1] false .looking .asleep) := h7
  have hready : (pair [1] [1] [] [1] false .looking .asleep).queue.ready ≠ [] := by simp [pair]
  have hup := up_beside_ready run rfl hready
    (show (pair [1] [1] [] [1] false .looking .asleep).posts[1]? = some .asleep from rfl)
  exact ⟨_, _, run, hready, rfl, hup.resolve_right fun h => by cases h.1⟩

/-- Two workers find nothing. Then two items are added, for which one wake-up is stored; the first worker uses it up and
takes the first item, and the second goes to sleep beside the other item, with nobody to look for it. -/
theorem not_looking_beside_ready : ∃ (s : Crew Nat) (lost : Bool), Run (opened "service" 2) lost s ∧
    s.queue.shuttingDown = false ∧ s.queue.ready = [2] ∧ s.posts = [.holding 1, .asleep] := by
  have h1 := (Run.start : Run (pair [] [] [] [] false .away .away) _ _).next
    (show act? _ (.start 0) = some (pair [] [] [] [] false .looking .away) from rfl)
  have h2 := h1.next (show act? _ (.start 1) = some (pair [] [] [] [] false .looking .looking) from rfl)
  have h3 := h2.next (show act? _ (.look 0) = some (pair [] [] [] [] false (.dozing false) .looking) from rfl)
  have h4 := h3.next (show act? _ (.look 1) = some (pair [] [] [] [] false (.dozing false) (.dozing false)) from rfl)
  have h5 := h4.next (show act? _ (.add 1) = some (pair [1] [1] [] [] true (.dozing false) (.dozing false)) from rfl)
  have h6 := h5.next
    (show act? _ (.add 2) = some (pair [1, 2] [2, 1] [] [] true (.dozing false) (.dozing false)) from rfl)
  have h7 := h6.next (show act? _ (.doze 0) = some (pair [1, 2] [2, 1] [] [] false .looking (.dozing false)) from rfl)
  have h8 := h7.next (show act? _ (.look 0) = some (pair [2] [2] [1] [] false (.holding 1) (.dozing false)) from rfl)
  have run := h8.next (show act? _ (.doze 1) = some (pair [2] [2] [1] [1] false (.holding 1) .asleep) from rfl)
  exact ⟨_, _, run, rfl, rfl, rfl⟩

end Crew
end ServiceBalancer
