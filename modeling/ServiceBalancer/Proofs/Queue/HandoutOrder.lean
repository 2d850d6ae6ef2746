import ServiceBalancer.Proofs.Queue.Signals

/-! The order in which a work queue hands items out. An item joins the end of the line when it becomes ready, by a first
add or by the release that follows a later one, and the line moves from its front only. -/
namespace ServiceBalancer
namespace Custody
variable {α ι : Type} [DecidableEq α]

/-- The item that an operation makes ready: one that is added and is neither ready nor held, or one that was added
again while it was held and is now released. -/
def arrival? (q : WorkQueue α) : Op α ι → Option α
  | .release _ a => if q.shuttingDown = false ∧ a ∈ q.dirty then some a else none
  | op =>
    match effect q op with
    | .signal a => if q.shuttingDown = false ∧ a ∉ q.dirty ∧ a ∉ q.processing then some a else none
    | .handout _ | .quiet => none

def handout? (q : WorkQueue α) (op : Op α ι) : Option α :=
  match effect q op with
  | .handout a => some a
  | .signal _ | .quiet => none

def Op.asks : Op α ι → Bool
  | .get _ => true
  | _ => false

variable [DecidableEq ι]

/-- Any number of operations, with the items they make ready and those they hand out, all oldest first. -/
inductive Traffic (s : Custody α ι) : List (Op α ι) → List α → List α → Custody α ι → Prop where
  | start : Traffic s [] [] [] s
  | next {ops come gone t op u} : Traffic s ops come gone t → t.act? op = some u →
      Traffic s (ops ++ [op]) (come ++ (arrival? t.queue op).toList) (gone ++ (handout? t.queue op).toList) u

variable {s t : Custody α ι} {op : Op α ι} {ops before : List (Op α ι)} {come gone came left : List α}

/-! ### One operation -/

omit [DecidableEq ι] in
/-- What an operation makes ready, if it releases nothing, rests with what it adds. -/
theorem arrival?_eq_effect (q : WorkQueue α) (hop : ∀ who a, op ≠ .release who a) : arrival? q op =
    match effect q op with
    | .signal a => if q.shuttingDown = false ∧ a ∉ q.dirty ∧ a ∉ q.processing then some a else none
    | .handout _ | .quiet => none := by
  cases op with
  | release who a => exact absurd rfl (hop who a)
  | _ => rfl

omit [DecidableEq ι] in
/-- A release in itself is no signal and no hand-out. -/
theorem not_release_of_effect {q : WorkQueue α} (he : effect q op ≠ .quiet) (who : ι) (a : α) : op ≠ .release who a := by
  rintro rfl
  exact he rfl

/-- What becomes ready goes to the end of the line, and what is handed out comes from its front. -/
theorem line_act (ht : s.act? op = some t) :
    s.queue.ready ++ (arrival? s.queue op).toList = (handout? s.queue op).toList ++ t.queue.ready := by
  rcases act_cases ht with ⟨a, waiting, he, rfl⟩ | ⟨who, a, queue, he, hq, rfl⟩ | ⟨waiting, he, hop, _, rfl⟩ |
    ⟨who, a, rfl, _, rfl⟩ | ⟨rfl, rfl⟩
  · have hop : ∀ who a, op ≠ .release who a := not_release_of_effect (q := s.queue) (by simp [he])
    simp only [arrival?_eq_effect _ hop, handout?, he, WorkQueue.add_ready_eq]
    split_ifs <;> rfl
  · have hop : ∀ who a, op ≠ .release who a := not_release_of_effect (q := s.queue) (by simp [he])
    obtain ⟨_, rest, hr, rfl⟩ := WorkQueue.take?_eq_some.mp hq
    simp [arrival?_eq_effect _ hop, handout?, he, hr]
  · simp [arrival?_eq_effect _ hop, handout?, he]
  · simp only [arrival?, handout?, effect, WorkQueue.release_ready]
    split_ifs <;> grind
  · simp [arrival?, handout?, effect, WorkQueue.shutDown]

/-- Asking an open queue hands an item out, unless none is ready. -/
theorem handout_of_asks (ht : s.act? op = some t) (ho : t.queue.shuttingDown = false) (ha : op.asks = true)
    (hr : s.queue.ready ≠ []) : ∃ a, handout? s.queue op = some a := by
  rcases ready_act ht ho with ⟨a, he, _⟩ | ⟨_, _, hempty⟩
  · exact ⟨a, by simp [handout?, he]⟩
  · cases op with
    | get who => exact absurd (hempty who rfl) hr
    | _ => cases ha

/-! ### Any number of operations -/

theorem Kept.traffic (h : s.Kept) (run : Traffic s ops come gone t) : t.Kept := by
  induction run with
  | start => exact h
  | next _ ht ih => exact ih.act ht

/-- The line as a whole: first those that were ready, then those that became ready since, and the front of it is what
was handed out. -/
theorem Traffic.line (run : Traffic s ops come gone t) : s.queue.ready ++ come = gone ++ t.queue.ready := by
  induction run with
  | start => simp
  | @next ops come gone t op u _ ht ih =>
    calc s.queue.ready ++ (come ++ (arrival? t.queue op).toList)
        = gone ++ (t.queue.ready ++ (arrival? t.queue op).toList) := by
          rw [← List.append_assoc, ih, List.append_assoc]
      _ = gone ++ (handout? t.queue op).toList ++ u.queue.ready := by rw [line_act ht, List.append_assoc]

/-- Whoever asks an open queue is not sent away while those that were ready are not all handed out. -/
theorem Traffic.served (run : Traffic s ops come gone t) (ho : t.queue.shuttingDown = false) :
    min (ops.countP Op.asks) s.queue.ready.length ≤ gone.length := by
  induction run with
  | start => simp
  | @next ops come gone t op u hrun ht ih =>
    have ih := ih (open_of_act ht ho)
    rw [List.countP_append, List.length_append]
    by_cases ha : op.asks = true
    · by_cases hr : t.queue.ready = []
      · have hline : s.queue.ready.length + come.length = gone.length := by
          simpa [hr] using congrArg List.length hrun.line
        omega
      · obtain ⟨a, hout⟩ := handout_of_asks ht ho ha hr
        simp only [hout, Option.toList_some, List.length_singleton, List.countP_singleton, if_pos ha]
        omega
    · simp only [List.countP_singleton, if_neg ha]
      omega

/-- Items are handed out in the order in which they became ready. Whatever is done with the queue meanwhile, an item
with `i` others before it is not among the next `i` that are handed out, and it is the one after them. Until then it
stays in line, and has only those before it that were before it and are left. While the queue is open every asking returns
something until then, so `i + 1` of them are enough. -/
theorem handed_out_in_order {name : String} (past : Traffic (opened name) before came left s)
    (run : Traffic s ops come gone t) :
    came = left ++ s.queue.ready ∧ s.queue.ready ++ come = gone ++ t.queue.ready ∧
      ∀ i x, s.queue.ready[i]? = some x → x ∉ gone.take i ∧ (i < gone.length → gone[i]? = some x) ∧
        (gone.length ≤ i → x ∉ gone ∧ t.queue.ready[i - gone.length]? = some x) ∧
        (t.queue.shuttingDown = false → i < ops.countP Op.asks → gone[i]? = some x) := by
  have hpast : came = left ++ s.queue.ready := by simpa [opened] using past.line
  have hline := run.line
  refine ⟨hpast, hline, fun i x hx => ?_⟩
  have hi : i < s.queue.ready.length := (List.getElem?_eq_some_iff.mp hx).1
  have hnodup : s.queue.ready.Nodup := ((kept_opened name).traffic past).orderly.nodup
  have hplace {j : Nat} (hj : j < s.queue.ready.length) : (gone ++ t.queue.ready)[j]? = s.queue.ready[j]? := by
    rw [← hline, List.getElem?_append_left hj]
  have hlook : (gone ++ t.queue.ready)[i]? = some x := (hplace hi).trans hx
  have hearlier : x ∉ gone.take i := by
    intro hm
    obtain ⟨j, hj, hjx⟩ := List.mem_take_iff_getElem.mp hm
    have hgone : j < gone.length := by omega
    have htwice : s.queue.ready[i]? = s.queue.ready[j]? := by
      rw [hx, ← hplace (by omega), List.getElem?_append_left hgone, List.getElem?_eq_getElem hgone, hjx]
    have hsame : i = j := (List.getElem?_inj hi hnodup).mp htwice
    omega
  have hreturned (hlt : i < gone.length) : gone[i]? = some x := by rwa [List.getElem?_append_left hlt] at hlook
  refine ⟨hearlier, hreturned, fun hle => ⟨?_, ?_⟩, fun ho hasked => hreturned ?_⟩
  · rwa [List.take_of_length_le hle] at hearlier
  · rwa [List.getElem?_append_right hle] at hlook
  · have hserved := run.served ho
    omega

private def addedAgain : Custody Nat Nat := { queue := { name := "service", ready := [2, 1], dirty := [1, 2] } }

/-- An item that was added again while it was held is not overtaken by what is added after its release. -/
theorem handed_out_in_order_released : ∃ before ops t, Traffic (opened "service") before [1, 2, 1] [1] addedAgain ∧
    Traffic addedAgain ops [3] [2, 1] t ∧ addedAgain.queue.ready[1]? = some 1 ∧ [2, 1][1]? = some 1 := by
  have h1 := Traffic.start.next (show act? (opened "service" : Custody Nat Nat) (.add 1) = some _ from rfl)
  have h2 := h1.next (show act? _ (.add 2) = some _ from rfl)
  have h3 := h2.next (show act? _ (.get 7) = some _ from rfl)
  have h4 := h3.next (show act? _ (.add 1) = some _ from rfl)
  have past := h4.next (show act? _ (.release 7 1) = some addedAgain from rfl)
  have l1 := Traffic.start.next (show act? addedAgain (.add 3) = some _ from rfl)
  have l2 := l1.next (show act? _ (.get 8) = some _ from rfl)
  have run := l2.next (show act? _ (.get 9) = some _ from rfl)
  exact ⟨_, _, _, past, run, rfl, ((handed_out_in_order past run).2.2 1 1 rfl).2.1 (by decide)⟩

end Custody
end ServiceBalancer
