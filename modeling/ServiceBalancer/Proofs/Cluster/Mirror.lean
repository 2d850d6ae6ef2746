import Mathlib.Logic.Function.Basic
import ServiceBalancer.Cluster.Reflector
import ServiceBalancer.Object.Node
import ServiceBalancer.Proofs.Data.SortedMap

/-! What a reflector tells is enough to copy its store. A copy that is kept by the told changes alone has the
stored objects after every event of a watch, and a listing under way changes neither of them. -/
namespace ServiceBalancer
variable {α : Type} [Resource α]

/-! ### Changes made to a copy -/

namespace Delta

def onto (m : SortedMap ObjectId α) : Delta α → SortedMap ObjectId α
  | .added o => m.insert (.of o) o
  | .updated _ new => m.insert (.of new) new
  | .deleted o => m.erase (.of o)

def ontoAll (m : SortedMap ObjectId α) (deltas : List (Delta α)) : SortedMap ObjectId α := deltas.foldl onto m

/-- Whether a copy lacks what a change adds, and holds the very object that it updates or deletes. A deletion may
also be of an object that the copy lacks. -/
def Suits (m : SortedMap ObjectId α) : Delta α → Prop
  | .added o => m.get? (.of o) = none
  | .updated old new => m.get? (.of new) = some old
  | .deleted o => ∀ old, m.get? (.of o) = some old → old = o

/-- Whether each of the changes suits the copy that those before it leave. -/
def AllSuit (m : SortedMap ObjectId α) : List (Delta α) → Prop
  | [] => True
  | d :: rest => d.Suits m ∧ AllSuit (d.onto m) rest

variable {m : SortedMap ObjectId α} {deltas more : List (Delta α)} {os : List α} {id : ObjectId}

@[simp] theorem ontoAll_nil : ontoAll m [] = m := rfl

@[simp] theorem ontoAll_cons (d : Delta α) : ontoAll m (d :: deltas) = ontoAll (d.onto m) deltas := rfl

theorem ontoAll_append : ontoAll m (deltas ++ more) = ontoAll (ontoAll m deltas) more :=
  List.foldl_append

theorem allSuit_append : AllSuit m (deltas ++ more) ↔ AllSuit m deltas ∧ AllSuit (ontoAll m deltas) more := by
  induction deltas generalizing m with
  | nil => simp [AllSuit]
  | cons d rest ih => simp [AllSuit, ih, and_assoc]

theorem get?_ontoAll_deleted :
    (ontoAll m (os.map .deleted)).get? id = if id ∈ os.map .of then none else m.get? id := by
  induction os generalizing m with
  | nil => simp
  | cons o rest ih =>
    simp only [List.map_cons, ontoAll_cons, ih]
    by_cases hr : id ∈ rest.map .of
    · simp [hr]
    · rw [if_neg hr, onto, SortedMap.get?_erase]
      by_cases ho : ObjectId.of o = id
      · rw [if_pos ho, if_pos (List.mem_cons.mpr (.inl ho.symm))]
      · rw [if_neg ho, if_neg fun hm => (List.mem_cons.mp hm).elim (fun he => ho he.symm) hr]

theorem allSuit_deleted (h : ∀ o ∈ os, ∀ old, m.get? (.of o) = some old → old = o) :
    AllSuit m (os.map .deleted) := by
  induction os generalizing m with
  | nil => trivial
  | cons o rest ih =>
    refine ⟨h o (.head _), ih fun x hx old hold => h x (.tail _ hx) old ?_⟩
    rw [onto, SortedMap.get?_erase] at hold
    split at hold
    · cases hold
    · exact hold

end Delta

/-! ### Watches -/

namespace WatchEvent

def shown? : WatchEvent α → Option α
  | .initApply o | .apply o => some o
  | _ => none

def object? : WatchEvent α → Option α
  | .initApply o | .apply o | .delete o => some o
  | _ => none

/-- What a listing under way has listed so far, given all events from the last to the first. -/
def listed : List (WatchEvent α) → Option (List ObjectId)
  | .init :: _ => some []
  | .initApply o :: past => (listed past).map (.of o :: ·)
  | .apply _ :: past | .delete _ :: past => listed past
  | .initDone :: _ | [] => none

/-- Whether a watch may report an event next. A listing can be started over at any time. Until it is done it lists no
object twice, and no single change is reported. -/
def Next (past : List (WatchEvent α)) : WatchEvent α → Prop
  | .init => True
  | .initApply o => ∀ ids, listed past = some ids → .of o ∉ ids
  | .initDone => (listed past).isSome
  | .apply _ | .delete _ => listed past = none

def InOrder : List (WatchEvent α) → Prop
  | [] => True
  | e :: past => e.Next past ∧ InOrder past

/-- What holds of the events of a watch. All objects of a kind have a namespace or none has, and an object has one
content in each of its versions. -/
structure Watched (events : List (WatchEvent α)) : Prop where
  order : InOrder events
  versions : ∀ o ∈ events.filterMap shown?, ∀ o' ∈ events.filterMap shown?, ObjectId.of o = .of o' →
    (Resource.info o).resourceVersion = (Resource.info o').resourceVersion → o = o'
  scope : ∀ o ∈ events.filterMap object?, ∀ o' ∈ events.filterMap object?,
    ((Resource.info o).ns = none ↔ (Resource.info o').ns = none)

variable {past events : List (WatchEvent α)} {e : WatchEvent α} {o : α}

omit [Resource α] in
theorem mem_filterMap_cons {f : WatchEvent α → Option α} (h : o ∈ past.filterMap f) :
    o ∈ (e :: past).filterMap f := by
  obtain ⟨e', he, ho⟩ := List.mem_filterMap.mp h
  exact List.mem_filterMap.mpr ⟨e', .tail _ he, ho⟩

omit [Resource α] in
theorem object?_of_shown? (h : o ∈ events.filterMap shown?) : o ∈ events.filterMap object? := by
  obtain ⟨e, he, ho⟩ := List.mem_filterMap.mp h
  refine List.mem_filterMap.mpr ⟨e, he, ?_⟩
  cases e with
  | initApply o | apply o => exact ho
  | init | initDone | delete o => cases ho

theorem Watched.tail (h : Watched (e :: past)) : Watched past where
  order := h.order.2
  versions o ho o' ho' := h.versions o (mem_filterMap_cons ho) o' (mem_filterMap_cons ho')
  scope o ho o' ho' := h.scope o (mem_filterMap_cons ho) o' (mem_filterMap_cons ho')

end WatchEvent

/-! ### A writer -/

/-- A store as the events of a watch write it. A listing is written to a buffer, which takes the place of the store when
the listing is done. -/
structure Writer (α : Type) where
  store : ObjectId → Option α := fun _ => none
  buffer : ObjectId → Option α := fun _ => none

namespace Writer

def write (w : Writer α) : WatchEvent α → Writer α
  | .init => { w with buffer := fun _ => none }
  | .initApply o => { w with buffer := Function.update w.buffer (.of o) (some o) }
  | .initDone => { store := w.buffer }
  | .apply o => { w with store := Function.update w.store (.of o) (some o) }
  | .delete o => { w with store := Function.update w.store (.of o) none }

def after : List (WatchEvent α) → Writer α
  | [] => {}
  | e :: past => (after past).write e

end Writer

/-! ### A reflector and a copy of its store -/

namespace Reflector
open WatchEvent

structure Mirrored (α : Type) where
  reflector : Reflector α := {}
  mirror : SortedMap ObjectId α := ∅

def Mirrored.step (s : Mirrored α) (e : WatchEvent α) : Mirrored α where
  reflector := (s.reflector.step e).2
  mirror := Delta.ontoAll s.mirror (s.reflector.step e).1

/-- Both after events, given from the last to the first. -/
def Mirrored.after : List (WatchEvent α) → Mirrored α
  | [] => {}
  | e :: past => (after past).step e

/-- What is true of a listing under way. The changes held back turn the stored objects that were listed into those of
the buffer, and no others. -/
structure Draft (r : Reflector α) (events : List (WatchEvent α)) (relist : Relist α) : Prop where
  suits : Delta.AllSuit r.store relist.deltas
  upshot : ∀ id, (Delta.ontoAll r.store relist.deltas).get? id =
    if id ∈ relist.seen then r.buffer.get? id else r.store.get? id
  buffer : ∀ id o, r.buffer.get? id = some o → id = .of o ∧ id ∈ relist.seen ∧ o ∈ events.filterMap shown?

structure Faithful (events : List (WatchEvent α)) (s : Mirrored α) : Prop where
  mirror : s.mirror = s.reflector.store
  store : ∀ id o, s.reflector.store.get? id = some o → id = .of o ∧ o ∈ events.filterMap shown?
  seen : s.reflector.relist.map Relist.seen = listed events
  draft : ∀ relist, s.reflector.relist = some relist → s.reflector.Draft events relist

variable {r : Reflector α} {relist : Relist α} {past events : List (WatchEvent α)} {s : Mirrored α} {o : α}

theorem faithful_start : Faithful ([] : List (WatchEvent α)) {} where
  mirror := rfl
  store := by
    intro id o h
    cases h
  seen := rfl
  draft := by
    intro relist h
    cases h

/-- Where all objects have a namespace or none has, an object is found under its own identity or not at all. -/
theorem Faithful.find?_of (h : Faithful past s)
    (hscope : ∀ x ∈ past.filterMap shown?, ((Resource.info x).ns = none ↔ (Resource.info o).ns = none)) :
    s.reflector.find? (.of o) = s.reflector.store.get? (.of o) := by
  by_cases hns : (Resource.info o).ns = none
  · have hid : { ObjectId.of o with ns := none } = ObjectId.of o := by simp [ObjectId.of, hns]
    rw [find?, hid, Option.or_self]
  · have hnone : s.reflector.store.get? { ObjectId.of o with ns := none } = none := by
      cases hx : s.reflector.store.get? { ObjectId.of o with ns := none } with
      | none => rfl
      | some x =>
        obtain ⟨hid, hshown⟩ := h.store _ _ hx
        have hxns : (Resource.info x).ns = none := (congrArg ObjectId.ns hid).symm
        exact absurd ((hscope x hshown).mp hxns) hns
    rw [find?, hnone, Option.or_none]

private theorem Faithful.find?_next {e : WatchEvent α} (h : Faithful past s) (hw : Watched (e :: past))
    (ho : o ∈ (e :: past).filterMap object?) : s.reflector.find? (.of o) = s.reflector.store.get? (.of o) :=
  h.find?_of fun _ hx => hw.scope _ (object?_of_shown? (mem_filterMap_cons hx)) _ ho

private theorem Faithful.relist_eq_none (h : Faithful past s) (hl : listed past = none) :
    s.reflector.relist = none :=
  Option.map_eq_none_iff.mp (h.seen.trans hl)

/-! ### One event -/

private theorem suits_apply (h : Faithful past s) (hw : Watched (.apply o :: past)) :
    Delta.AllSuit s.mirror (s.reflector.step (.apply o)).1 := by
  have hfind := h.find?_next hw (o := o) (by simp [object?])
  rw [h.mirror]
  cases hold : s.reflector.store.get? (.of o) <;> simp [step, hfind, hold, Delta.AllSuit, Delta.Suits]

private theorem Faithful.apply (h : Faithful past s) (hw : Watched (.apply o :: past)) :
    Faithful (.apply o :: past) (s.step (.apply o)) where
  mirror := by
    have htold : Delta.ontoAll s.mirror (s.reflector.step (.apply o)).1 = s.mirror.insert (.of o) o := by
      simp only [step]
      split <;> rfl
    simpa [step, Mirrored.step, h.mirror] using htold
  store := by
    intro id x hx
    simp only [Mirrored.step, step, SortedMap.get?_insert] at hx
    split at hx
    · next he =>
      obtain rfl := Option.some.inj hx
      exact ⟨he.symm, by simp [shown?]⟩
    · exact (h.store id x hx).imp_right mem_filterMap_cons
  seen := h.seen
  draft := by
    intro relist hr
    have hnone : s.reflector.relist = none := h.relist_eq_none hw.order.1
    rw [Mirrored.step, step, hnone] at hr
    cases hr

private theorem suits_delete (h : Faithful past s) (hw : Watched (.delete o :: past)) :
    Delta.AllSuit s.mirror (s.reflector.step (.delete o)).1 := by
  have hfind := h.find?_next hw (o := o) (by simp [object?])
  refine ⟨fun old hold => ?_, trivial⟩
  cases hx : s.reflector.store.get? (.of o) with
  | none =>
    rw [hfind, hx, Option.getD_none, h.mirror, hx] at hold
    cases hold
  | some x =>
    rw [hfind, hx, Option.getD_some, h.mirror, ← (h.store _ _ hx).1, hx] at hold
    rw [hfind, hx, Option.getD_some]
    exact (Option.some.inj hold).symm

private theorem Faithful.delete (h : Faithful past s) (hw : Watched (.delete o :: past)) :
    Faithful (.delete o :: past) (s.step (.delete o)) where
  mirror := by
    have hfind := h.find?_next hw (o := o) (by simp [object?])
    have hid : ObjectId.of ((s.reflector.find? (.of o)).getD o) = .of o := by
      rw [hfind]
      cases hx : s.reflector.store.get? (.of o) with
      | none => rfl
      | some x => exact (h.store _ _ hx).1.symm
    simp [Mirrored.step, step, Delta.onto, hid, h.mirror]
  store := by
    intro id x hx
    simp only [Mirrored.step, step, SortedMap.get?_erase] at hx
    split at hx
    · cases hx
    · exact (h.store id x hx).imp_right mem_filterMap_cons
  seen := h.seen
  draft := by
    intro relist hr
    have hnone : s.reflector.relist = none := h.relist_eq_none hw.order.1
    rw [Mirrored.step, step, hnone] at hr
    cases hr

private theorem Faithful.init (h : Faithful past s) : Faithful (.init :: past) (s.step .init) where
  mirror := h.mirror
  store id x hx := (h.store id x hx).imp_right mem_filterMap_cons
  seen := rfl
  draft := by
    intro relist hr
    cases hr
    refine ⟨trivial, fun id => by simp [Mirrored.step, step], ?_⟩
    intro id x hx
    cases hx

private theorem Draft.noteListed (h : r.Draft past relist) (hfind : r.find? (.of o) = r.store.get? (.of o))
    (hnew : .of o ∉ relist.seen)
    (hsame : ∀ old, r.store.get? (.of o) = some old →
      (Resource.info old).resourceVersion = (Resource.info o).resourceVersion → old = o) :
    Draft { r with relist := some (r.noteListed o relist), buffer := r.buffer.insert (.of o) o }
      (.initApply o :: past) (r.noteListed o relist) := by
  have hstand : (Delta.ontoAll r.store relist.deltas).get? (.of o) = r.store.get? (.of o) := by
    rw [h.upshot, if_neg hnew]
  refine ⟨?_, fun id => ?_, fun id x hx => ?_⟩
  · simp only [Reflector.noteListed, hfind]
    refine Delta.allSuit_append.mpr ⟨h.suits, ?_⟩
    split
    · next hnone => exact ⟨hstand.trans hnone, trivial⟩
    · next old hold =>
      split
      · trivial
      · exact ⟨hstand.trans hold, trivial⟩
  · have hother (hid : ObjectId.of o ≠ id) : (Delta.ontoAll r.store relist.deltas).get? id =
        if id ∈ ObjectId.of o :: relist.seen then (r.buffer.insert (.of o) o).get? id else r.store.get? id := by
      rw [h.upshot, SortedMap.get?_insert, if_neg hid]
      simp [Ne.symm hid]
    simp only [Reflector.noteListed, hfind, Delta.ontoAll_append]
    by_cases hid : ObjectId.of o = id
    · subst hid
      rw [if_pos (.head _), SortedMap.get?_insert, if_pos rfl]
      split
      · simp [Delta.onto]
      · next old hold =>
        split
        · next hv => rw [Delta.ontoAll_nil, hstand, hold, hsame old hold hv]
        · simp [Delta.onto]
    · rw [← hother hid]
      split
      · simp [Delta.onto, hid]
      · split
        · rfl
        · simp [Delta.onto, hid]
  · simp only [SortedMap.get?_insert] at hx
    split at hx
    · next he =>
      obtain rfl := Option.some.inj hx
      exact ⟨he.symm, he ▸ .head _, by simp [shown?]⟩
    · obtain ⟨hid, hseen, hshown⟩ := h.buffer id x hx
      exact ⟨hid, .tail _ hseen, mem_filterMap_cons hshown⟩

private theorem Faithful.initApply (h : Faithful past s) (hw : Watched (.initApply o :: past)) :
    Faithful (.initApply o :: past) (s.step (.initApply o)) where
  mirror := h.mirror
  store id x hx := (h.store id x hx).imp_right mem_filterMap_cons
  seen := by
    rw [listed, ← h.seen]
    cases hr : s.reflector.relist <;> simp [Mirrored.step, step, hr, noteListed]
  draft := by
    intro relist hr
    obtain ⟨before, hb, rfl⟩ := Option.map_eq_some_iff.mp hr
    have hnew : .of o ∉ before.seen := hw.order.1 _ (by rw [← h.seen, hb]; rfl)
    have ho : o ∈ (.initApply o :: past).filterMap shown? := by simp [shown?]
    have hdraft := (h.draft before hb).noteListed (h.find?_next hw (object?_of_shown? ho)) hnew
      fun old hold hv => by
        obtain ⟨hid, hshown⟩ := h.store _ _ hold
        exact hw.versions old (mem_filterMap_cons hshown) o ho hid.symm hv
    exact ⟨hdraft.suits, hdraft.upshot, hdraft.buffer⟩

private theorem mem_vanished {id : ObjectId} (h : Faithful past s) :
    id ∈ (s.reflector.vanished relist).map .of ↔ (s.reflector.store.get? id).isSome ∧ id ∉ relist.seen := by
  simp only [vanished, List.mem_map, List.mem_filter, decide_eq_true_eq, Option.isSome_iff_exists,
    SortedMap.get?_eq_some]
  constructor
  · rintro ⟨x, ⟨⟨k, v⟩, ⟨hm, hseen⟩, rfl⟩, rfl⟩
    obtain ⟨rfl, _⟩ := h.store k v (SortedMap.get?_eq_some.mpr hm)
    exact ⟨⟨v, hm⟩, hseen⟩
  · rintro ⟨⟨v, hm⟩, hseen⟩
    exact ⟨v, ⟨(id, v), ⟨hm, hseen⟩, rfl⟩, (h.store id v (SortedMap.get?_eq_some.mpr hm)).1.symm⟩

private theorem upshot_initDone (h : Faithful past s) (hd : s.reflector.Draft past relist) :
    Delta.ontoAll s.reflector.store (relist.deltas ++ (s.reflector.vanished relist).map .deleted) =
      s.reflector.buffer := by
  refine SortedMap.ext_get? fun id => ?_
  rw [Delta.ontoAll_append, Delta.get?_ontoAll_deleted, hd.upshot]
  by_cases hseen : id ∈ relist.seen
  · rw [if_neg fun hm => ((mem_vanished h).mp hm).2 hseen, if_pos hseen]
  · have hbuffer : s.reflector.buffer.get? id = none := by
      cases hx : s.reflector.buffer.get? id with
      | none => rfl
      | some x => exact absurd (hd.buffer id x hx).2.1 hseen
    rw [hbuffer]
    by_cases hm : id ∈ (s.reflector.vanished relist).map .of
    · rw [if_pos hm]
    · rw [if_neg hm, if_neg hseen]
      cases hx : s.reflector.store.get? id with
      | none => rfl
      | some x => exact absurd ((mem_vanished h).mpr ⟨by rw [hx]; rfl, hseen⟩) hm

private theorem suits_initDone (h : Faithful past s) (hd : s.reflector.Draft past relist) :
    Delta.AllSuit s.reflector.store (relist.deltas ++ (s.reflector.vanished relist).map .deleted) := by
  refine Delta.allSuit_append.mpr ⟨hd.suits, Delta.allSuit_deleted fun o ho old hold => ?_⟩
  obtain ⟨⟨k, v⟩, hm, rfl⟩ := List.mem_map.mp ho
  obtain ⟨hm, hseen⟩ := List.mem_filter.mp hm
  have hv := SortedMap.get?_eq_some.mpr hm
  obtain ⟨rfl, _⟩ := h.store k v hv
  rw [hd.upshot, if_neg (of_decide_eq_true hseen), hv] at hold
  exact (Option.some.inj hold).symm

private theorem Faithful.initDone (h : Faithful past s) (hl : (listed past).isSome) :
    Delta.AllSuit s.mirror (s.reflector.step .initDone).1 ∧ Faithful (.initDone :: past) (s.step .initDone) := by
  obtain ⟨relist, hr, _⟩ := Option.map_eq_some_iff.mp (h.seen.trans (Option.some_get hl).symm)
  have hd := h.draft relist hr
  have htold : (s.reflector.step .initDone).1 = relist.deltas ++ (s.reflector.vanished relist).map .deleted := by
    simp [step, hr]
  rw [h.mirror, htold]
  refine ⟨suits_initDone h hd, ?_, fun id x hx => ?_, rfl, fun relist hr => by cases hr⟩
  · rw [Mirrored.step, htold, h.mirror]
    exact upshot_initDone h hd
  · obtain ⟨hid, _, hshown⟩ := hd.buffer id x hx
    exact ⟨hid, mem_filterMap_cons hshown⟩

/-- One event of a watch: what is told of it suits the copy, which stays a copy. -/
theorem Faithful.step {e : WatchEvent α} (h : Faithful past s) (hw : Watched (e :: past)) :
    Delta.AllSuit s.mirror (s.reflector.step e).1 ∧ Faithful (e :: past) (s.step e) := by
  cases e with
  | init => exact ⟨trivial, h.init⟩
  | initApply o => exact ⟨trivial, h.initApply hw⟩
  | initDone => exact h.initDone hw.order.1
  | apply o => exact ⟨suits_apply h hw, h.apply hw⟩
  | delete o => exact ⟨suits_delete h hw, h.delete hw⟩

/-! ### All events -/

theorem faithful_after (h : Watched events) : Faithful events (Mirrored.after events) := by
  induction events with
  | nil => exact faithful_start
  | cons e past ih => exact ((ih h.tail).step h).2

/-- A reflector stores what a writer writes. -/
theorem store_eq_written (events : List (WatchEvent α)) :
    (Mirrored.after events).reflector.store.get? = (Writer.after events).store ∧
      (Mirrored.after events).reflector.buffer.get? = (Writer.after events).buffer := by
  have hinsert (m : SortedMap ObjectId α) (o : α) : (m.insert (.of o) o).get? = Function.update m.get? (.of o) (some o) := by
    funext id
    rw [SortedMap.get?_insert, Function.update_apply]
    exact if_congr eq_comm rfl rfl
  have herase (m : SortedMap ObjectId α) (o : α) : (m.erase (.of o)).get? = Function.update m.get? (.of o) none := by
    funext id
    rw [SortedMap.get?_erase, Function.update_apply]
    exact if_congr eq_comm rfl rfl
  induction events with
  | nil => exact ⟨rfl, rfl⟩
  | cons e past ih =>
    obtain ⟨hstore, hbuffer⟩ := ih
    cases e with
    | init => exact ⟨hstore, rfl⟩
    | initApply o => exact ⟨hstore, (hinsert _ o).trans (by rw [hbuffer]; rfl)⟩
    | initDone => exact ⟨hbuffer, rfl⟩
    | apply o => exact ⟨(hinsert _ o).trans (by rw [hstore]; rfl), hbuffer⟩
    | delete o => exact ⟨(herase _ o).trans (by rw [hstore]; rfl), hbuffer⟩

/-- While a listing is under way, nothing is told and the stored objects stay. -/
theorem step_listing (e : WatchEvent α) (hl : (listed (e :: past)).isSome) (h : e.Next past) :
    (r.step e).1 = [] ∧ (r.step e).2.store = r.store := by
  cases e with
  | init => exact ⟨rfl, rfl⟩
  | initApply o => exact ⟨rfl, rfl⟩
  | initDone => cases hl
  | apply o | delete o =>
    have hnone : listed past = none := h
    rw [listed, hnone] at hl
    cases hl

/-- At each event of a watch, what the reflector tells suits the copy made of what it told before, and with it the copy
has the stored objects, which are those that the events have written. While a listing is under way nothing is told, and
the store is as before it. -/
theorem mirror_eq_store {e : WatchEvent α} (h : Watched (e :: past)) :
    Delta.AllSuit (Mirrored.after past).mirror ((Mirrored.after past).reflector.step e).1 ∧
    (Mirrored.after (e :: past)).mirror = (Mirrored.after (e :: past)).reflector.store ∧
    (∀ id, (Mirrored.after (e :: past)).reflector.store.get? id = (Writer.after (e :: past)).store id) ∧
    ((listed (e :: past)).isSome → ((Mirrored.after past).reflector.step e).1 = [] ∧
      (Mirrored.after (e :: past)).reflector.store = (Mirrored.after past).reflector.store) :=
  ⟨((faithful_after h.tail).step h).1, (faithful_after h).mirror, congrFun (store_eq_written (e :: past)).1,
    fun hl => step_listing e hl h.order.1⟩

private def node (name version : String) : Node := { info := { name := some name, resourceVersion := some version } }

private def relisting : List (WatchEvent Node) :=
  [.initApply (node "d" "5"), .initApply (node "b" "4"), .initApply (node "a" "1"), .init, .apply (node "c" "3"),
    .initDone, .initApply (node "b" "2"), .initApply (node "a" "1"), .init]

/-- When the later listing is done, the changes are told that it has shown. -/
theorem mirror_relisted : Watched (.initDone :: relisting) ∧
    ((Mirrored.after relisting).reflector.step .initDone).1 =
      [.updated (node "b" "2") (node "b" "4"), .added (node "d" "5"), .deleted (node "c" "3")] ∧
    Delta.AllSuit (Mirrored.after relisting).mirror ((Mirrored.after relisting).reflector.step .initDone).1 ∧
    (Mirrored.after (.initDone :: relisting)).mirror.values = [node "a" "1", node "b" "4", node "d" "5"] ∧
    (∀ id, (Mirrored.after (.initDone :: relisting)).mirror.get? id =
      (Writer.after (.initDone :: relisting)).store id) := by
  have hw : Watched (.initDone :: relisting) := by
    refine ⟨?_, by decide +kernel, by decide +kernel⟩
    simp [InOrder, Next, relisting, listed, ObjectId.of, node, Resource.info, Meta.displayName]
  obtain ⟨hsuits, hstore, hwritten, _⟩ := mirror_eq_store hw
  exact ⟨hw, by decide +kernel, hsuits, by decide +kernel, fun id => hstore ▸ hwritten id⟩

end Reflector
end ServiceBalancer
