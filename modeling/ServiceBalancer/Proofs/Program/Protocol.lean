import ServiceBalancer.Retry

/-! Protocols of programs. A protocol keeps track of a program's exchanges and says which request is
allowed after them. That a program obeys it is shown part by part, whatever the answers are, and
then holds whoever else acts between its requests. -/
namespace ServiceBalancer
namespace Program
variable {Q : Type} {A : Q → Type} {α β γ σ : Type}

structure Exchange (A : Q → Type) where
  request : Q
  answer : A request

structure Protocol (A : Q → Type) (γ : Type) where
  note : γ → (q : Q) → A q → γ
  Allows : γ → Q → Prop

def Protocol.noted (P : Protocol A γ) (g : γ) (log : List (Exchange A)) : γ :=
  log.foldr (fun x g => P.note g x.request x.answer) g

@[simp] theorem Protocol.noted_nil (P : Protocol A γ) (g : γ) : P.noted g [] = g := rfl
@[simp] theorem Protocol.noted_cons (P : Protocol A γ) (g : γ) (x : Exchange A) (log : List (Exchange A)) :
    P.noted g (x :: log) = P.note (P.noted g log) x.request x.answer := rfl

/-- Whether every request of a program is allowed when it is put, and every end of it satisfies `post`. -/
def Obeys (P : Protocol A γ) (post : γ → α → Prop) : γ → Program A α → Prop
  | g, done a => post g a
  | g, ask q next => P.Allows g q ∧ ∀ a, Obeys P post (P.note g q a) (next a)

variable {P : Protocol A γ} {post : γ → α → Prop} {post' : γ → β → Prop} {g : γ}

@[simp] theorem obeys_done (a : α) : Obeys P post g (.done a) ↔ post g a := Iff.rfl

@[simp] theorem obeys_ask (q : Q) (next : A q → Program A α) : Obeys P post g (.ask q next) ↔
    P.Allows g q ∧ ∀ a, Obeys P post (P.note g q a) (next a) := Iff.rfl

theorem Obeys.mono {p : Program A α} {wider : γ → α → Prop} (h : Obeys P post g p)
    (hp : ∀ g a, post g a → wider g a) : Obeys P wider g p := by
  induction p generalizing g with
  | done a => exact hp g a h
  | ask q next ih => exact ⟨h.1, fun a => ih a (h.2 a)⟩

theorem Obeys.bind {p : Program A α} {f : α → Program A β}
    (h : Obeys P (fun g a => Obeys P post' g (f a)) g p) : Obeys P post' g (p >>= f) := by
  induction p generalizing g with
  | done a => exact h
  | ask q next ih => exact ⟨h.1, fun a => ih a (h.2 a)⟩

/-! ### Talks -/

/-- Runs a program to its end and adds its exchanges to those before, newest first. -/
def talk (answer : (q : Q) → σ → Option (A q) × σ) :
    Program A α → List (Exchange A) → σ → Option α × List (Exchange A) × σ
  | done a, log, s => (some a, log, s)
  | ask q next, log, s =>
    match answer q s with
    | (some a, s) => (next a).talk answer (⟨q, a⟩ :: log) s
    | (none, s) => (none, log, s)

/-- Keeping the exchanges changes nothing about a run. -/
theorem talk_run (answer : (q : Q) → σ → Option (A q) × σ) (p : Program A α) (log : List (Exchange A)) (s : σ) :
    p.run answer s = ((p.talk answer log s).1, (p.talk answer log s).2.2) := by
  induction p generalizing log s with
  | done a => rfl
  | ask q next ih =>
    simp only [run, Program.talk]
    rcases answer q s with ⟨_ | a, s⟩
    · rfl
    · exact ih a _ s

/-- What every allowed exchange keeps, of the exchanges so far too, holds at the end of a talk. -/
theorem Obeys.talk_log {start : γ} (answer : (q : Q) → σ → Option (A q) × σ)
    (inv broken : List (Exchange A) → σ → Prop)
    (hstep : ∀ log s q a, P.Allows (P.noted start log) q → inv log s → (answer q s).1 = some a →
      inv (⟨q, a⟩ :: log) (answer q s).2)
    (hbreak : ∀ log s q, P.Allows (P.noted start log) q → inv log s → (answer q s).1 = none → broken log (answer q s).2)
    {p : Program A α} {log : List (Exchange A)} {s : σ} (h : Obeys P post (P.noted start log) p) (hi : inv log s) :
    match p.talk answer log s with
    | (some a, log, s) => post (P.noted start log) a ∧ inv log s
    | (none, log, s) => broken log s := by
  induction p generalizing log s with
  | done a => exact ⟨h, hi⟩
  | ask q next ih =>
    have hnext := fun a => hstep log s q a h.1 hi
    have hbroken := hbreak log s q h.1 hi
    simp only [Program.talk]
    rcases hq : answer q s with ⟨_ | a, s'⟩
    all_goals rw [hq] at hnext hbroken
    · exact hbroken rfl
    · exact ih a (h.2 a) (hnext a rfl)

/-- The end of a talk satisfies what every end does. -/
theorem Obeys.talk_end {start : γ} (answer : (q : Q) → σ → Option (A q) × σ) {p : Program A α}
    (h : Obeys P post start p) {s s' : σ} {log : List (Exchange A)} {a : α}
    (ht : p.talk answer [] s = (some a, log, s')) : post (P.noted start log) a := by
  have hend : match p.talk answer [] s with
      | (some a, log, _) => post (P.noted start log) a ∧ True
      | (none, _, _) => True :=
    h.talk_log answer (fun _ _ => True) (fun _ _ => True) (fun _ _ _ _ _ _ _ => trivial)
      (fun _ _ _ _ _ _ => trivial) trivial
  rw [ht] at hend
  exact hend.1

/-- What every allowed exchange keeps of the exchanges so far holds of all exchanges of a talk, also of one that breaks
off. -/
theorem Obeys.talk_keeps {start : γ} (answer : (q : Q) → σ → Option (A q) × σ) {p : Program A α}
    (h : Obeys P post start p) (inv : List (Exchange A) → Prop)
    (hstep : ∀ log q a, P.Allows (P.noted start log) q → inv log → inv (⟨q, a⟩ :: log)) (hi : inv []) (s : σ) :
    inv (p.talk answer [] s).2.1 := by
  have hend : match p.talk answer [] s with
      | (some a, log, _) => post (P.noted start log) a ∧ inv log
      | (none, log, _) => inv log :=
    h.talk_log answer (fun log _ => inv log) (fun log _ => inv log) (fun log _ q a hq hi _ => hstep log q a hq hi)
      (fun _ _ _ _ hi _ => hi) hi
  rcases ht : p.talk answer [] s with ⟨_ | a, log, s'⟩
  all_goals rw [ht] at hend
  · exact hend
  · exact hend.2

/-- Each exchange of a talk was allowed after those before it. -/
theorem Obeys.talk_allowed {start : γ} (answer : (q : Q) → σ → Option (A q) × σ) {p : Program A α}
    (h : Obeys P post start p) (s : σ) {later earlier : List (Exchange A)} {x : Exchange A}
    (hlog : (p.talk answer [] s).2.1 = later ++ x :: earlier) : P.Allows (P.noted start earlier) x.request := by
  refine h.talk_keeps answer
    (fun log => ∀ later x earlier, log = later ++ x :: earlier → P.Allows (P.noted start earlier) x.request)
    (fun log q a hq hi later x earlier he => ?_) (fun later x earlier he => absurd he (by simp)) s later x earlier hlog
  cases later with
  | nil =>
    cases he
    exact hq
  | cons y later => exact hi later x earlier (List.cons.inj he).2

/-- What every allowed exchange keeps holds at the end of a talk. -/
theorem Obeys.talk {start : γ} (answer : (q : Q) → σ → Option (A q) × σ) (log : List (Exchange A))
    (inv broken : γ → σ → Prop)
    (hstep : ∀ g s q a s', P.Allows g q → inv g s → answer q s = (some a, s') → inv (P.note g q a) s')
    (hbreak : ∀ g s q s', P.Allows g q → inv g s → answer q s = (none, s') → broken g s')
    {p : Program A α} {s : σ} (h : Obeys P post g p) (hg : P.noted start log = g)
    (hi : inv g s) :
    match p.talk answer log s with
    | (some a, log, s) => post (P.noted start log) a ∧ inv (P.noted start log) s
    | (none, log, s) => broken (P.noted start log) s := by
  subst hg
  exact h.talk_log answer (fun log => inv (P.noted start log)) (fun log => broken (P.noted start log))
    (fun _ _ _ _ hq hi ha => hstep _ _ _ _ _ hq hi (Prod.ext ha rfl))
    (fun _ _ _ hq hi ha => hbreak _ _ _ _ hq hi (Prod.ext ha rfl)) hi

end Program

namespace Retry
open Program
variable {Q : Type} {A : Q → Type} {γ : Type} {P : Protocol A γ} {post : γ → Except Error Unit → Prop}
  {again : γ → Prop} {g : γ}

def Tried (again : γ → Prop) (post : γ → Except Error Unit → Prop) (g : γ) : Except Error Unit → Prop
  | .ok () => post g (.ok ())
  | .error e => if e.isTryAgain then again g ∧ ∀ n, post g (.error (.retryExhausted n e)) else post g (.error e)

theorem obeys_pause {io : Pausing A} (hs : ∀ g d, again g → Obeys P (fun g _ => again g) g (io.sleep d))
    (hd : ∀ g, again g → Obeys P (fun g _ => again g) g io.draw) (ha : again g) (delay : Duration) (jitter : Float) :
    Obeys P (fun g _ => again g) g (pause io delay jitter) := by
  unfold pause
  split
  · exact .bind ((hd g ha).mono fun g _ ha => hs g _ ha)
  · exact hs g delay ha

/-- What the try of some number may come to, if the next one may be made under `again` and `last` is the last one. -/
def TriedAt (again : Nat → γ → Prop) (post : γ → Except Error Unit → Prop) (last attempt : Nat) (g : γ) :
    Except Error Unit → Prop
  | .ok () => post g (.ok ())
  | .error e =>
    if e.isTryAgain then (attempt < last → again (attempt + 1) g) ∧
      (attempt = last → post g (.error (.retryExhausted last e)))
    else post g (.error e)

/-- Tries obey a protocol up to the last one if each does, and a failed one before it leaves things so that the next one
may be made. -/
theorem obeys_triesAt {io : Pausing A} {policy : RetryPolicy} {op : Program A (Except Error Unit)}
    {again : Nat → γ → Prop} {last : Nat}
    (hs : ∀ n g d, again n g → Obeys P (fun g _ => again n g) g (io.sleep d))
    (hd : ∀ n g, again n g → Obeys P (fun g _ => again n g) g io.draw)
    (hop : ∀ n g, n ≤ last → again n g → Obeys P (TriedAt again post last n) g op) (left attempt : Nat)
    (delay : Duration) (hlast : attempt + left = last) (ha : again attempt g) :
    Obeys P post g (tryFrom io policy op left attempt delay) := by
  induction left generalizing g attempt delay with
  | zero =>
    refine .bind ((hop attempt g (by omega) ha).mono fun g r hr => ?_)
    rcases r with e | ⟨⟩
    · by_cases he : e.isTryAgain
      · simp only [TriedAt, he, if_true] at hr
        obtain rfl : attempt = last := hlast
        simpa [he] using hr.2 rfl
      · simpa [TriedAt, he] using hr
    · exact hr
  | succ left ih =>
    refine .bind ((hop attempt g (by omega) ha).mono fun g r hr => ?_)
    rcases r with e | ⟨⟩
    · by_cases he : e.isTryAgain
      · simp only [TriedAt, he, if_true] at hr
        have hnext : again (attempt + 1) g := hr.1 (by omega)
        simp only [he, if_true]
        exact .bind ((obeys_pause (hs _) (hd _) hnext delay policy.jitter).mono fun g _ ha =>
          ih _ _ (by omega) ha)
      · simpa [TriedAt, he] using hr
    · exact hr

/-- The tries are numbered from one, and there is at least one. -/
theorem obeys_retryAt {io : Pausing A} {policy : RetryPolicy} {op : Program A (Except Error Unit)}
    (again : Nat → γ → Prop) (hs : ∀ n g d, again n g → Obeys P (fun g _ => again n g) g (io.sleep d))
    (hd : ∀ n g, again n g → Obeys P (fun g _ => again n g) g io.draw)
    (hop : ∀ n g, n ≤ max 1 policy.steps → again n g → Obeys P (TriedAt again post (max 1 policy.steps) n) g op)
    (ha : again 1 g) : Obeys P post g (retry io policy op) :=
  obeys_triesAt hs hd hop _ _ _ (by omega) ha

variable (again) in
/-- A retried operation obeys a protocol if each try does, and a failed one leaves things so that it
may be tried again. -/
theorem obeys_retry {io : Pausing A} {policy : RetryPolicy} {op : Program A (Except Error Unit)}
    (hs : ∀ g d, again g → Obeys P (fun g _ => again g) g (io.sleep d))
    (hd : ∀ g, again g → Obeys P (fun g _ => again g) g io.draw)
    (hop : ∀ g, again g → Obeys P (Tried again post) g op) (ha : again g) :
    Obeys P post g (retry io policy op) := by
  refine obeys_retryAt (fun _ => again) (fun _ => hs) (fun _ => hd) (fun n g _ ha => (hop g ha).mono fun g r hr => ?_) ha
  rcases r with e | ⟨⟩
  · by_cases he : e.isTryAgain
    · simp only [Tried, he, if_true] at hr
      simpa [TriedAt, he] using ⟨fun _ => hr.1, fun _ => hr.2 _⟩
    · simpa [Tried, TriedAt, he] using hr
  · exact hr

end Retry
end ServiceBalancer
