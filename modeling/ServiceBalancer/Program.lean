import ServiceBalancer.Duration

/-! Computations that put requests to their surroundings. What a request does is not said here, so
that one program can run alone, be suspended between requests, or be judged by its requests. -/
namespace ServiceBalancer

/-- A computation that puts requests `q` and goes on with their answers of type `A q`. -/
inductive Program {Q : Type} (A : Q → Type) (α : Type) : Type where
  | done (a : α)
  | ask (q : Q) (next : A q → Program A α)

namespace Program
variable {Q : Type} {A : Q → Type} {α β γ σ : Type}

def bind : Program A α → (α → Program A β) → Program A β
  | done a, f => f a
  | ask q next, f => ask q (fun a => (next a).bind f)

instance : Monad (Program A) where
  pure := done
  bind := bind

def request (q : Q) : Program A (A q) := ask q done

@[simp] theorem pure_eq (a : α) : (pure a : Program A α) = done a := rfl
@[simp] theorem done_bind (a : α) (f : α → Program A β) : (done a >>= f) = f a := rfl
@[simp] theorem ask_bind (q : Q) (next : A q → Program A α) (f : α → Program A β) :
    (ask q next >>= f) = ask q (fun a => next a >>= f) := rfl

theorem bind_done (p : Program A α) : (p >>= done) = p := by
  induction p with
  | done a => rfl
  | ask q next ih => simp [ih]

theorem bind_assoc (p : Program A α) (f : α → Program A β) (g : β → Program A γ) :
    (p >>= f >>= g) = (p >>= fun a => f a >>= g) := by
  induction p with
  | done a => rfl
  | ask q next ih => simp [ih]

instance : LawfulMonad (Program A) := LawfulMonad.mk' _ bind_done (fun _ _ => rfl) bind_assoc

/-- Runs a program to its end. The surroundings answer each request and change by it; a request
without an answer breaks the program off. -/
def run (answer : (q : Q) → σ → Option (A q) × σ) : Program A α → σ → Option α × σ
  | done a, s => (some a, s)
  | ask q next, s =>
    match answer q s with
    | (some a, s) => (next a).run answer s
    | (none, s) => (none, s)

/-- How surroundings that live in time take a request: with an answer at once, with an answer after
a pause, never, or by breaking the program off. -/
inductive Reply (α : Type) where
  | now (a : α)
  | after (pause : Duration) (a : α)
  | never
  | broken

inductive Progress {Q : Type} (A : Q → Type) (α : Type) where
  | finished (a : α)
  | paused (pause : Duration) (rest : Program A α)
  | stuck
  | broken

/-- Runs a program up to its end or its next pause. -/
def advance (reply : (q : Q) → σ → Reply (A q) × σ) : Program A α → σ → Progress A α × σ
  | done a, s => (.finished a, s)
  | ask q next, s =>
    match reply q s with
    | (.now a, s) => (next a).advance reply s
    | (.after pause a, s) => (.paused pause (next a), s)
    | (.never, s) => (.stuck, s)
    | (.broken, s) => (.broken, s)

end Program
end ServiceBalancer
