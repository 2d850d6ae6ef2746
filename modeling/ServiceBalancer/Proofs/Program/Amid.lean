import ServiceBalancer.Proofs.Program.Protocol

/-! Runs of a program while others act on its surroundings. -/
namespace ServiceBalancer.Program
variable {Q : Type} {A : Q → Type} {α β γ σ ι : Type}

/-- A run of a program to its end, at any moments, with others at work before each of its requests. The exchanges
are added to those before, newest first. -/
inductive Amid (answer : ι → (q : Q) → σ → Option (A q) × σ) (others : σ → σ → Prop) :
    Program A α → List (Exchange A) → σ → α → List (Exchange A) → σ → Prop where
  | done (a : α) (log : List (Exchange A)) (s : σ) : Amid answer others (.done a) log s a log s
  | ask {q : Q} {next : A q → Program A α} {log log' : List (Exchange A)} {s s₁ s₂ s' : σ} {a : A q} {r : α} (i : ι) :
    others s s₁ → answer i q s₁ = (some a, s₂) → Amid answer others (next a) (⟨q, a⟩ :: log) s₂ r log' s' →
    Amid answer others (.ask q next) log s r log' s'

variable {answer : ι → (q : Q) → σ → Option (A q) × σ} {others : σ → σ → Prop} {p : Program A α}
  {log log' : List (Exchange A)} {s s' : σ} {r : α}

/-- A program that runs by itself does so if others need not do anything. -/
theorem amid_of_talk (i : ι) (ho : ∀ s, others s s) (h : p.talk (answer i) log s = (some r, log', s')) :
    Amid answer others p log s r log' s' := by
  induction p generalizing log s with
  | done a =>
    cases h
    exact .done _ _ _
  | ask q next ih =>
    simp only [talk] at h
    split at h
    · next a s₁ ha => exact .ask i (ho s) ha (ih a h)
    · cases h

/-- What every allowed exchange keeps, and others keep too, holds at the end. -/
theorem Obeys.amid {P : Protocol A γ} {post : γ → α → Prop} {start g : γ} (inv : γ → σ → Prop)
    (hothers : ∀ g s s', inv g s → others s s' → inv g s')
    (hstep : ∀ g s i q a s', P.Allows g q → inv g s → answer i q s = (some a, s') → inv (P.note g q a) s')
    (h : Obeys P post g p) (hg : P.noted start log = g) (hi : inv g s) (hr : Amid answer others p log s r log' s') :
    post (P.noted start log') r ∧ inv (P.noted start log') s' := by
  subst hg
  induction hr with
  | done a log s => exact ⟨h, hi⟩
  | ask i ho ha _ ih => exact ih (h.2 _) (hstep _ _ _ _ _ _ h.1 (hothers _ _ _ hi ho) ha)

/-! ### Surroundings with a choice of answers -/

/-- A request with its answer, and the surroundings just before and just after it. -/
structure Visit (A : Q → Type) (σ : Type) where
  request : Q
  answer : A request
  before : σ
  after : σ

/-- A run of a program to its end in surroundings that may answer in several ways, with others at work before each of
its requests. Its visits are given in order. -/
inductive Among (serves : σ → (q : Q) → A q → σ → Prop) (others : σ → σ → Prop) :
    Program A α → σ → List (Visit A σ) → α → σ → Prop where
  | done (a : α) (s : σ) : Among serves others (.done a) s [] a s
  | ask {q : Q} {next : A q → Program A α} {a : A q} {s before after s' : σ} {visits : List (Visit A σ)} {r : α} :
    others s before → serves before q a after → Among serves others (next a) after visits r s' →
    Among serves others (.ask q next) s (⟨q, a, before, after⟩ :: visits) r s'

section Among
variable {serves : σ → (q : Q) → A q → σ → Prop} {visits : List (Visit A σ)}

theorem among_done {a : α} : Among serves others (.done a) s visits r s' ↔ visits = [] ∧ a = r ∧ s = s' := by
  constructor
  · intro h
    cases h
    exact ⟨rfl, rfl, rfl⟩
  · rintro ⟨rfl, rfl, rfl⟩
    exact .done _ _

theorem among_ask {q : Q} {next : A q → Program A α} : Among serves others (.ask q next) s visits r s' ↔
    ∃ a before after rest, visits = ⟨q, a, before, after⟩ :: rest ∧ others s before ∧ serves before q a after ∧
      Among serves others (next a) after rest r s' := by
  constructor
  · intro h
    cases h with
    | ask ho hs hr => exact ⟨_, _, _, _, rfl, ho, hs, hr⟩
  · rintro ⟨a, before, after, rest, rfl, ho, hs, hr⟩
    exact .ask ho hs hr

theorem among_bind {p : Program A α} {f : α → Program A β} {r : β} :
    Among serves others (p >>= f) s visits r s' ↔ ∃ a mid first second, visits = first ++ second ∧
      Among serves others p s first a mid ∧ Among serves others (f a) mid second r s' := by
  constructor
  · intro h
    induction p generalizing s visits with
    | done a => exact ⟨a, s, [], visits, rfl, .done a s, h⟩
    | ask q next ih =>
      obtain ⟨a, before, after, rest, rfl, ho, hs, hrest⟩ := among_ask.mp h
      obtain ⟨b, mid, first, second, rfl, hfirst, hsecond⟩ := ih a hrest
      exact ⟨b, mid, _, second, rfl, .ask ho hs hfirst, hsecond⟩
  · rintro ⟨a, mid, first, second, rfl, hfirst, hsecond⟩
    induction hfirst with
    | done a s => exact hsecond
    | ask ho hs _ ih => exact .ask ho hs (ih hsecond)

/-- What every allowed visit keeps, and others keep too, holds at the end of a run. -/
theorem Obeys.among {P : Protocol A γ} {post : γ → α → Prop} {g : γ} (inv : γ → σ → Prop)
    (hothers : ∀ g s s', inv g s → others s s' → inv g s')
    (hserves : ∀ g s q a s', P.Allows g q → inv g s → serves s q a s' → inv (P.note g q a) s')
    (h : Obeys P post g p) (hi : inv g s) (hr : Among serves others p s visits r s') :
    post (visits.foldl (fun g v => P.note g v.request v.answer) g) r ∧
      inv (visits.foldl (fun g v => P.note g v.request v.answer) g) s' := by
  induction hr generalizing g with
  | done a s => exact ⟨h, hi⟩
  | ask ho hs _ ih => exact ih (h.2 _) (hserves _ _ _ _ _ h.1 (hothers _ _ _ hi ho) hs)

end Among

end ServiceBalancer.Program
