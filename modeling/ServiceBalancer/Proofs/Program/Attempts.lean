import ServiceBalancer.Proofs.Program.Protocol

/-! Attempts at a program, which break off if a request is not answered. Two protocols that a program obeys can be kept
side by side, so that what one says of a request shows that it is answered, and the other what comes of it. -/
namespace ServiceBalancer.Program
variable {Q : Type} {A : Q → Type} {α γ δ σ ι : Type}

/-- A run of a program at any moments, with others at work before each of its requests. It comes to its end, or breaks
off at a request that is not answered. -/
inductive Attempt (answer : ι → (q : Q) → σ → Option (A q) × σ) (others : σ → σ → Prop) :
    Program A α → σ → Option α → σ → Prop where
  | done (a : α) (s : σ) : Attempt answer others (.done a) s (some a) s
  | ask {q : Q} {next : A q → Program A α} {s s₁ s₂ s' : σ} {a : A q} {r : Option α} (i : ι) :
    others s s₁ → answer i q s₁ = (some a, s₂) → Attempt answer others (next a) s₂ r s' →
    Attempt answer others (.ask q next) s r s'
  | broken {q : Q} {next : A q → Program A α} {s s₁ s₂ : σ} (i : ι) :
    others s s₁ → answer i q s₁ = (none, s₂) → Attempt answer others (.ask q next) s none s₂

variable {answer : ι → (q : Q) → σ → Option (A q) × σ} {others : σ → σ → Prop} {p : Program A α} {s s' : σ}
  {r : Option α}

/-- If every allowed request is answered, an attempt comes to its end, and what the exchanges and the others keep holds
there. -/
theorem Obeys.attempt {P : Protocol A γ} {post : γ → α → Prop} {g : γ} (inv : γ → σ → Prop)
    (hothers : ∀ g s s', inv g s → others s s' → inv g s')
    (hanswer : ∀ g s i q, P.Allows g q → inv g s →
      ∃ a, (answer i q s).1 = some a ∧ inv (P.note g q a) (answer i q s).2)
    (h : Obeys P post g p) (hi : inv g s) (run : Attempt answer others p s r s') :
    ∃ a g', r = some a ∧ post g' a ∧ inv g' s' := by
  induction run generalizing g with
  | done a s => exact ⟨a, g, rfl, h, hi⟩
  | ask i ho ha _ ih =>
    obtain ⟨a', ha', hinv⟩ := hanswer _ _ i _ h.1 (hothers _ _ _ hi ho)
    rw [ha] at ha' hinv
    obtain rfl := Option.some.inj ha'
    exact ih (h.2 _) hinv
  | broken i ho ha =>
    obtain ⟨a', ha', _⟩ := hanswer _ _ i _ h.1 (hothers _ _ _ hi ho)
    rw [ha] at ha'
    cases ha'

end ServiceBalancer.Program
