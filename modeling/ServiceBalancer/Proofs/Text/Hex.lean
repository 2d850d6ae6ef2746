import ServiceBalancer.Text.Quoted

/-! Numbers can be read back from their digits to base sixteen, also behind leading zeros. Written with as many digits
they are in order as texts. -/
namespace ServiceBalancer.Text

def hexValue (c : Char) : Nat := if c ≤ '9' then c.toNat - '0'.toNat else c.toNat - 'a'.toNat + 10

def ofHexDigits (l : List Char) : Nat := l.foldl (fun n c => 16 * n + hexValue c) 0

private theorem hexValue_digitChar : ∀ d < 16, hexValue d.digitChar = d := by decide

theorem ofHexDigits_concat (l : List Char) (c : Char) :
    ofHexDigits (l ++ [c]) = 16 * ofHexDigits l + hexValue c := by
  simp [ofHexDigits]

@[simp] theorem ofHexDigits_hexDigits (n : Nat) : ofHexDigits (hexDigits n) = n := by
  induction n using Nat.strongRecOn with
  | ind n ih =>
    unfold hexDigits
    rw [Nat.toDigits_eq_if (by decide)]
    split
    · next hn => simpa [ofHexDigits] using hexValue_digitChar n hn
    · have hq : ofHexDigits (Nat.toDigits 16 (n / 16)) = n / 16 := ih (n / 16) (by omega)
      rw [ofHexDigits_concat, hq, hexValue_digitChar _ (Nat.mod_lt n (by decide))]
      omega

/-- Leading zeros do not count. -/
@[simp] theorem ofHexDigits_zeros (k : Nat) (l : List Char) :
    ofHexDigits (List.replicate k '0' ++ l) = ofHexDigits l := by
  have hz : (List.replicate k '0').foldl (fun n c => 16 * n + hexValue c) 0 = 0 := by
    induction k with
    | zero => rfl
    | succ k ih => simpa [List.replicate_succ, hexValue] using ih
  simp [ofHexDigits, hz]

/-! ### Order -/

def IsHexDigit (c : Char) : Prop := ∃ d < 16, c = Nat.digitChar d

instance : DecidablePred IsHexDigit := fun c => inferInstanceAs (Decidable (∃ d < 16, c = Nat.digitChar d))

theorem IsHexDigit.value_lt {c : Char} (h : IsHexDigit c) : hexValue c < 16 := by
  obtain ⟨d, hd, rfl⟩ := h
  rwa [hexValue_digitChar d hd]

/-- Digits are in the order of their values. -/
theorem IsHexDigit.lt {c d : Char} (hc : IsHexDigit c) (hd : IsHexDigit d) (h : hexValue c < hexValue d) : c < d := by
  obtain ⟨m, hm, rfl⟩ := hc
  obtain ⟨n, hn, rfl⟩ := hd
  rw [hexValue_digitChar m hm, hexValue_digitChar n hn] at h
  have hall : ∀ n < 16, ∀ m < n, m.digitChar < n.digitChar := by decide
  exact hall n hn m h

theorem IsHexDigit.eq {c d : Char} (hc : IsHexDigit c) (hd : IsHexDigit d) (h : hexValue c = hexValue d) : c = d := by
  obtain ⟨m, hm, rfl⟩ := hc
  obtain ⟨n, hn, rfl⟩ := hd
  rw [hexValue_digitChar m hm, hexValue_digitChar n hn] at h
  rw [h]

theorem isHexDigit_zero : IsHexDigit '0' := ⟨0, by decide, rfl⟩

theorem isHexDigit_of_mem_hexDigits {n : Nat} {c : Char} (h : c ∈ hexDigits n) : IsHexDigit c := by
  induction n using Nat.strongRecOn with
  | ind n ih =>
    unfold hexDigits at h
    rw [Nat.toDigits_eq_if (by decide)] at h
    split at h
    · next hn => exact ⟨n, hn, List.mem_singleton.mp h⟩
    · rcases List.mem_append.mp h with h | h
      · exact ih (n / 16) (by omega) h
      · exact ⟨n % 16, Nat.mod_lt n (by decide), List.mem_singleton.mp h⟩

private theorem foldl_hexDigits_lt {l l' : List Char} (hl : ∀ c ∈ l, IsHexDigit c) (hlen : l.length = l'.length)
    {m n : Nat} (h : m < n) :
    l.foldl (fun n c => 16 * n + hexValue c) m < l'.foldl (fun n c => 16 * n + hexValue c) n := by
  induction l generalizing l' m n with
  | nil =>
    obtain rfl := List.length_eq_zero_iff.mp hlen.symm
    exact h
  | cons c l ih =>
    cases l' with
    | nil => cases hlen
    | cons d l' =>
      have hc := (hl c (.head _)).value_lt
      have hahead : 16 * m + hexValue c < 16 * n + hexValue d := by omega
      exact ih (fun x hx => hl x (.tail _ hx)) (Nat.succ.inj hlen) hahead

/-- Of two numbers with as many digits the smaller one comes first as a text. -/
theorem lt_of_ofHexDigits_lt {l l' : List Char} (hl : ∀ c ∈ l, IsHexDigit c) (hl' : ∀ c ∈ l', IsHexDigit c)
    (hlen : l.length = l'.length) (h : ofHexDigits l < ofHexDigits l') : l < l' := by
  unfold ofHexDigits at h
  generalize 0 = n at h
  induction l generalizing l' n with
  | nil =>
    obtain rfl := List.length_eq_zero_iff.mp hlen.symm
    simp at h
  | cons c l ih =>
    cases l' with
    | nil => cases hlen
    | cons d l' =>
      have hmany : l.length = l'.length := Nat.succ.inj hlen
      have hc := hl c (.head _)
      have hd := hl' d (.head _)
      have hrest : ∀ x ∈ l, IsHexDigit x := fun x hx => hl x (.tail _ hx)
      have hrest' : ∀ x ∈ l', IsHexDigit x := fun x hx => hl' x (.tail _ hx)
      rw [List.foldl_cons, List.foldl_cons] at h
      refine List.cons_lt_cons_iff.mpr ?_
      rcases Nat.lt_trichotomy (hexValue c) (hexValue d) with hlt | heq | hgt
      · exact .inl (hc.lt hd hlt)
      · obtain rfl := hc.eq hd heq
        exact .inr ⟨rfl, ih hrest hrest' hmany _ h⟩
      · exact absurd h (Nat.lt_asymm (foldl_hexDigits_lt hrest' hmany.symm (by omega)))

end ServiceBalancer.Text
