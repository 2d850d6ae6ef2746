import ServiceBalancer.Proofs.Number.Reading

/-! The arithmetic of floating point numbers: a product, quotient or sum is the exact one, rounded to the grid, or
infinite from `2 ^ 1024` on. -/
namespace ServiceBalancer.Number
open Float.Model Float.Model.UnpackedFloat

/-! ### Rounding of what was computed exactly -/

theorem log_eq {m : ℕ} (hm : 0 < m) {q : ℚ} (hq : ⌊q⌋₊ = m) (e : ℤ) :
    Int.log 2 (q * 2 ^ e) = totalExponent m e - 1 := by
  have hq0 : 0 ≤ q := by
    by_contra h
    rw [Nat.floor_of_nonpos (by linarith)] at hq
    omega
  obtain ⟨hlow, hhigh⟩ := (Nat.floor_eq_iff hq0).mp hq
  have he : (0 : ℚ) < 2 ^ e := zpow_pos two_pos e
  have hpos : 0 < q * 2 ^ e := mul_pos ((by exact_mod_cast hm : (0 : ℚ) < m).trans_le hlow) he
  have hbelow : (2 : ℚ) ^ ((m.log2 : ℤ) + e) ≤ q * 2 ^ e := by
    have h : (2 : ℚ) ^ m.log2 ≤ m := by exact_mod_cast Nat.log2_self_le hm.ne'
    rw [zpow_add₀ two_ne_zero, zpow_natCast]
    exact mul_le_mul_of_nonneg_right (h.trans hlow) he.le
  have habove : q * 2 ^ e < (2 : ℚ) ^ ((m.log2 : ℤ) + e + 1) := by
    have h : (m : ℚ) + 1 ≤ 2 ^ (m.log2 + 1) := by exact_mod_cast Nat.lt_log2_self
    have h' : (2 : ℚ) ^ ((m.log2 : ℤ) + e + 1) = 2 ^ (m.log2 + 1) * 2 ^ e := by
      rw [← zpow_natCast, ← zpow_add₀ two_ne_zero]
      congr 1
      push_cast
      ring
    rw [h']
    exact mul_lt_mul_of_pos_right (hhigh.trans_le h) he
  have h₁ := (Int.zpow_le_iff_le_log (b := 2) one_lt_two hpos).mp (by exact_mod_cast hbelow)
  have h₂ := (Int.lt_zpow_iff_log_lt (b := 2) one_lt_two hpos).mp (by exact_mod_cast habove)
  rw [totalExponent]
  omega

private theorem targetExponent_eq (t : ℤ) : Format.binary64.targetExponent t = max (t - 53) (-1074) := rfl

theorem place_eq {m : ℕ} (hm : 0 < m) {q : ℚ} (hq : ⌊q⌋₊ = m) (e : ℤ) :
    place (q * 2 ^ e) = Format.binary64.targetExponent (totalExponent m e) := by
  rw [place, log_eq hm hq e, targetExponent_eq]
  omega

private theorem settle {r : ℕ} {p : ℤ} (hr : r ≤ 2 ^ 53) (hp : -1074 ≤ p) (hfull : 2 ^ 52 ≤ r ∨ p = -1074) :
    ∃ n f, (shiftToTargetExponent Format.binary64 r p .exact).1.mantissa = n ∧
      (shiftToTargetExponent Format.binary64 r p .exact).2 = f ∧ (n : ℚ) * 2 ^ f = r * 2 ^ p ∧ Canonical n f := by
  have htotal : totalExponent r p = r.log2 + 1 + p := rfl
  have htarget := targetExponent_eq (totalExponent r p)
  rcases hr.lt_or_eq with hlt | rfl
  · have hlog : r.log2 ≤ 52 := by
      rcases Nat.eq_zero_or_pos r with rfl | hpos
      · simp
      · have := (Nat.log2_lt hpos.ne').mpr hlt
        omega
    have hshift : (Format.binary64.targetExponent (totalExponent r p) - p).toNat = 0 := by omega
    refine ⟨r, p, ?_, ?_, rfl, hlt, hp, hfull⟩
    · rw [shiftToTargetExponent, shiftToExponent, hshift]
      rfl
    · rw [shiftToTargetExponent, shiftToExponent, hshift]
      exact add_zero p
  · have hlog : (2 ^ 53 : ℕ).log2 = 53 := Nat.log2_two_pow
    have hshift : (Format.binary64.targetExponent (totalExponent (2 ^ 53) p) - p).toNat = 1 := by omega
    refine ⟨2 ^ 52, p + 1, ?_, ?_, ?_, by norm_num, by omega, .inl le_rfl⟩
    · rw [shiftToTargetExponent, shiftToExponent, hshift]
      rfl
    · rw [shiftToTargetExponent, shiftToExponent, hshift]
      rfl
    · rw [zpow_add₀ two_ne_zero]
      push_cast
      ring

theorem round_spec (s : Sign) {m : ℕ} (hm : 0 < m) {e : ℤ} {acc : Accuracy} {q : ℚ}
    (hq : Represents (ExtendedMantissa.ofMantissaAndAccuracy m acc) q) (he : e ≤ place (q * 2 ^ e)) :
    ∃ (n : ℕ) (f : ℤ), (n : ℚ) * 2 ^ f = rounded (q * 2 ^ e) ∧ Canonical n f ∧
      roundWithAccuracy Format.binary64 s m e acc =
        if h : n = 0 then .zero s else .finite s n f (Nat.pos_of_ne_zero h) := by
  have hmant : (ExtendedMantissa.ofMantissaAndAccuracy m acc).mantissa = m := by
    rcases acc with _ | (_ | _ | _) <;> rfl
  have hplace := place_eq hm (hq.floor.trans hmant) e
  set v : ℚ := q * 2 ^ e with hv
  have hpos : 0 < v := by
    have hq0 : (1 : ℚ) ≤ q := by
      have h : 1 ≤ ⌊q⌋₊ := by rw [hq.floor, hmant]; exact hm
      exact (Nat.one_le_floor_iff q).mp h
    exact mul_pos (by linarith) (zpow_pos two_pos e)
  have hk : e + ((place v - e).toNat : ℤ) = place v := by omega
  have hcut : q / 2 ^ (place v - e).toNat = v / 2 ^ place v := by
    rw [hv, div_eq_div_iff (by positivity) (by positivity), ← hv, mul_assoc, ← zpow_natCast, ← zpow_add₀ two_ne_zero, hk]
  have hfirst : ((ExtendedMantissa.ofMantissaAndAccuracy m acc) >>> (place v - e).toNat).roundedMantissa =
      toEven (v / 2 ^ place v) := by
    rw [(hq.shiftRight _).roundedMantissa, hcut]
  have hlow : -1074 ≤ place v := le_max_right _ _
  obtain ⟨n, f, hn, hf, hvalue, hc⟩ := settle (digits_le v) hlow (digits_full hpos)
  refine ⟨n, f, hvalue, hc, ?_⟩
  have hstep : shiftToTargetExponent Format.binary64 m e acc =
      ((ExtendedMantissa.ofMantissaAndAccuracy m acc) >>> (place v - e).toNat, place v) := by
    rw [shiftToTargetExponent, ← hplace, shiftToExponent, hk]
  unfold roundWithAccuracy
  rw [hstep]
  simp only [hfirst, hn, hf]

/-- A number in canonical shape is finite up to the exponent 971. -/
theorem Canonical.lt_iff {m : ℕ} {e : ℤ} (hc : Canonical m e) : (m : ℚ) * 2 ^ e < 2 ^ 1024 ↔ e ≤ 971 := by
  obtain ⟨hlt, hlow, hfull⟩ := hc
  have hpower : ∀ k : ℕ, ∀ f : ℤ, (k : ℤ) + f = 1024 → (2 : ℚ) ^ k * 2 ^ f = 2 ^ 1024 := by
    intro k f h
    rw [← zpow_natCast, ← zpow_add₀ two_ne_zero, h]
    rfl
  constructor
  · intro h
    by_contra htop
    have hbig : (2 : ℚ) ^ 1024 ≤ m * 2 ^ e :=
      calc (2 : ℚ) ^ 1024 = 2 ^ 52 * 2 ^ (972 : ℤ) := (hpower 52 972 rfl).symm
        _ ≤ 2 ^ 52 * 2 ^ e := mul_le_mul_of_nonneg_left (two_zpow_mono (by omega)) (by positivity)
        _ ≤ m * 2 ^ e := mul_le_mul_of_nonneg_right (by exact_mod_cast hfull.resolve_right (by omega)) (by positivity)
    exact absurd h (not_lt.mpr hbig)
  · intro htop
    calc (m : ℚ) * 2 ^ e < 2 ^ 53 * 2 ^ e := mul_lt_mul_of_pos_right (by exact_mod_cast hlt) (by positivity)
      _ ≤ 2 ^ 53 * 2 ^ (971 : ℤ) := mul_le_mul_of_nonneg_left (two_zpow_mono htop) (by positivity)
      _ = 2 ^ 1024 := hpower 53 971 rfl

/-! ### Values -/

/-- Whether a floating point number is finite with a given sign and magnitude. -/
def Holds (x : Float) (negative : Bool) (v : ℚ) : Prop :=
  ∃ m e, Binary64.ofFloat x = .finite negative m e ∧ (m : ℚ) * 2 ^ e = v

def Rounds (x : Float) (negative : Bool) (v : ℚ) : Prop :=
  if rounded v < 2 ^ 1024 then Holds x negative (rounded v) else Binary64.ofFloat x = .infinite negative

variable {x y : Float} {s t : Bool} {v w : ℚ}

theorem Holds.nonneg (h : Holds x s v) : 0 ≤ v := by
  obtain ⟨m, e, -, rfl⟩ := h
  positivity

theorem Holds.unique (h : Holds x s v) (h' : Holds x t w) : v = w := by
  obtain ⟨m, e, hx, rfl⟩ := h
  obtain ⟨n, f, hx', rfl⟩ := h'
  rw [hx] at hx'
  cases hx'
  rfl

theorem Holds.rounded_eq (h : Holds x s v) : rounded v = v := by
  obtain ⟨m, e, hx, rfl⟩ := h
  obtain ⟨hlt, hlow, -⟩ := (canonical_of_ofFloat hx).1
  exact rounded_of_digits hlt.le hlow

theorem Rounds.finite (h : Rounds x s v) (hlt : rounded v < 2 ^ 1024) : Holds x s (rounded v) := by
  rwa [Rounds, if_pos hlt] at h

theorem Rounds.infinite (h : Rounds x s v) (hge : ¬ rounded v < 2 ^ 1024) : Binary64.ofFloat x = .infinite s := by
  rwa [Rounds, if_neg hge] at h

theorem Rounds.holds (h : Rounds x s v) (hv : 0 ≤ v) (hle : v ≤ 2 ^ (1023 : ℤ)) : Holds x s (rounded v) := by
  have hsmall : rounded v ≤ 2 ^ (1023 : ℤ) := rounded_le_zpow (by norm_num) hv hle
  have hlt : (2 : ℚ) ^ (1023 : ℤ) < 2 ^ 1024 := by
    rw [← zpow_natCast]
    exact zpow_lt_zpow_right₀ one_lt_two (by norm_num)
  exact h.finite (hsmall.trans_lt hlt)

/-- What holds a value is zero, or has a mantissa and an exponent. -/
theorem Holds.unpack (h : Holds x s v) :
    (∃ σ, isNegative σ = s ∧ x.toModel.unpack = .zero σ ∧ v = 0) ∨
      ∃ σ m e, ∃ hm : 0 < m, isNegative σ = s ∧ x.toModel.unpack = .finite σ m e hm ∧ (m : ℚ) * 2 ^ e = v ∧
        Canonical m e := by
  obtain ⟨m, e, hx, rfl⟩ := h
  have hc := (canonical_of_ofFloat hx).1
  rw [ofFloat_eq] at hx
  rcases hu : x.toModel.unpack with _ | σ | σ | ⟨σ, m', e', hm⟩ <;> rw [hu] at hx <;> cases hx
  · exact .inl ⟨σ, rfl, rfl, by simp⟩
  · exact .inr ⟨σ, m, e, hm, rfl, rfl, rfl, hc⟩

private theorem rounds_pack (σ : Sign) {n : ℕ} {f : ℤ} (hn : 0 < n) (hc : Canonical n f) :
    Rounds (.ofModel (.pack (.finite σ n f hn))) (isNegative σ) (n * 2 ^ f) := by
  have hread : Binary64.ofFloat (.ofModel (.pack (.finite σ n f hn))) =
      ofParts (Float.Model.pack (.finite σ n f hn)).unpack := ofFloat_eq _
  rw [Rounds, rounded_of_digits hc.1.le hc.2.1, Holds, hread, read_pack σ hn hc]
  by_cases htop : f ≤ 971
  · rw [if_pos htop, if_pos (hc.lt_iff.mpr htop)]
    exact ⟨n, f, rfl, rfl⟩
  · rw [if_neg htop, if_neg (mt hc.lt_iff.mp htop)]

private theorem rounds_zero (σ : Sign) : Rounds (.ofModel (.pack (.zero σ))) (isNegative σ) 0 := by
  rw [Rounds, rounded_zero, if_pos (by norm_num)]
  refine ⟨0, -1074, ?_, by simp⟩
  cases σ <;> rfl

/-- Rounding twice is rounding once. -/
theorem rounds_rounded : Rounds x s (rounded v) ↔ Rounds x s v := by
  rw [Rounds, Rounds, rounded_rounded]

theorem rounds_round_spec (σ : Sign) {m : ℕ} (hm : 0 < m) {e : ℤ} {acc : Accuracy} {q : ℚ}
    (hq : Represents (ExtendedMantissa.ofMantissaAndAccuracy m acc) q) (he : e ≤ place (q * 2 ^ e)) :
    Rounds (.ofModel (.pack (roundWithAccuracy Format.binary64 σ m e acc))) (isNegative σ) (q * 2 ^ e) := by
  obtain ⟨n, f, hvalue, hc, heq⟩ := round_spec σ hm hq he
  rw [← rounds_rounded, ← hvalue, heq]
  rcases Nat.eq_zero_or_pos n with rfl | hn
  · simpa using rounds_zero σ
  · rw [dif_neg hn.ne']
    exact rounds_pack σ hn hc

/-- Rounding of a number that may have too few digits. -/
theorem rounds_round (σ : Sign) {m : ℕ} (hm : 0 < m) (e : ℤ) :
    Rounds (.ofModel (.pack (UnpackedFloat.round Format.binary64 σ m e))) (isNegative σ) (m * 2 ^ e) := by
  set p : ℤ := Format.binary64.targetExponent (totalExponent m e) with hp
  have hplace : place (m * 2 ^ e) = p := place_eq hm (Nat.floor_natCast m) e
  have hvalue : ((m <<< (e - p).toNat : ℕ) : ℚ) * 2 ^ (e - (e - p).toNat) = m * 2 ^ e := by
    rw [Nat.shiftLeft_eq, zpow_sub₀ two_ne_zero, zpow_natCast]
    push_cast
    field_simp
  have hm' : 0 < m <<< (e - p).toNat := by
    rw [Nat.shiftLeft_eq]
    positivity
  have h := rounds_round_spec σ hm' (e := e - (e - p).toNat) (represents_exact _)
    (by rw [hvalue, hplace]; omega)
  rwa [hvalue] at h

/-! ### Products -/

theorem isNegative_mul (σ τ : Sign) : isNegative (σ * τ) = (isNegative σ ^^ isNegative τ) := by
  cases σ <;> cases τ <;> rfl

theorem mul_rounds (hx : Holds x s v) (hy : Holds y t w) : Rounds (x * y) (s ^^ t) (v * w) := by
  change Rounds (.ofModel (.pack (UnpackedFloat.mul Format.binary64 x.toModel.unpack y.toModel.unpack))) _ _
  rcases hx.unpack with ⟨σ, rfl, hux, rfl⟩ | ⟨σ, m, e, hm, rfl, hux, rfl, hcm⟩ <;>
    rcases hy.unpack with ⟨τ, rfl, huy, rfl⟩ | ⟨τ, n, f, hn, rfl, huy, rfl, hcn⟩ <;>
    rw [hux, huy, ← isNegative_mul]
  · simpa [UnpackedFloat.mul] using rounds_zero (σ * τ)
  · simpa [UnpackedFloat.mul] using rounds_zero (σ * τ)
  · simpa [UnpackedFloat.mul] using rounds_zero (σ * τ)
  · have hmn : 0 < m * n := Nat.mul_pos hm hn
    have hvalue : ((m * n : ℕ) : ℚ) * 2 ^ (e + f) = m * 2 ^ e * (n * 2 ^ f) := by
      rw [zpow_add₀ two_ne_zero]
      push_cast
      ring
    have he : e + f ≤ place (((m * n : ℕ) : ℚ) * 2 ^ (e + f)) := by
      rw [place_eq hmn (Nat.floor_natCast (m * n)), targetExponent_eq, totalExponent]
      obtain ⟨-, -, hm'⟩ := hcm
      obtain ⟨-, -, hn'⟩ := hcn
      by_cases hbig : 2 ^ 52 ≤ m * n
      · have := (Nat.le_log2 hmn.ne').mpr hbig
        omega
      · have := Nat.le_mul_of_pos_right m hn
        have := Nat.le_mul_of_pos_left n hm
        omega
    rw [← hvalue]
    exact rounds_round_spec (σ * τ) hmn (represents_exact _) he

/-- An infinite factor makes a product infinite, unless the other factor is zero. -/
theorem ofFloat_mul_infinite (hx : Holds x s v) (hv : v ≠ 0) (hy : Binary64.ofFloat y = .infinite t) :
    Binary64.ofFloat (x * y) = .infinite (s ^^ t) := by
  rw [ofFloat_eq] at hy ⊢
  change ofParts (Float.Model.pack (UnpackedFloat.mul Format.binary64 x.toModel.unpack y.toModel.unpack)).unpack = _
  rcases huy : y.toModel.unpack with τ | _ | _ | _ <;> rw [huy] at hy <;> cases hy
  rcases hx.unpack with ⟨σ, rfl, hux, rfl⟩ | ⟨σ, m, e, hm, rfl, hux, rfl, hcm⟩
  · exact absurd rfl hv
  · have hmul : UnpackedFloat.mul Format.binary64 (.finite σ m e hm) (.infinity τ) = .infinity (σ * τ) := rfl
    rw [hux, hmul, ← isNegative_mul]
    cases σ * τ <;> rfl

/-- Zero times an infinity is not a number. -/
theorem ofFloat_zero_mul_infinite (hx : Holds x s 0) (hy : Binary64.ofFloat y = .infinite t) :
    Binary64.ofFloat (x * y) = .nan := by
  rw [ofFloat_eq] at hy ⊢
  change ofParts (Float.Model.pack (UnpackedFloat.mul Format.binary64 x.toModel.unpack y.toModel.unpack)).unpack = _
  rcases huy : y.toModel.unpack with τ | _ | _ | _ <;> rw [huy] at hy <;> cases hy
  rcases hx.unpack with ⟨σ, rfl, hux, -⟩ | ⟨σ, m, e, hm, rfl, hux, hzero, hcm⟩
  · have hmul : UnpackedFloat.mul Format.binary64 (.zero σ) (.infinity τ) = .notANumber := rfl
    rw [hux, hmul]
    rfl
  · exact absurd hzero (mul_zpow_pos hm e).ne'

theorem ofFloat_mul_nan (x : Float) (hy : Binary64.ofFloat y = .nan) : Binary64.ofFloat (x * y) = .nan := by
  rw [ofFloat_eq] at hy ⊢
  change ofParts (Float.Model.pack (UnpackedFloat.mul Format.binary64 x.toModel.unpack y.toModel.unpack)).unpack = _
  rcases huy : y.toModel.unpack with _ | _ | _ | _ <;> rw [huy] at hy <;> cases hy
  have hmul : ∀ u, UnpackedFloat.mul Format.binary64 u .notANumber = .notANumber := by
    intro u
    cases u <;> rfl
  rw [hmul]
  rfl

/-! ### Quotients -/

theorem isNegative_div (σ τ : Sign) : isNegative (σ / τ) = (isNegative σ ^^ isNegative τ) := by
  cases σ <;> cases τ <;> rfl

/-- A quotient that is zero, or not smaller than the least number. -/
theorem div_rounds (hx : Holds x s v) (hy : Holds y t w) (hw : 0 < w) (hlow : 0 < v → 2 ^ (-1074 : ℤ) ≤ v / w) :
    Rounds (x / y) (s ^^ t) (v / w) := by
  change Rounds (.ofModel (.pack (UnpackedFloat.div Format.binary64 x.toModel.unpack y.toModel.unpack))) _ _
  rcases hy.unpack with ⟨τ, rfl, huy, rfl⟩ | ⟨τ, n, f, hn, rfl, huy, rfl, hcn⟩
  · exact absurd rfl hw.ne
  rcases hx.unpack with ⟨σ, rfl, hux, rfl⟩ | ⟨σ, m, e, hm, rfl, hux, rfl, hcm⟩ <;> rw [hux, huy, ← isNegative_div]
  · rw [zero_div]
    exact rounds_zero (σ / τ)
  have hv : (0 : ℚ) < m * 2 ^ e := mul_zpow_pos hm e
  replace hlow := hlow hv
  set p : ℤ := min (e - f) (Format.binary64.targetExponent (totalExponent m e - totalExponent n f)) with hp
  set k : ℕ := (e - f - p).toNat with hk
  have hdiv : UnpackedFloat.div Format.binary64 (.finite σ m e hm) (.finite τ n f hn) =
      roundWithAccuracy Format.binary64 (σ / τ) (m <<< k / n) p (accuracyOfFraction (m <<< k % n) n) := rfl
  have hvalue : ((m <<< k : ℕ) : ℚ) / n * 2 ^ p = m * 2 ^ e / (n * 2 ^ f) := by
    have hexp : (2 : ℚ) ^ k * 2 ^ p * 2 ^ f = 2 ^ e := by
      rw [← zpow_natCast, ← zpow_add₀ two_ne_zero, ← zpow_add₀ two_ne_zero]
      congr 1
      omega
    have hn' : (n : ℚ) ≠ 0 := by exact_mod_cast hn.ne'
    rw [Nat.shiftLeft_eq, ← hexp]
    push_cast
    field_simp
  have hlog : totalExponent m e - totalExponent n f - 1 ≤ Int.log 2 (m * 2 ^ e / (n * 2 ^ f) : ℚ) := by
    have hbelow := (log_bounds hv).1
    have habove := (log_bounds hw).2.le
    rw [log_eq hm (Nat.floor_natCast m)] at hbelow
    rw [log_eq hn (Nat.floor_natCast n), sub_add_cancel] at habove
    apply (Int.zpow_le_iff_le_log one_lt_two (div_pos hv hw)).mp
    have h : (2 : ℚ) ^ (totalExponent m e - totalExponent n f - 1) =
        2 ^ (totalExponent m e - 1) / 2 ^ totalExponent n f := by
      rw [← zpow_sub₀ two_ne_zero]
      congr 1
      ring
    have hquot := div_le_div₀ hv.le hbelow hw habove
    rw [← h] at hquot
    exact_mod_cast hquot
  have hle : p ≤ place (m * 2 ^ e / (n * 2 ^ f)) := by
    rw [targetExponent_eq] at hp
    unfold place
    omega
  have hquotient : 0 < m <<< k / n := by
    have hmin := (Int.zpow_le_iff_le_log (b := 2) one_lt_two (div_pos hv hw)).mp (by exact_mod_cast hlow)
    have hunit : (2 : ℚ) ^ p ≤ m * 2 ^ e / (n * 2 ^ f) := by
      refine (two_zpow_mono ?_).trans (log_bounds (div_pos hv hw)).1
      unfold place at hle
      omega
    rw [← hvalue, le_mul_iff_one_le_left (zpow_pos two_pos p), one_le_div₀ (by exact_mod_cast hn)] at hunit
    exact Nat.div_pos (by exact_mod_cast hunit) hn
  rw [hdiv, ← hvalue]
  exact rounds_round_spec (σ / τ) hquotient (represents_fraction _ hn) (by rwa [hvalue])

/-! ### Sums -/

theorem add_rounds (hx : Holds x false v) (hy : Holds y false w) : Rounds (x + y) false (v + w) := by
  change Rounds (.ofModel (.pack (UnpackedFloat.add Format.binary64 x.toModel.unpack y.toModel.unpack))) _ _
  rcases hx.unpack with ⟨σ, hσ, hux, rfl⟩ | ⟨σ, m, e, hm, hσ, hux, rfl, hcm⟩ <;>
    rcases hy.unpack with ⟨τ, hτ, huy, rfl⟩ | ⟨τ, n, f, hn, hτ, huy, rfl, hcn⟩ <;>
    rw [hux, huy, eq_positive hσ, eq_positive hτ]
  · rw [add_zero]
    exact rounds_zero .positive
  · rw [zero_add]
    exact rounds_pack .positive hn hcn
  · rw [add_zero]
    exact rounds_pack .positive hm hcm
  · set p : ℤ := min e f with hp
    have hpos : 0 < m <<< (e - p).toNat + n <<< (f - p).toNat := by
      rw [Nat.shiftLeft_eq]
      positivity
    have hadd : UnpackedFloat.add Format.binary64 (.finite .positive m e hm) (.finite .positive n f hn) =
        UnpackedFloat.round Format.binary64 .positive (m <<< (e - p).toNat + n <<< (f - p).toNat) p := by
      change normalize Format.binary64 (((m <<< (e - p).toNat : ℕ) : ℤ) + ((n <<< (f - p).toNat : ℕ) : ℤ)) p .positive = _
      rw [← Nat.cast_add, UnpackedFloat.normalize, compare_gt_iff_gt.mpr (by exact_mod_cast hpos), Int.toNat_natCast]
    have hvalue : ((m <<< (e - p).toNat + n <<< (f - p).toNat : ℕ) : ℚ) * 2 ^ p = m * 2 ^ e + n * 2 ^ f := by
      rw [two_zpow_split (min_le_left e f), two_zpow_split (min_le_right e f), ← hp]
      simp only [Nat.shiftLeft_eq]
      push_cast
      ring
    rw [hadd, ← hvalue]
    exact rounds_round .positive hpos p

/-! ### Whole numbers -/

theorem holds_one : Holds 1.0 false 1 := ⟨2 ^ 52, -52, by decide +kernel, by norm_num⟩

private theorem place_natCast {n : ℕ} (hn : 0 < n) : -53 ≤ place n := by
  have h : (1 : ℚ) ≤ n := Nat.one_le_cast.mpr hn
  have hlog : Int.log 2 (1 : ℚ) ≤ Int.log 2 (n : ℚ) := Int.log_mono_right one_pos h
  rw [Int.log_one_right] at hlog
  unfold place
  omega

private theorem toFloat_rounds (n : UInt64) (hn : 0 < n.toNat) : Rounds n.toFloat false n.toNat := by
  change Rounds (.ofModel (.pack (normalize Format.binary64 (n.toNat : ℤ) 0 .positive))) _ _
  rw [UnpackedFloat.normalize, compare_gt_iff_gt.mpr (by exact_mod_cast hn), Int.toNat_natCast]
  have h := rounds_round .positive hn 0
  rwa [zpow_zero, mul_one] at h

theorem ofNat_rounds (n : ℕ) : Rounds (Float.ofNat n) false n := by
  rcases Nat.eq_zero_or_pos n with rfl | hpos
  · have h : Binary64.ofFloat (Float.ofNat 0) = .finite false 0 (-1074) := by decide +kernel
    rw [Rounds, Nat.cast_zero, rounded_zero, if_pos (by norm_num)]
    exact ⟨0, -1074, h, by simp⟩
  rcases lt_or_ge n (2 ^ 53) with hlt | hge
  · have hof : Float.ofNat n = n.toUInt64.toFloat * 1.0 := by
      change Float.ofScientific n false 0 = _
      rw [Float.ofScientific, dif_pos ⟨hlt, by norm_num⟩]
      rfl
    have hn : n.toUInt64.toNat = n := Nat.mod_eq_of_lt (by omega)
    have hread := toFloat_rounds n.toUInt64 (by rwa [hn])
    rw [hn] at hread
    have hgrid : rounded n = n := by simpa using rounded_of_digits hlt.le (e := 0) (by norm_num)
    have hsmall : (n : ℚ) ≤ 2 ^ (1023 : ℤ) :=
      (by exact_mod_cast hlt.le : (n : ℚ) ≤ 2 ^ (53 : ℤ)).trans (two_zpow_mono (by norm_num))
    have hholds := hread.holds (Nat.cast_nonneg n) hsmall
    rw [hgrid] at hholds
    have h := mul_rounds hholds holds_one
    rwa [mul_one, ← hof] at h
  · have hof : Float.ofNat n = .ofModel (.pack (UnpackedFloat.ofScientific Format.binary64 n 0)) := by
      change Float.ofScientific n false 0 = _
      rw [Float.ofScientific, dif_neg (by omega)]
      rfl
    have hm : 0 < n <<< 53 * 10 ^ 0 := by
      rw [Nat.shiftLeft_eq]
      positivity
    have hsci : UnpackedFloat.ofScientific Format.binary64 n 0 =
        roundWithAccuracy Format.binary64 .positive (n <<< 53 * 10 ^ 0) (-53) .exact := by
      have hhigh : ¬ (0 : ℤ) > 2 ^ Format.binary64.exponentBits := by norm_num
      have hlow : ¬ (0 : ℤ) < -(2 ^ Format.binary64.exponentBits + n.log2) := by
        have h : (0 : ℤ) < 2 ^ Format.binary64.exponentBits := by norm_num
        omega
      rw [UnpackedFloat.ofScientific, dif_neg hpos.ne', if_neg hhigh, if_neg hlow, if_pos le_rfl]
      rfl
    have hvalue : ((n <<< 53 * 10 ^ 0 : ℕ) : ℚ) * 2 ^ (-53 : ℤ) = n := by
      rw [Nat.shiftLeft_eq]
      push_cast
      ring
    have h := rounds_round_spec .positive hm (represents_exact _) (by rw [hvalue]; exact place_natCast hpos)
    rw [hvalue, ← hsci, ← hof] at h
    exact h

end ServiceBalancer.Number
