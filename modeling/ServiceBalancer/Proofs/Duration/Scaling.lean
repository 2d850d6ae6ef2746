import ServiceBalancer.Settings
import ServiceBalancer.Proofs.Number.Comparison

/-! What scaling does to a span of time, in terms of the value of the factor. The seconds of the span are rounded, so is
their product with the factor, and the product is rounded once more to nanoseconds. -/
namespace ServiceBalancer.Duration
open Number

variable {d : Duration} {f : Float} {w : ℚ}

theorem ofSeconds_le_max {n : ℕ} (hn : n < 2 ^ 64) : ofSeconds n ≤ max := by
  change n * 1000000000 ≤ 2 ^ 64 * 1000000000 - 1
  omega

/-! ### Seconds -/

def roundedSeconds (d : Duration) : ℚ :=
  rounded (rounded (d.nanos / 1000000000 : ℕ) + rounded ((d.nanos % 1000000000 : ℕ) / 1000000000))

private theorem holds_billion : Holds 1000000000.0 false 1000000000 :=
  ⟨1000000000 * 2 ^ 23, -23, by decide +kernel, by norm_num⟩

theorem toSeconds_holds (hd : d ≤ max) : Holds d.toSeconds false d.roundedSeconds := by
  have hnanos : d.nanos < 2 ^ 64 * 1000000000 := Nat.lt_of_le_pred (by norm_num) hd
  set s : ℕ := d.nanos / 1000000000 with hs
  set n : ℕ := d.nanos % 1000000000 with hn
  have hs' : (s : ℚ) ≤ 2 ^ (64 : ℤ) := by exact_mod_cast (show s ≤ 2 ^ 64 by omega)
  have hn' : (n : ℚ) ≤ 2 ^ (53 : ℤ) := by exact_mod_cast (show n ≤ 2 ^ 53 by omega)
  have hwhole : Holds (Float.ofNat s) false (rounded s) :=
    (ofNat_rounds s).holds (Nat.cast_nonneg s) (hs'.trans (two_zpow_mono (by norm_num)))
  have hrest : Holds (Float.ofNat n) false n := by
    have h := (ofNat_rounds n).holds (Nat.cast_nonneg n) (hn'.trans (two_zpow_mono (by norm_num)))
    have hgrid : rounded n = n := by
      simpa using rounded_of_digits (show n ≤ 2 ^ 53 by omega) (e := 0) (by norm_num)
    rwa [hgrid] at h
  have hpart : (n : ℚ) / 1000000000 ≤ 1 := by
    rw [div_le_one (by norm_num)]
    exact_mod_cast (show n ≤ 1000000000 by omega)
  have hlow : (0 : ℚ) < n → (2 : ℚ) ^ (-1074 : ℤ) ≤ n / 1000000000 := by
    intro hpos
    have hone : (1 : ℚ) ≤ n := Nat.one_le_cast.mpr (Nat.cast_pos.mp hpos)
    have h : (2 : ℚ) ^ (-1074 : ℤ) ≤ 2 ^ (-30 : ℤ) := two_zpow_mono (by norm_num)
    have hbillion : (2 : ℚ) ^ (-30 : ℤ) * 1000000000 ≤ 1 := by norm_num
    rw [le_div_iff₀ (by norm_num)]
    linarith
  have hquot : Holds (Float.ofNat n / 1000000000.0) false (rounded (n / 1000000000)) := by
    refine (div_rounds hrest holds_billion (by norm_num) hlow).holds (by positivity) (hpart.trans ?_)
    simpa using two_zpow_mono (show (0 : ℤ) ≤ 1023 by norm_num)
  have hsum : rounded s + rounded (n / 1000000000) ≤ 2 ^ (1023 : ℤ) := by
    have h₁ : rounded s ≤ 2 ^ (64 : ℤ) := rounded_le_zpow (by norm_num) (Nat.cast_nonneg s) hs'
    have h₂ : rounded (n / 1000000000) ≤ 2 ^ (0 : ℤ) := rounded_le_zpow (by norm_num) (by positivity) (by simpa using hpart)
    have h₃ : (2 : ℚ) ^ (64 : ℤ) + 2 ^ (0 : ℤ) ≤ 2 ^ (65 : ℤ) := by norm_num
    exact (add_le_add h₁ h₂).trans (h₃.trans (two_zpow_mono (by norm_num)))
  exact (add_rounds hwhole hquot).holds (add_nonneg (rounded_nonneg _) (rounded_nonneg _)) hsum

theorem roundedSeconds_nonneg (d : Duration) : 0 ≤ d.roundedSeconds := rounded_nonneg _

@[simp] theorem roundedSeconds_ofSeconds (n : ℕ) : (ofSeconds n).roundedSeconds = rounded n := by
  have hwhole : n * 1000000000 / 1000000000 = n := Nat.mul_div_cancel n (by norm_num)
  have hrest : n * 1000000000 % 1000000000 = 0 := Nat.mul_mod_left n 1000000000
  rw [roundedSeconds, ofSeconds, hwhole, hrest, Nat.cast_zero, zero_div, rounded_zero, add_zero, rounded_rounded]

/-- Rounding does not take a span below whole seconds that it reaches. -/
theorem roundedSeconds_mono {n : ℕ} (h : ofSeconds n ≤ d) : (ofSeconds n).roundedSeconds ≤ d.roundedSeconds := by
  have hwhole : n ≤ d.nanos / 1000000000 := (Nat.le_div_iff_mul_le (by norm_num)).mpr h
  have hle : rounded n ≤ rounded (d.nanos / 1000000000 : ℕ) :=
    rounded_mono (Nat.cast_nonneg n) (by exact_mod_cast hwhole)
  rw [roundedSeconds_ofSeconds, ← rounded_rounded]
  exact rounded_mono (rounded_nonneg _) (hle.trans (le_add_of_nonneg_right (rounded_nonneg _)))

/-! ### Nanoseconds -/

private theorem fraction_spec (m : ℕ) (e : ℤ) :
    0 < (fraction m e).2 ∧ ((fraction m e).1 : ℚ) / (fraction m e).2 = m * 2 ^ e := by
  unfold fraction
  split_ifs with he
  · refine ⟨Nat.one_pos, ?_⟩
    obtain ⟨k, rfl⟩ := Int.eq_ofNat_of_zero_le he
    simp
  · refine ⟨Nat.two_pow_pos _, ?_⟩
    obtain ⟨k, hk⟩ := Int.eq_ofNat_of_zero_le (show 0 ≤ -e by omega)
    have he' : e = -(k : ℤ) := by omega
    rw [he', zpow_neg, zpow_natCast, neg_neg]
    simp [div_eq_mul_inv]

theorem ofFloat?_of_holds (h : Holds f false w) :
    ofFloat? f = if w < 2 ^ 64 then some ⟨toEven (w * 1000000000)⟩ else none := by
  obtain ⟨m, e, hread, rfl⟩ := h
  obtain ⟨hpos, hquot⟩ := fraction_spec m e
  have hpos' : (0 : ℚ) < (fraction m e).2 := Nat.cast_pos.mpr hpos
  have htop : Nat.pow 2 64 * (fraction m e).2 ≤ (fraction m e).1 ↔ ¬ (m * 2 ^ e : ℚ) < 2 ^ 64 := by
    rw [← hquot, not_lt, le_div_iff₀ hpos']
    exact_mod_cast Iff.rfl
  have hnanos : nearest ((fraction m e).1 * 1000000000) (fraction m e).2 = toEven (m * 2 ^ e * 1000000000) := by
    rw [nearest_eq _ hpos, ← hquot]
    congr 1
    push_cast
    ring
  simp only [ofFloat?, hread, Bool.false_and, Bool.false_eq_true, if_false, htop, hnanos, ite_not]

/-- Below zero there is no span, but there is for the zero that has a sign. -/
theorem ofFloat?_of_holds_negative (h : Holds f true w) : ofFloat? f = if w = 0 then some zero else none := by
  obtain ⟨m, e, hread, rfl⟩ := h
  obtain ⟨hpos, -⟩ := fraction_spec m e
  by_cases hm : m = 0
  · subst hm
    have hz : (fraction 0 e).1 = 0 := by
      unfold fraction
      split_ifs <;> simp
    have htop : ¬ Nat.pow 2 64 * (fraction 0 e).2 ≤ 0 := by
      have := Nat.mul_pos (show 0 < Nat.pow 2 64 by norm_num) hpos
      omega
    simp [ofFloat?, hread, hz, htop, nearest, hpos, zero]
  · have hw : (m : ℚ) * 2 ^ e ≠ 0 := mul_ne_zero (Nat.cast_ne_zero.mpr hm) (zpow_ne_zero e two_ne_zero)
    simp [ofFloat?, hread, hm, hw]

/-! ### Scaling -/

theorem holds_of_isGrowthFactor (h : isGrowthFactor f = true) : ∃ w, 1 ≤ w ∧ Holds f false w := by
  obtain ⟨hfinite, hone⟩ := Bool.and_eq_true_iff.mp h
  exact holds_of_one_le hfinite (of_decide_eq_true hone)

/-- The product of the rounded seconds with the value of a factor, as it is rounded. -/
def roundedProduct (d : Duration) (w : ℚ) : ℚ := rounded (d.roundedSeconds * w)

theorem scale_of_holds (hd : d ≤ max) (hf : Holds f false w) :
    d.scale f = if d.roundedProduct w < 2 ^ 64 then ⟨toEven (d.roundedProduct w * 1000000000)⟩
      else if 1 < w then max else d := by
  have hrounds : Rounds (d.toSeconds * f) false (d.roundedSeconds * w) := mul_rounds (toSeconds_holds hd) hf
  by_cases hfinite : d.roundedProduct w < 2 ^ 1024
  · have hholds : Holds (d.toSeconds * f) false (d.roundedProduct w) := hrounds.finite hfinite
    rw [scale, ofFloat?_of_holds hholds]
    by_cases hsmall : d.roundedProduct w < 2 ^ 64
    · rw [if_pos hsmall, if_pos hsmall]
    · simp only [if_neg hsmall, one_lt_iff hf]
  · have hbig : ¬ d.roundedProduct w < 2 ^ 64 := by
      have h : (2 : ℚ) ^ 64 ≤ 2 ^ 1024 := pow_le_pow_right₀ one_le_two (by norm_num)
      exact fun hlt => hfinite (hlt.trans_le h)
    have hnone : ofFloat? (d.toSeconds * f) = none := by
      rw [ofFloat?, hrounds.infinite hfinite]
    rw [scale, hnone, if_neg hbig]
    simp only [one_lt_iff hf]

private theorem rounded_le_of_lt {v : ℚ} (h : rounded v < 2 ^ 64) : rounded v ≤ 2 ^ 64 - 2048 := by
  have hdigits := digits_le v
  rw [rounded] at h ⊢
  set m : ℕ := toEven (v / 2 ^ place v)
  set e : ℤ := place v
  rcases le_or_gt e 10 with hlow | hhigh
  · calc (m : ℚ) * 2 ^ e ≤ 2 ^ 53 * 2 ^ (10 : ℤ) :=
          mul_le_mul (by exact_mod_cast hdigits) (two_zpow_mono hlow) (zpow_pos two_pos e).le (by positivity)
      _ ≤ 2 ^ 64 - 2048 := by norm_num
  · rw [two_zpow_split (show 11 ≤ e by omega)] at h ⊢
    set k : ℕ := 2 ^ (e - 11).toNat
    have hlt : m * k < 2 ^ 53 := by
      have hlt' : ((m * k : ℕ) : ℚ) * 2048 < 2 ^ 53 * 2048 := by
        push_cast
        norm_num at h ⊢
        linarith
      exact_mod_cast lt_of_mul_lt_mul_right hlt' (by norm_num)
    have hle : ((m * k : ℕ) : ℚ) ≤ 2 ^ 53 - 1 := by
      have : m * k + 1 ≤ 2 ^ 53 := hlt
      have hcast : ((m * k : ℕ) : ℚ) + 1 ≤ 2 ^ 53 := by exact_mod_cast this
      linarith
    push_cast at hle
    norm_num at hle ⊢
    linarith

theorem ofFloat?_le_max {x : Float} (h : ofFloat? x = some d) : d ≤ max := by
  rcases hread : Binary64.ofFloat x with _ | s | ⟨s, m, e⟩
  · rw [ofFloat?, hread] at h
    cases h
  · rw [ofFloat?, hread] at h
    cases h
  · have hx : Holds x s (m * 2 ^ e) := ⟨m, e, hread, rfl⟩
    cases s
    · rw [ofFloat?_of_holds hx] at h
      split_ifs at h with hlt
      cases h
      rw [← hx.rounded_eq] at hlt
      have hle := rounded_le_of_lt hlt
      rw [hx.rounded_eq] at hle
      have htop : ((m : ℚ) * 2 ^ e) * 1000000000 ≤ ((2 ^ 64 * 1000000000 - 1 : ℕ) : ℚ) := by
        norm_num at hle ⊢
        linarith
      exact toEven_le htop
    · rw [ofFloat?_of_holds_negative hx] at h
      split_ifs at h
      cases h
      exact Nat.zero_le _

/-- Scaling does not pass the longest span. -/
theorem scale_le_max (hd : d ≤ max) (f : Float) : d.scale f ≤ max := by
  rw [scale]
  split
  · next h => exact ofFloat?_le_max h
  · split_ifs
    · exact Nat.le_refl _
    · exact hd

/-- A factor that does not take whole seconds below themselves takes no longer span below them. -/
theorem le_scale {n : ℕ} (hf : Holds f false w) (hself : ofSeconds n ≤ (ofSeconds n).scale f) (hd : d ≤ max)
    (hle : ofSeconds n ≤ d) : ofSeconds n ≤ d.scale f := by
  have hmax : ofSeconds n ≤ max := Nat.le_trans hle hd
  have hprod : (ofSeconds n).roundedProduct w ≤ d.roundedProduct w :=
    rounded_mono (mul_nonneg (roundedSeconds_nonneg _) hf.nonneg)
      (mul_le_mul_of_nonneg_right (roundedSeconds_mono hle) hf.nonneg)
  rw [scale_of_holds hmax hf] at hself
  rw [scale_of_holds hd hf]
  by_cases hsmall : d.roundedProduct w < 2 ^ 64
  · rw [if_pos (hprod.trans_lt hsmall)] at hself
    rw [if_pos hsmall]
    exact Nat.le_trans hself (toEven_mono (mul_le_mul_of_nonneg_right hprod (by norm_num)))
  · rw [if_neg hsmall]
    split_ifs
    · exact hmax
    · exact hle

private theorem le_scale_of_le_product {n : ℕ} (hn : n < 2 ^ 64) (hf : Holds f false w)
    (h : n ≤ (ofSeconds n).roundedProduct w) : ofSeconds n ≤ (ofSeconds n).scale f := by
  have hmax : ofSeconds n ≤ max := ofSeconds_le_max hn
  rw [scale_of_holds hmax hf]
  split_ifs
  · have hnanos : ((n * 1000000000 : ℕ) : ℚ) ≤ (ofSeconds n).roundedProduct w * 1000000000 := by
      push_cast
      exact mul_le_mul_of_nonneg_right h (by norm_num)
    exact le_toEven hnanos
  · exact hmax
  · exact Nat.le_refl _

/-- Up to `2 ^ 53` whole seconds are exact, and no growth factor takes them below themselves. -/
theorem le_scale_of_exact {n : ℕ} (hn : n ≤ 2 ^ 53) (hf : Holds f false w) (hw : 1 ≤ w) :
    ofSeconds n ≤ (ofSeconds n).scale f := by
  have hexact : rounded n = n := by simpa using rounded_of_digits hn (e := 0) (by norm_num)
  refine le_scale_of_le_product (by omega) hf ?_
  rw [roundedProduct, roundedSeconds_ofSeconds, hexact]
  simpa using le_rounded hn (e := 0) (by norm_num) (by simpa using le_mul_of_one_le_right (Nat.cast_nonneg n) hw)

private theorem next_after_one (hf : Holds f false w) (hw : 1 < w) : 1 + 2 ^ (-52 : ℤ) ≤ w := by
  obtain ⟨m, e, hread, rfl⟩ := hf
  obtain ⟨⟨hlt, -, hfull⟩, -⟩ := canonical_of_ofFloat hread
  have he : -52 ≤ e := by
    by_contra hlow
    have hle : (m : ℚ) * 2 ^ e ≤ 2 ^ 53 * 2 ^ (-53 : ℤ) :=
      mul_le_mul (by exact_mod_cast hlt.le) (two_zpow_mono (by omega)) (zpow_pos two_pos e).le (by positivity)
    norm_num at hle
    linarith
  have hm : (2 : ℚ) ^ 52 ≤ m := by exact_mod_cast hfull.resolve_right (by omega)
  rcases he.eq_or_lt with rfl | hlt'
  · have hmore : 2 ^ 52 < m := by
      by_contra hle
      have hm' : (m : ℚ) ≤ 2 ^ 52 := by exact_mod_cast not_lt.mp hle
      have hone : (m : ℚ) * 2 ^ (-52 : ℤ) ≤ 2 ^ 52 * 2 ^ (-52 : ℤ) := mul_le_mul_of_nonneg_right hm' (by positivity)
      rw [show (2 : ℚ) ^ 52 * 2 ^ (-52 : ℤ) = 1 by norm_num] at hone
      exact absurd hw (not_lt.mpr hone)
    have hm' : (2 : ℚ) ^ 52 + 1 ≤ m := by exact_mod_cast hmore
    calc (1 : ℚ) + 2 ^ (-52 : ℤ) = (2 ^ 52 + 1) * 2 ^ (-52 : ℤ) := by norm_num
      _ ≤ m * 2 ^ (-52 : ℤ) := mul_le_mul_of_nonneg_right hm' (by positivity)
  · calc (1 : ℚ) + 2 ^ (-52 : ℤ) ≤ 2 ^ 52 * 2 ^ (-51 : ℤ) := by norm_num
      _ ≤ m * 2 ^ e := mul_le_mul hm (two_zpow_mono (by omega)) (by positivity) (by positivity)

/-- A factor above one takes no whole seconds below themselves, as it makes up for what rounding takes away. -/
theorem le_scale_of_one_lt {n : ℕ} (hn : n < 2 ^ 64) (hf : Holds f false w) (hw : 1 < w) :
    ofSeconds n ≤ (ofSeconds n).scale f := by
  rcases le_or_gt n (2 ^ 53) with hexact | hlong
  · exact le_scale_of_exact hexact hf hw.le
  refine le_scale_of_le_product hn hf ?_
  have hnpos : (0 : ℚ) < n := Nat.cast_pos.mpr (by omega)
  have hplace : 1 ≤ place n := by
    have hlog : 53 ≤ Int.log 2 (n : ℚ) := by
      apply (Int.zpow_le_iff_le_log one_lt_two hnpos).mp
      exact_mod_cast hlong.le
    unfold place
    omega
  set p : ℤ := place n with hp
  set j : ℕ := toEven (n / 2 ^ p)
  have hround : rounded n = j * 2 ^ p := rfl
  have hnext : (n : ℚ) ≤ (j + 1 : ℕ) * 2 ^ p := le_next n
  rw [roundedProduct, roundedSeconds_ofSeconds, hround]
  rcases (digits_le (n : ℚ)).lt_or_eq with hlt | htop
  · -- The product reaches the next number on the grid.
    have hproduct : ((j + 1 : ℕ) : ℚ) * 2 ^ p ≤ j * 2 ^ p * w := by
      have hfull : (2 : ℚ) ^ 52 ≤ j := by exact_mod_cast (digits_full hnpos).resolve_right (by omega)
      have hdigit : (1 : ℚ) ≤ j * 2 ^ (-52 : ℤ) := by
        norm_num
        linarith
      calc ((j + 1 : ℕ) : ℚ) * 2 ^ p ≤ (j + j * 2 ^ (-52 : ℤ)) * 2 ^ p := by
            push_cast
            exact mul_le_mul_of_nonneg_right (by linarith) (by positivity)
        _ = j * 2 ^ p * (1 + 2 ^ (-52 : ℤ)) := by ring
        _ ≤ j * 2 ^ p * w := mul_le_mul_of_nonneg_left (next_after_one hf hw) (by positivity)
    exact hnext.trans (le_rounded (show j + 1 ≤ 2 ^ 53 from hlt) (by omega) hproduct)
  · -- With all digits used up, `n` was not rounded down.
    have hself : (n : ℚ) ≤ j * 2 ^ p := by
      have h := (log_bounds hnpos).2.le
      have hj : (j : ℚ) = 2 ^ 53 := by exact_mod_cast htop
      have hlog : Int.log 2 (n : ℚ) + 1 = 53 + p := by
        rw [place] at hp
        omega
      rw [hlog, zpow_add₀ two_ne_zero] at h
      rw [hj]
      exact_mod_cast h
    exact hself.trans (le_rounded htop.le (by omega) (le_mul_of_one_le_right (by positivity) hw.le))

/-! ### Factors that are no growth factors -/

/-- Zero of either sign leaves nothing. -/
theorem scale_of_zero (hd : d ≤ max) (hf : (f == 0.0) = true) : d.scale f = zero := by
  obtain ⟨s, hs⟩ := beq_zero_iff.mp hf
  have hrounds := mul_rounds (toSeconds_holds hd) hs
  rw [mul_zero] at hrounds
  have hproduct : Holds (d.toSeconds * f) s 0 := by
    have h := hrounds.finite (by rw [rounded_zero]; norm_num)
    rwa [rounded_zero, Bool.false_xor] at h
  have hnone : toEven (0 * 1000000000) = 0 := by simpa using toEven_natCast 0
  have hspan : ofFloat? (d.toSeconds * f) = some zero := by
    cases s
    · rw [ofFloat?_of_holds hproduct, if_pos (by norm_num), hnone]
      rfl
    · rw [ofFloat?_of_holds_negative hproduct, if_pos rfl]
  rw [scale, hspan]

theorem scale_of_isNaN (d : Duration) (hf : f.isNaN = true) : d.scale f = d := by
  have hnan := ofFloat_of_isNaN hf
  have hnone : ofFloat? (d.toSeconds * f) = none := by rw [ofFloat?, ofFloat_mul_nan _ hnan]
  rw [scale, hnone]
  exact if_neg (not_one_lt (.inr hnan))

theorem scale_of_infinite (hd : d ≤ max) (hf : Binary64.ofFloat f = .infinite false) : d.scale f = max := by
  have hnone : ofFloat? (d.toSeconds * f) = none := by
    by_cases hzero : d.roundedSeconds = 0
    · rw [ofFloat?, ofFloat_zero_mul_infinite (hzero ▸ toSeconds_holds hd) hf]
    · rw [ofFloat?, ofFloat_mul_infinite (toSeconds_holds hd) hzero hf]
  rw [scale, hnone]
  exact if_pos (one_lt_of_infinite hf)

private theorem ofFloat?_of_not_positive {x : Float} (h : ∀ m e, Binary64.ofFloat x ≠ .finite false m e) :
    ofFloat? x = if x == 0.0 then some zero else none := by
  have hoff : (∀ s m e, Binary64.ofFloat x ≠ .finite s m e) → (x == 0.0) = false := by
    intro hnot
    rw [← Bool.not_eq_true, beq_zero_iff]
    rintro ⟨s, m, e, hread, -⟩
    exact hnot s m e hread
  rcases hread : Binary64.ofFloat x with _ | s | ⟨s, m, e⟩
  · rw [hoff (by simp [hread]), ofFloat?, hread]
    rfl
  · rw [hoff (by simp [hread]), ofFloat?, hread]
    rfl
  · cases s
    · exact absurd hread (h m e)
    · have hx : Holds x true (m * 2 ^ e) := ⟨m, e, hread, rfl⟩
      rw [ofFloat?_of_holds_negative hx]
      have hzero : (m : ℚ) * 2 ^ e = 0 ↔ (x == 0.0) = true := by
        rw [beq_zero_iff]
        constructor
        · intro hz
          rw [hz] at hx
          exact ⟨true, hx⟩
        · rintro ⟨s, hz⟩
          exact hx.unique hz
      simp only [hzero]

/-- A negative factor leaves a span as it is, unless the product is zero. -/
theorem scale_of_negative (hd : d ≤ max) (hf : f < 0.0) :
    d.scale f = if d.toSeconds * f == 0.0 then zero else d := by
  have hproduct : ∀ m e, Binary64.ofFloat (d.toSeconds * f) ≠ .finite false m e := by
    intro m e h
    rcases negative_of_lt_zero hf with ⟨w, hw, hholds⟩ | hinf
    · have hrounds : Rounds (d.toSeconds * f) true (d.roundedSeconds * w) := mul_rounds (toSeconds_holds hd) hholds
      by_cases hfinite : rounded (d.roundedSeconds * w) < 2 ^ 1024
      · obtain ⟨m', e', hread, -⟩ := hrounds.finite hfinite
        rw [hread] at h
        cases h
      · rw [hrounds.infinite hfinite] at h
        cases h
    · by_cases hzero : d.roundedSeconds = 0
      · rw [ofFloat_zero_mul_infinite (hzero ▸ toSeconds_holds hd) hinf] at h
        cases h
      · rw [ofFloat_mul_infinite (toSeconds_holds hd) hzero hinf] at h
        cases h
  have hone : ¬ 1.0 < f := not_one_lt (.inl hf)
  rw [scale, ofFloat?_of_not_positive hproduct]
  split_ifs
  · rfl
  · rfl

end ServiceBalancer.Duration
