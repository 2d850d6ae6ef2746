import ServiceBalancer.Proofs.Number.Arithmetic

/-! Comparison of floating point numbers is that of their values, and a number that is not a number compares with
nothing. -/
namespace ServiceBalancer.Number
open Float.Model Float.Model.UnpackedFloat

private theorem Canonical.lt_of_exponent_lt {m n : ℕ} {e f : ℤ} (hm : Canonical m e) (hn : Canonical n f) (h : e < f) :
    (m : ℚ) * 2 ^ e < n * 2 ^ f := by
  obtain ⟨hlt, hlow, -⟩ := hm
  obtain ⟨-, -, hfull⟩ := hn
  have hfull' : 2 ^ 52 ≤ n := hfull.resolve_right (by omega)
  calc (m : ℚ) * 2 ^ e < 2 ^ 53 * 2 ^ e := mul_lt_mul_of_pos_right (by exact_mod_cast hlt) (zpow_pos two_pos e)
    _ = 2 ^ 52 * 2 ^ (e + 1) := by
      rw [zpow_add₀ two_ne_zero]
      ring
    _ ≤ 2 ^ 52 * 2 ^ f := mul_le_mul_of_nonneg_left (two_zpow_mono (by omega)) (by positivity)
    _ ≤ n * 2 ^ f := mul_le_mul_of_nonneg_right (by exact_mod_cast hfull') (zpow_pos two_pos f).le

/-- In canonical shape the exponents decide first. -/
theorem Canonical.compare_eq {m n : ℕ} {e f : ℤ} (hm : Canonical m e) (hn : Canonical n f) :
    (compare e f).then (compare m n) = compare ((m : ℚ) * 2 ^ e) (n * 2 ^ f) := by
  rcases lt_trichotomy e f with h | rfl | h
  · rw [compare_lt_iff_lt.mpr h, compare_lt_iff_lt.mpr (hm.lt_of_exponent_lt hn h)]
    rfl
  · have he : (0 : ℚ) < 2 ^ e := zpow_pos two_pos e
    rw [compare_eq_iff_eq.mpr (rfl : e = e), Ordering.eq_then]
    rcases lt_trichotomy m n with h | rfl | h
    · rw [compare_lt_iff_lt.mpr h, compare_lt_iff_lt.mpr (mul_lt_mul_of_pos_right (Nat.cast_lt.mpr h) he)]
    · rw [compare_eq_iff_eq.mpr rfl, compare_eq_iff_eq.mpr rfl]
    · rw [compare_gt_iff_gt.mpr h, compare_gt_iff_gt.mpr (mul_lt_mul_of_pos_right (Nat.cast_lt.mpr h) he)]
  · rw [compare_gt_iff_gt.mpr h, compare_gt_iff_gt.mpr (hn.lt_of_exponent_lt hm h)]
    rfl

variable {x y : Float} {v w : ℚ}

theorem Holds.compare_eq (hx : Holds x false v) (hy : Holds y false w) :
    UnpackedFloat.compare x.toModel.unpack y.toModel.unpack = some (compare v w) := by
  rcases hx.unpack with ⟨σ, hσ, hux, rfl⟩ | ⟨σ, m, e, hm, hσ, hux, rfl, hcm⟩ <;>
    rcases hy.unpack with ⟨τ, hτ, huy, rfl⟩ | ⟨τ, n, f, hn, hτ, huy, rfl, hcn⟩ <;>
    rw [hux, huy, eq_positive hσ, eq_positive hτ]
  · rw [compare_eq_iff_eq.mpr rfl]
    rfl
  · rw [compare_lt_iff_lt.mpr (mul_zpow_pos hn f)]
    rfl
  · rw [compare_gt_iff_gt.mpr (mul_zpow_pos hm e)]
    rfl
  · rw [← hcm.compare_eq hcn]
    rfl

private theorem lt_def (x y : Float) :
    x < y ↔ (UnpackedFloat.compare x.toModel.unpack y.toModel.unpack == some .lt) = true := by
  change decide (x.toModel < y.toModel) = true ↔ _
  rw [decide_eq_true_iff]
  rfl

private theorem le_def (x y : Float) :
    x ≤ y ↔ ((UnpackedFloat.compare x.toModel.unpack y.toModel.unpack).any (·.isLE)) = true := by
  change decide (x.toModel ≤ y.toModel) = true ↔ _
  rw [decide_eq_true_iff]
  rfl

theorem Holds.lt_iff (hx : Holds x false v) (hy : Holds y false w) : x < y ↔ v < w := by
  rw [lt_def, hx.compare_eq hy]
  simp [compare_lt_iff_lt]

theorem Holds.le_iff (hx : Holds x false v) (hy : Holds y false w) : x ≤ y ↔ v ≤ w := by
  rw [le_def, hx.compare_eq hy]
  simp [Ordering.isLE_iff_ne_gt, compare_gt_iff_gt]

theorem one_lt_iff (hx : Holds x false v) : 1.0 < x ↔ 1 < v := holds_one.lt_iff hx

private theorem unpack_one : (1.0 : Float).toModel.unpack = .finite .positive (2 ^ 52) (-52) (by norm_num) := rfl

/-- A finite number that is at least one holds a value. -/
theorem holds_of_one_le (hfinite : x.isFinite = true) (hone : 1.0 ≤ x) : ∃ v, 1 ≤ v ∧ Holds x false v := by
  rw [le_def, unpack_one] at hone
  change x.toModel.unpack.isFinite = true at hfinite
  rcases hu : x.toModel.unpack with σ | _ | σ | ⟨σ, m, e, hm⟩ <;> rw [hu] at hone hfinite
  · cases hfinite
  · cases hfinite
  · cases hone
  · cases σ
    · cases hone
    · have hx : Holds x false (m * 2 ^ e) := ⟨m, e, by rw [ofFloat_eq, hu]; rfl, rfl⟩
      refine ⟨m * 2 ^ e, ?_, hx⟩
      rw [← holds_one.le_iff hx, le_def, unpack_one, hu]
      exact hone

/-- What is below zero has a sign and is not zero, but may be infinite. -/
theorem negative_of_lt_zero (h : x < 0.0) :
    (∃ v, 0 < v ∧ Holds x true v) ∨ Binary64.ofFloat x = .infinite true := by
  have hzero : (0.0 : Float).toModel.unpack = .zero .positive := rfl
  rw [lt_def, hzero] at h
  rw [ofFloat_eq]
  rcases hu : x.toModel.unpack with σ | _ | σ | ⟨σ, m, e, hm⟩ <;> rw [hu] at h
  · cases σ
    · exact .inr rfl
    · cases h
  · cases h
  · cases h
  · cases σ
    · exact .inl ⟨m * 2 ^ e, mul_zpow_pos hm e, m, e, by rw [ofFloat_eq, hu]; rfl, rfl⟩
    · cases h

/-- Zero of either sign is equal to zero, and nothing else that is a number. -/
theorem beq_zero_iff : (x == 0.0) = true ↔ ∃ s, Holds x s 0 := by
  change (UnpackedFloat.compare x.toModel.unpack (.zero .positive) == some .eq) = true ↔ _
  constructor
  · intro h
    rcases hu : x.toModel.unpack with σ | _ | σ | ⟨σ, m, e, hm⟩ <;> rw [hu] at h
    · cases σ <;> cases h
    · cases h
    · exact ⟨isNegative σ, 0, -1074, by rw [ofFloat_eq, hu]; rfl, by simp⟩
    · cases σ <;> cases h
  · rintro ⟨s, hx⟩
    rcases hx.unpack with ⟨σ, -, hux, -⟩ | ⟨σ, m, e, hm, -, hux, hzero, -⟩
    · rw [hux]
      rfl
    · exact absurd hzero (mul_zpow_pos hm e).ne'

theorem ofFloat_of_isNaN (h : x.isNaN = true) : Binary64.ofFloat x = .nan := by
  change x.toModel.unpack.isNaN = true at h
  rw [ofFloat_eq]
  rcases hu : x.toModel.unpack with _ | _ | _ | _ <;> rw [hu] at h <;> first | rfl | cases h

theorem one_lt_of_infinite (h : Binary64.ofFloat x = .infinite false) : 1.0 < x := by
  rw [ofFloat_eq] at h
  rw [lt_def, unpack_one]
  rcases hu : x.toModel.unpack with σ | _ | σ | ⟨σ, m, e, hm⟩ <;> rw [hu] at h
  · rw [eq_positive (Binary64.infinite.inj h)]
    rfl
  · cases h
  · cases h
  · cases h

/-- Neither what is below zero nor what is not a number is above one. -/
theorem not_one_lt (h : x < 0.0 ∨ Binary64.ofFloat x = .nan) : ¬ 1.0 < x := by
  have hbelow : (∃ m e, Binary64.ofFloat x = .finite true m e) ∨ Binary64.ofFloat x = .infinite true ∨
      Binary64.ofFloat x = .nan := by
    rcases h with hneg | hnan
    · rcases negative_of_lt_zero hneg with ⟨v, -, m, e, hread, -⟩ | hinf
      · exact .inl ⟨m, e, hread⟩
      · exact .inr (.inl hinf)
    · exact .inr (.inr hnan)
  rw [lt_def, unpack_one]
  rw [ofFloat_eq] at hbelow
  rcases hu : x.toModel.unpack with σ | _ | σ | ⟨σ, m, e, hm⟩ <;> rw [hu] at hbelow
  · cases σ
    · exact Bool.false_ne_true
    · simp [ofParts, isNegative] at hbelow
  · exact Bool.false_ne_true
  · exact Bool.false_ne_true
  · cases σ
    · exact Bool.false_ne_true
    · simp [ofParts, isNegative] at hbelow

end ServiceBalancer.Number
