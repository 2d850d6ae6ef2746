import Mathlib
import ServiceBalancer.Proofs.Number.Rounding

/-! Floating point numbers by their value. What a number of 64 bits holds is read from its sign, mantissa and exponent,
and the arithmetic rounds exact results to the grid: the digits that are cut off are told apart by two bits. -/
namespace ServiceBalancer.Number
open Float.Model Float.Model.UnpackedFloat

/-! ### Signs, mantissas and exponents -/

def isNegative : Sign → Bool
  | .negative => true
  | .positive => false

theorem eq_positive {σ : Sign} (h : isNegative σ = false) : σ = .positive := by
  cases σ
  · cases h
  · rfl

def ofParts : UnpackedFloat → Binary64
  | .notANumber => .nan
  | .infinity s => .infinite (isNegative s)
  | .zero s => .finite (isNegative s) 0 (-1074)
  | .finite s m e _ => .finite (isNegative s) m e

def ofFields (negative : Bool) (biased : BitVec 11) (fraction : BitVec 52) : Binary64 :=
  if biased = -1#11 then if fraction = 0#52 then .infinite negative else .nan
  else if biased = 0#11 then .finite negative fraction.toNat (-1074)
  else .finite negative (2 ^ 52 + fraction.toNat) (biased.toNat - 1075)

private theorem toNat_leadingDigit {w : ℕ} (m : BitVec w) : (1#1 ++ m).toNat = 2 ^ w + m.toNat := by
  rw [BitVec.toNat_append, ← Nat.shiftLeft_add_eq_or_of_lt m.isLt]
  simp [Nat.shiftLeft_eq]

theorem ofParts_unpack (b : BitVec 64) : ofParts (UnpackedFloat.unpack Format.binary64 b) =
    ofFields (isNegative (Sign.ofBitVec (@unpackSign Format.binary64 b)))
      (@unpackExponent Format.binary64 b) (@unpackMantissa Format.binary64 b) := by
  unfold UnpackedFloat.unpack ofFields
  dsimp only
  by_cases htop : @unpackExponent Format.binary64 b = -1#11
  · by_cases hnone : @unpackMantissa Format.binary64 b = 0#52
    · rw [if_pos htop, if_pos hnone, if_pos htop, if_pos hnone]
      rfl
    · rw [if_pos htop, if_neg hnone, if_pos htop, if_neg hnone]
      rfl
  · by_cases hbottom : @unpackExponent Format.binary64 b = 0#11
    · by_cases hnone : @unpackMantissa Format.binary64 b = 0#52
      · rw [if_neg htop, if_pos hbottom, if_neg htop, if_pos hbottom, dif_pos hnone, hnone]
        rfl
      · rw [if_neg htop, if_pos hbottom, if_neg htop, if_pos hbottom, dif_neg hnone, hbottom]
        rfl
    · rw [if_neg htop, if_neg hbottom, if_neg htop, if_neg hbottom, ofParts, toNat_leadingDigit]
      rfl

theorem ofFloat_eq (x : Float) : Binary64.ofFloat x = ofParts x.toModel.unpack := by
  have hexp : x.toBits.toNat / Nat.pow 2 52 % Nat.pow 2 11 =
      (@unpackExponent Format.binary64 x.toBits.toBitVec).toNat := by
    rw [unpackExponent_def, BitVec.extractLsb'_toNat, Nat.shiftRight_eq_div_pow]
    rfl
  have hman : x.toBits.toNat % Nat.pow 2 52 =
      (@unpackMantissa Format.binary64 x.toBits.toBitVec).toNat := by
    rw [unpackMantissa_def, BitVec.extractLsb'_toNat]
    rfl
  have hsign : (x.toBits.toNat / Nat.pow 2 63 == 1) =
      isNegative (Sign.ofBitVec (@unpackSign Format.binary64 x.toBits.toBitVec)) := by
    have hbit : (@unpackSign Format.binary64 x.toBits.toBitVec).toNat = x.toBits.toNat / Nat.pow 2 63 := by
      rw [unpackSign_def, BitVec.extractLsb'_toNat, Nat.shiftRight_eq_div_pow]
      have := x.toBits.toNat_lt
      change x.toBits.toNat / 2 ^ 63 % 2 ^ 1 = x.toBits.toNat / 2 ^ 63
      omega
    have hall : ∀ b : BitVec 1, (b.toNat == 1) = isNegative (Sign.ofBitVec b) := by decide
    rw [← hbit]
    exact hall _
  rw [Float.Model.unpack]
  refine Eq.trans ?_ (ofParts_unpack x.toBits.toBitVec).symm
  simp only [Binary64.ofFloat, ofFields, hexp, hman, hsign, ← BitVec.toNat_inj]
  rfl

/-- The shape of what a floating point number is made of: 53 digits, or fewer at the last place. -/
def Canonical (m : ℕ) (e : ℤ) : Prop := m < 2 ^ 53 ∧ -1074 ≤ e ∧ (2 ^ 52 ≤ m ∨ e = -1074)

theorem canonical_of_ofFields {s s' : Bool} {b : BitVec 11} {f : BitVec 52} {m : ℕ} {e : ℤ}
    (h : ofFields s b f = .finite s' m e) : Canonical m e ∧ e ≤ 971 := by
  have hf : f.toNat < 2 ^ 52 := f.isLt
  have hb : b.toNat < 2 ^ 11 := b.isLt
  unfold ofFields at h
  split_ifs at h with htop hnone hbottom
  · cases h
    exact ⟨⟨by omega, le_refl _, .inr rfl⟩, by omega⟩
  · have htop' : b.toNat ≠ 2047 := fun hb => htop (BitVec.eq_of_toNat_eq hb)
    have hbottom' : b.toNat ≠ 0 := fun hb => hbottom (BitVec.eq_of_toNat_eq hb)
    cases h
    exact ⟨⟨by omega, by omega, .inl (by omega)⟩, by omega⟩

theorem canonical_of_ofFloat {x : Float} {s : Bool} {m : ℕ} {e : ℤ} (h : Binary64.ofFloat x = .finite s m e) :
    Canonical m e ∧ e ≤ 971 := by
  rw [ofFloat_eq, Float.Model.unpack, ofParts_unpack] at h
  exact canonical_of_ofFields h

private theorem read_fields (s : Sign) (b : BitVec 11) (f : BitVec 52) :
    ofParts (UnpackedFloat.unpack Format.binary64 (packComponents Format.binary64 s b f)) =
      ofFields (isNegative s) b f := by
  have hsign : Sign.ofBitVec (unpackSign (packComponents Format.binary64 s b f)) = s := by
    rw [unpackSign_packComponents, Sign.ofBitVec_toBitVec]
  rw [ofParts_unpack, hsign, unpackExponent_packComponents, unpackMantissa_packComponents]

/-- Packing keeps what it is given, unless the exponent is too large. -/
theorem read_pack (s : Sign) {m : ℕ} {e : ℤ} (hm : 0 < m) (hc : Canonical m e) :
    ofParts (Float.Model.pack (.finite s m e hm)).unpack =
      if e ≤ 971 then .finite (isNegative s) m e else .infinite (isNegative s) := by
  obtain ⟨hlt, hlow, hfull⟩ := hc
  change ofParts (UnpackedFloat.unpack Format.binary64 (UnpackedFloat.pack Format.binary64 (.finite s m e hm))) = _
  have hpack : UnpackedFloat.pack Format.binary64 (.finite s m e hm) =
      if 2048 ≤ (e + 1023 + 52).toNat + 1 then packedInfinity Format.binary64 s
      else if m.log2 + 1 = 53 then
        packComponents Format.binary64 s (BitVec.ofNat 11 (e + 1023 + 52).toNat) (BitVec.ofNat 52 m)
      else packComponents Format.binary64 s (0#11) (BitVec.ofNat 52 m) := rfl
  rw [hpack]
  by_cases htop : e ≤ 971
  · rw [if_neg (by omega), if_pos htop]
    by_cases hlog : 2 ^ 52 ≤ m
    · have hlog' : m.log2 = 52 := (Nat.log2_eq_iff hm.ne').mpr ⟨hlog, hlt⟩
      rw [if_pos (by omega), read_fields]
      have hb : (BitVec.ofNat 11 (e + 1023 + 52).toNat).toNat = (e + 1023 + 52).toNat := by
        rw [BitVec.toNat_ofNat]
        omega
      have hf : (BitVec.ofNat 52 m).toNat = m - 2 ^ 52 := by
        rw [BitVec.toNat_ofNat]
        omega
      have htop' : BitVec.ofNat 11 (e + 1023 + 52).toNat ≠ -1#11 := by
        intro h
        have h' : (BitVec.ofNat 11 (e + 1023 + 52).toNat).toNat = 2047 := by rw [h]; rfl
        omega
      have hbottom : BitVec.ofNat 11 (e + 1023 + 52).toNat ≠ 0#11 := by
        intro h
        have h' : (BitVec.ofNat 11 (e + 1023 + 52).toNat).toNat = 0 := by rw [h]; rfl
        omega
      have hm' : 2 ^ 52 + (m - 2 ^ 52) = m := by omega
      have he' : ((e + 1023 + 52).toNat : ℤ) - 1075 = e := by omega
      rw [ofFields, if_neg htop', if_neg hbottom, hb, hf, hm', he']
    · have hlog' : m.log2 < 52 := (Nat.log2_lt hm.ne').mpr (by omega)
      have hf : (BitVec.ofNat 52 m).toNat = m := by
        rw [BitVec.toNat_ofNat]
        omega
      rw [if_neg (by omega), read_fields, ofFields, if_neg (by decide), if_pos rfl, hf]
      congr 1
      omega
  · rw [if_pos (by omega), if_neg htop, packedInfinity, read_fields]
    rfl

/-! ### Cut digits -/

def Represents (em : ExtendedMantissa) (q : ℚ) : Prop :=
  match em.roundBit, em.stickyBit with
  | false, false => q = em.mantissa
  | false, true => em.mantissa < q ∧ q < em.mantissa + 1 / 2
  | true, false => q = em.mantissa + 1 / 2
  | true, true => em.mantissa + 1 / 2 < q ∧ q < em.mantissa + 1

theorem represents_exact (m : ℕ) : Represents (ExtendedMantissa.ofMantissaAndAccuracy m .exact) m := rfl

theorem represents_fraction (n : ℕ) {d : ℕ} (hd : 0 < d) :
    Represents (ExtendedMantissa.ofMantissaAndAccuracy (n / d) (accuracyOfFraction (n % d) d)) ((n : ℚ) / d) := by
  have hd' : (0 : ℚ) < d := by exact_mod_cast hd
  have hsplit : (n : ℚ) / d = (n / d : ℕ) + ((n % d : ℕ) : ℚ) / d := by
    have h : (n : ℚ) = d * (n / d : ℕ) + (n % d : ℕ) := by exact_mod_cast (Nat.div_add_mod n d).symm
    field_simp
    linarith
  have hlt : ((n % d : ℕ) : ℚ) / d < 1 := by
    rw [div_lt_one hd']
    exact_mod_cast Nat.mod_lt n hd
  have hhalf : ∀ k : ℕ, ((k : ℚ) / d < 1 / 2 ↔ 2 * k < d) ∧ ((k : ℚ) / d = 1 / 2 ↔ 2 * k = d) := by
    intro k
    constructor
    · rw [div_lt_div_iff₀ hd' two_pos, one_mul, mul_comm]
      exact_mod_cast Iff.rfl
    · rw [div_eq_div_iff hd'.ne' two_ne_zero, one_mul, mul_comm]
      exact_mod_cast Iff.rfl
  rw [hsplit]
  unfold accuracyOfFraction
  split_ifs with hz
  · simp [Represents, ExtendedMantissa.ofMantissaAndAccuracy, hz]
  · have hpos : (0 : ℚ) < ((n % d : ℕ) : ℚ) / d := div_pos (by exact_mod_cast Nat.pos_of_ne_zero hz) hd'
    obtain ⟨hless, hsame⟩ := hhalf (n % d)
    rcases hc : compare (2 * (n % d)) d with _ | _ | _
    · have h := hless.mpr (compare_lt_iff_lt.mp hc)
      simp only [Represents, ExtendedMantissa.ofMantissaAndAccuracy]
      exact ⟨by linarith, by linarith⟩
    · have h := hsame.mpr (compare_eq_iff_eq.mp hc)
      simp only [Represents, ExtendedMantissa.ofMantissaAndAccuracy]
      linarith
    · have hgt := compare_gt_iff_gt.mp hc
      have h : (1 : ℚ) / 2 < ((n % d : ℕ) : ℚ) / d := by
        rcases lt_trichotomy (((n % d : ℕ) : ℚ) / d) (1 / 2) with h | h | h
        · have := hless.mp h
          omega
        · have := hsame.mp h
          omega
        · exact h
      simp only [Represents, ExtendedMantissa.ofMantissaAndAccuracy]
      exact ⟨by linarith, by linarith⟩

theorem Represents.floor {em : ExtendedMantissa} {q : ℚ} (h : Represents em q) : ⌊q⌋₊ = em.mantissa := by
  have hm : (0 : ℚ) ≤ em.mantissa := Nat.cast_nonneg _
  rw [Nat.floor_eq_iff (by unfold Represents at h; split at h <;> linarith)]
  unfold Represents at h
  split at h <;> constructor <;> linarith

/-- The two bits are enough to round. -/
theorem Represents.roundedMantissa {em : ExtendedMantissa} {q : ℚ} (h : Represents em q) :
    em.roundedMantissa = toEven q := by
  have hf := h.floor
  obtain ⟨m, r, s⟩ := em
  cases r <;> cases s <;>
    simp only [Represents, ExtendedMantissa.roundedMantissa, ExtendedMantissa.accuracy,
      Accuracy.roundToNearestEven, toEven, hf] at h ⊢
  all_goals split_ifs <;> first | rfl | omega | linarith

theorem Represents.shiftRightOne {em : ExtendedMantissa} {q : ℚ} (h : Represents em q) :
    Represents em.shiftRightOne (q / 2) := by
  obtain ⟨m, r, s⟩ := em
  rcases Nat.mod_two_eq_zero_or_one m with hr | hr
  · have hm : (m : ℚ) = 2 * (m / 2 : ℕ) := by exact_mod_cast (show m = 2 * (m / 2) by omega)
    have hbit : (m % 2 != 0) = false := by rw [hr]; rfl
    cases r <;> cases s <;>
      simp only [Represents, ExtendedMantissa.shiftRightOne, hbit, Bool.or_false, Bool.or_true] at h ⊢
    · linarith
    all_goals constructor <;> linarith
  · have hm : (m : ℚ) = 2 * (m / 2 : ℕ) + 1 := by exact_mod_cast (show m = 2 * (m / 2) + 1 by omega)
    have hbit : (m % 2 != 0) = true := by rw [hr]; rfl
    cases r <;> cases s <;>
      simp only [Represents, ExtendedMantissa.shiftRightOne, hbit, Bool.or_false, Bool.or_true] at h ⊢
    · linarith
    all_goals constructor <;> linarith

/-- Cutting digits keeps what is stood for. -/
theorem Represents.shiftRight {em : ExtendedMantissa} {q : ℚ} (h : Represents em q) (k : ℕ) :
    Represents (em >>> k) (q / 2 ^ k) := by
  change Represents (Nat.repeat ExtendedMantissa.shiftRightOne k em) _
  induction k with
  | zero => simpa [Nat.repeat] using h
  | succ k ih =>
    rw [Nat.repeat, pow_succ, ← div_div]
    exact ih.shiftRightOne

end ServiceBalancer.Number
