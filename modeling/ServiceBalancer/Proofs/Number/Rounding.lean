import Mathlib.Data.Int.Log
import Mathlib.Data.Rat.Floor
import Mathlib.Tactic.Linarith
import Mathlib.Tactic.NormNum
import Mathlib.Tactic.Positivity
import Mathlib.Tactic.Ring
import ServiceBalancer.Number.Binary64

/-! Rounding of fractions to the grid of the binary64 numbers: 53 digits, none of them behind the last place that small
numbers have. It keeps the order, and what is on the grid already stays as it is. -/
namespace ServiceBalancer.Number

/-! ### Whole numbers -/

/-- The whole number nearest to a fraction, a half going to the even neighbour, and zero below zero. -/
def toEven (q : ℚ) : ℕ :=
  if q - ⌊q⌋₊ < 1 / 2 then ⌊q⌋₊ else if 1 / 2 < q - ⌊q⌋₊ then ⌊q⌋₊ + 1 else ⌊q⌋₊ + ⌊q⌋₊ % 2

theorem toEven_bounds (q : ℚ) : ⌊q⌋₊ ≤ toEven q ∧ toEven q ≤ ⌊q⌋₊ + 1 := by
  unfold toEven
  split_ifs <;> omega

@[simp] theorem toEven_natCast (n : ℕ) : toEven n = n := by
  simp [toEven]

theorem toEven_mono {q r : ℚ} (h : q ≤ r) : toEven q ≤ toEven r := by
  have hf : ⌊q⌋₊ ≤ ⌊r⌋₊ := Nat.floor_mono h
  rcases hf.lt_or_eq with hlt | heq
  · have hq := (toEven_bounds q).2
    have hr := (toEven_bounds r).1
    omega
  · -- Behind one floor the order is that of what is left over.
    have hrest : q - (⌊r⌋₊ : ℚ) ≤ r - (⌊r⌋₊ : ℚ) := by linarith
    unfold toEven
    rw [heq]
    split_ifs <;> first | omega | linarith

theorem le_toEven {n : ℕ} {q : ℚ} (h : (n : ℚ) ≤ q) : n ≤ toEven q := by
  simpa using toEven_mono h

theorem toEven_le {n : ℕ} {q : ℚ} (h : q ≤ n) : toEven q ≤ n := by
  simpa using toEven_mono h

/-- Rounding a quotient of whole numbers. -/
theorem nearest_eq (num : ℕ) {den : ℕ} (hd : 0 < den) : nearest num den = toEven ((num : ℚ) / den) := by
  have hd' : (0 : ℚ) < den := by exact_mod_cast hd
  have hf : ⌊(num : ℚ) / den⌋₊ = num / den := Rat.natFloor_natCast_div_natCast num den
  have hsplit : (num : ℚ) = den * (num / den : ℕ) + (num % den : ℕ) := by
    exact_mod_cast (Nat.div_add_mod num den).symm
  have hrest : (num : ℚ) / den - (num / den : ℕ) = (num % den : ℕ) / den := by
    field_simp
    linarith
  have hlt : (num : ℚ) / den - (num / den : ℕ) < 1 / 2 ↔ 2 * (num % den) < den := by
    rw [hrest, div_lt_div_iff₀ hd' two_pos]
    constructor
    · intro h
      have h' : 2 * ((num % den : ℕ) : ℚ) < den := by linarith
      exact_mod_cast h'
    · intro h
      have h' : 2 * ((num % den : ℕ) : ℚ) < den := by exact_mod_cast h
      linarith
  have hgt : 1 / 2 < (num : ℚ) / den - (num / den : ℕ) ↔ den < 2 * (num % den) := by
    rw [hrest, div_lt_div_iff₀ two_pos hd']
    constructor
    · intro h
      have h' : (den : ℚ) < 2 * (num % den : ℕ) := by linarith
      exact_mod_cast h'
    · intro h
      have h' : (den : ℚ) < 2 * (num % den : ℕ) := by exact_mod_cast h
      linarith
  simp only [nearest, toEven, hf, hlt, hgt]
  split_ifs <;> omega

/-! ### The grid -/

def place (v : ℚ) : ℤ := max (Int.log 2 v - 52) (-1074)

def rounded (v : ℚ) : ℚ := toEven (v / 2 ^ place v) * 2 ^ place v

private theorem two_zpow_pos (e : ℤ) : (0 : ℚ) < 2 ^ e := zpow_pos two_pos e

/-- What has a digit is not zero. -/
theorem mul_zpow_pos {m : ℕ} (hm : 0 < m) (e : ℤ) : (0 : ℚ) < m * 2 ^ e := mul_pos (Nat.cast_pos.mpr hm) (two_zpow_pos e)

theorem two_zpow_mono {e f : ℤ} (h : e ≤ f) : (2 : ℚ) ^ e ≤ 2 ^ f := zpow_le_zpow_right₀ one_le_two h

/-- A coarser place is a whole multiple of a finer one. -/
theorem two_zpow_split {e f : ℤ} (h : e ≤ f) : (2 : ℚ) ^ f = ((2 ^ (f - e).toNat : ℕ) : ℚ) * 2 ^ e := by
  push_cast
  rw [← zpow_natCast, ← zpow_add₀ two_ne_zero]
  congr 1
  omega

theorem log_bounds {v : ℚ} (hv : 0 < v) : (2 : ℚ) ^ Int.log 2 v ≤ v ∧ v < 2 ^ (Int.log 2 v + 1) := by
  constructor
  · exact_mod_cast Int.zpow_log_le_self one_lt_two hv
  · exact_mod_cast Int.lt_zpow_succ_log_self one_lt_two v

/-- Rounding leaves 53 digits, or one more at a power of two. -/
theorem digits_le (v : ℚ) : toEven (v / 2 ^ place v) ≤ 2 ^ 53 := by
  apply toEven_le
  rw [div_le_iff₀ (two_zpow_pos _)]
  have h : v ≤ 2 ^ (53 + place v) := by
    rcases le_or_gt v 0 with hneg | hpos
    · exact hneg.trans (two_zpow_pos _).le
    · refine (log_bounds hpos).2.le.trans (two_zpow_mono ?_)
      unfold place
      omega
  rwa [zpow_add₀ two_ne_zero] at h

/-- Only at the last place of the small numbers are there fewer digits. -/
theorem digits_full {v : ℚ} (hv : 0 < v) : 2 ^ 52 ≤ toEven (v / 2 ^ place v) ∨ place v = -1074 := by
  by_cases hmin : place v = -1074
  · exact .inr hmin
  · left
    apply le_toEven
    rw [le_div_iff₀ (two_zpow_pos _)]
    have h : (2 : ℚ) ^ (52 + place v) ≤ v := by
      refine (two_zpow_mono ?_).trans (log_bounds hv).1
      unfold place at hmin ⊢
      omega
    rwa [zpow_add₀ two_ne_zero] at h

/-- The next number on the grid is not below what was rounded. -/
theorem le_next (v : ℚ) : v ≤ (toEven (v / 2 ^ place v) + 1 : ℕ) * 2 ^ place v := by
  rw [← div_le_iff₀ (two_zpow_pos _)]
  have hfloor : ⌊v / 2 ^ place v⌋₊ + 1 ≤ toEven (v / 2 ^ place v) + 1 := Nat.succ_le_succ (toEven_bounds _).1
  exact (Nat.lt_floor_add_one _).le.trans (by exact_mod_cast hfloor)

theorem rounded_zero : rounded 0 = 0 := by
  have h : toEven (0 : ℚ) = 0 := by simpa using toEven_natCast 0
  simp [rounded, h]

theorem rounded_nonneg (v : ℚ) : 0 ≤ rounded v := mul_nonneg (Nat.cast_nonneg _) (two_zpow_pos _).le

/-- What is on the grid stays as it is. -/
theorem rounded_of_digits {m : ℕ} {e : ℤ} (hm : m ≤ 2 ^ 53) (he : -1074 ≤ e) : rounded (m * 2 ^ e) = m * 2 ^ e := by
  rcases Nat.eq_zero_or_pos m with rfl | hpos
  · simp [rounded_zero]
  set v : ℚ := m * 2 ^ e with hv
  have hvpos : 0 < v := mul_zpow_pos hpos e
  have hexact : ∀ p ≤ e, (toEven (v / 2 ^ p) : ℚ) * 2 ^ p = v := by
    intro p hp
    have hq : v / 2 ^ p = ((m * 2 ^ (e - p).toNat : ℕ) : ℚ) := by
      rw [hv, two_zpow_split hp, div_eq_iff (two_zpow_pos p).ne']
      push_cast
      ring
    rw [hq, toEven_natCast, ← hq, div_mul_cancel₀ _ (two_zpow_pos p).ne']
  by_cases hp : place v ≤ e
  · exact hexact _ hp
  · -- Only the power of two with one digit too many has a coarser last place than its own.
    have hlog : Int.log 2 v = e + 53 := by
      have hlow : e + 53 ≤ Int.log 2 v := by
        unfold place at hp
        omega
      have hhigh : v ≤ 2 ^ (e + 53) := by
        have hm' : (m : ℚ) ≤ 2 ^ (53 : ℤ) := by exact_mod_cast hm
        rw [hv, add_comm, zpow_add₀ two_ne_zero]
        exact mul_le_mul_of_nonneg_right hm' (two_zpow_pos e).le
      have := (zpow_le_zpow_iff_right₀ (one_lt_two (α := ℚ))).mp ((log_bounds hvpos).1.trans hhigh)
      omega
    have hplace : place v = e + 1 := by
      unfold place
      omega
    have hm' : (m : ℚ) = 2 ^ (53 : ℤ) := by
      have hle := (log_bounds hvpos).1
      rw [hlog, hv, add_comm, zpow_add₀ two_ne_zero] at hle
      have hge := le_of_mul_le_mul_right hle (two_zpow_pos e)
      have hle' : (m : ℚ) ≤ 2 ^ (53 : ℤ) := by exact_mod_cast hm
      exact le_antisymm hle' hge
    have hq : v / 2 ^ (e + 1) = ((2 ^ 52 : ℕ) : ℚ) := by
      rw [hv, hm', div_eq_iff (two_zpow_pos _).ne', zpow_add₀ two_ne_zero]
      push_cast
      ring
    rw [rounded, hplace, hq, toEven_natCast, ← hq, div_mul_cancel₀ _ (two_zpow_pos _).ne']

theorem rounded_rounded (v : ℚ) : rounded (rounded v) = rounded v :=
  rounded_of_digits (digits_le v) (le_max_right _ _)

private theorem rounded_le_two_zpow {v : ℚ} {e : ℤ} (hv : v ≤ 2 ^ e) (he : place v ≤ e) : rounded v ≤ 2 ^ e := by
  have hq : v / 2 ^ place v ≤ ((2 ^ (e - place v).toNat : ℕ) : ℚ) := by
    rw [div_le_iff₀ (two_zpow_pos _), ← two_zpow_split he]
    exact hv
  calc rounded v ≤ ((2 ^ (e - place v).toNat : ℕ) : ℚ) * 2 ^ place v :=
        mul_le_mul_of_nonneg_right (by exact_mod_cast toEven_le hq) (two_zpow_pos _).le
    _ = 2 ^ e := (two_zpow_split he).symm

private theorem two_zpow_le_rounded {v : ℚ} {e : ℤ} (hv : 2 ^ e ≤ v) (he : place v ≤ e) : 2 ^ e ≤ rounded v := by
  have hq : ((2 ^ (e - place v).toNat : ℕ) : ℚ) ≤ v / 2 ^ place v := by
    rw [le_div_iff₀ (two_zpow_pos _), ← two_zpow_split he]
    exact hv
  calc (2 : ℚ) ^ e = ((2 ^ (e - place v).toNat : ℕ) : ℚ) * 2 ^ place v := two_zpow_split he
    _ ≤ rounded v := mul_le_mul_of_nonneg_right (by exact_mod_cast le_toEven hq) (two_zpow_pos _).le

/-- Rounding keeps the order. -/
theorem rounded_mono {v w : ℚ} (hv : 0 ≤ v) (h : v ≤ w) : rounded v ≤ rounded w := by
  rcases hv.eq_or_lt with rfl | hpos
  · rw [rounded_zero]
    exact rounded_nonneg w
  have hlog : Int.log 2 v ≤ Int.log 2 w := Int.log_mono_right hpos h
  by_cases heq : place v = place w
  · have hq : v / 2 ^ place v ≤ w / 2 ^ place v := div_le_div_of_nonneg_right h (two_zpow_pos _).le
    have hn := toEven_mono hq
    rw [rounded, rounded, ← heq]
    exact mul_le_mul_of_nonneg_right (by exact_mod_cast hn) (two_zpow_pos _).le
  · -- A power of two lies between them, and neither passes it.
    have hlt : Int.log 2 v < Int.log 2 w ∧ place v ≤ Int.log 2 w ∧ place w ≤ Int.log 2 w := by
      unfold place at heq ⊢
      omega
    have hbelow : v ≤ 2 ^ Int.log 2 w := (log_bounds hpos).2.le.trans (two_zpow_mono (by omega))
    have habove : (2 : ℚ) ^ Int.log 2 w ≤ w := (log_bounds (hpos.trans_le h)).1
    exact (rounded_le_two_zpow hbelow hlt.2.1).trans (two_zpow_le_rounded habove hlt.2.2)

/-- What is on the grid and not above a fraction is not above it rounded. -/
theorem le_rounded {m : ℕ} {e : ℤ} {v : ℚ} (hm : m ≤ 2 ^ 53) (he : -1074 ≤ e) (h : m * 2 ^ e ≤ v) :
    m * 2 ^ e ≤ rounded v := by
  rw [← rounded_of_digits hm he]
  exact rounded_mono (mul_nonneg (Nat.cast_nonneg _) (two_zpow_pos e).le) h

/-- What is on the grid and not below a fraction is not below it rounded. -/
theorem rounded_le {m : ℕ} {e : ℤ} {v : ℚ} (hm : m ≤ 2 ^ 53) (he : -1074 ≤ e) (hv : 0 ≤ v) (h : v ≤ m * 2 ^ e) :
    rounded v ≤ m * 2 ^ e := by
  rw [← rounded_of_digits hm he]
  exact rounded_mono hv h

theorem rounded_le_zpow {e : ℤ} {v : ℚ} (he : -1074 ≤ e) (hv : 0 ≤ v) (h : v ≤ 2 ^ e) : rounded v ≤ 2 ^ e := by
  simpa using rounded_le (m := 1) (e := e) (by norm_num) he hv (by simpa using h)

end ServiceBalancer.Number
