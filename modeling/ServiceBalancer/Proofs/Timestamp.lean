import ServiceBalancer.Timestamp
import Mathlib.Algebra.Group.Nat.Defs
import Mathlib.Data.Option.Basic

/-! A moment is read back from its text as it was, up to what the text leaves out. The year must have four digits; the
text of any other year cannot be read. -/
namespace ServiceBalancer.Timestamp

/-! ### Numbers in digits -/

private theorem foldl_digits (l : List Char) (value : Nat) :
    l.foldl (fun n c => n * 10 + (c.toNat - 48)) value = Nat.ofDigitChars 10 l value := by
  rw [Nat.ofDigitChars_eq_foldl]
  congr 1
  funext n c
  rw [Nat.mul_comm]
  rfl

theorem digits?_append {digits : List Char} (hd : ∀ c ∈ digits, c.isDigit = true) (value : Nat) (rest : List Char) :
    digits? digits.length value (digits ++ rest) = some (Nat.ofDigitChars 10 digits value, rest) := by
  rw [← foldl_digits]
  induction digits generalizing value with
  | nil => rfl
  | cons c digits ih =>
    rw [List.length_cons, List.cons_append, digits?, if_pos (hd c (.head _)), ih fun x hx => hd x (.tail _ hx),
      List.foldl_cons]

theorem isDigit_padded (width n : Nat) : ∀ c ∈ padded width n, c.isDigit = true := by
  intro c hc
  rcases List.mem_append.mp hc with hz | hd
  · rw [List.eq_of_mem_replicate hz]
    rfl
  · exact Nat.isDigit_of_mem_toDigits (by decide) (by decide) hd

theorem ofDigitChars_padded (width n : Nat) : Nat.ofDigitChars 10 (padded width n) 0 = n := by
  rw [padded, Nat.ofDigitChars_append, Nat.ofDigitChars_replicate_zero, Nat.mul_zero]
  exact Nat.ofDigitChars_toDigits (by decide) (by decide)

theorem length_padded {width n : Nat} (hw : 0 < width) (h : n < 10 ^ width) : (padded width n).length = width := by
  have hl := (Nat.length_toDigits_le_iff (by decide) hw).mpr h
  simp only [padded, List.length_append, List.length_replicate]
  omega

theorem digits?_padded (width : Nat) {n : Nat} (hw : 0 < width) (h : n < 10 ^ width) (rest : List Char) :
    digits? width 0 (padded width n ++ rest) = some (n, rest) := by
  have hread := digits?_append (isDigit_padded width n) 0 rest
  rwa [length_padded hw h, ofDigitChars_padded] at hread

/-- Six digits of fraction are read as microseconds. -/
theorem fraction?_padded {n : Nat} (h : n < 10 ^ 6) : fraction? ('.' :: (padded 6 n ++ ['Z'])) = some (n * 1000, ['Z']) := by
  have hd := isDigit_padded 6 n
  have hlength : (padded 6 n).length = 6 := length_padded (by decide) h
  have htake : (padded 6 n ++ ['Z']).takeWhile Char.isDigit = padded 6 n := by
    rw [List.takeWhile_append_of_pos hd]
    exact List.append_nil _
  have hdrop : (padded 6 n ++ ['Z']).dropWhile Char.isDigit = ['Z'] := by
    rw [List.dropWhile_append_of_pos hd]
    rfl
  have hnonempty : (padded 6 n).isEmpty = false := by
    rw [List.isEmpty_eq_false_iff]
    intro he
    rw [he] at hlength
    cases hlength
  have hkept : (padded 6 n ++ List.replicate 9 '0').take 9 = padded 6 n ++ ['0', '0', '0'] := by
    rw [List.take_append, hlength, List.take_of_length_le (by omega)]
    rfl
  have hvalue : (padded 6 n ++ ['0', '0', '0']).foldl (fun n c => n * 10 + (c.toNat - 48)) 0 = n * 1000 := by
    rw [List.foldl_append, foldl_digits _ 0, ofDigitChars_padded]
    simp
    omega
  simp only [fraction?, htake, hdrop, hnonempty, hkept, hvalue, Bool.false_eq_true, if_false]

/-! ### Years and months -/

def daysInYear (year : Int) : Nat := if isLeapYear year then 366 else 365

theorem daysBeforeYear_succ (year : Int) : daysBeforeYear (year + 1) = daysBeforeYear year + daysInYear year := by
  by_cases hleap : isLeapYear year
  all_goals
    have h := hleap
    simp only [isLeapYear, Bool.and_eq_true, Bool.or_eq_true, decide_eq_true_eq, ne_eq] at h
    simp only [daysInYear, hleap, daysBeforeYear]
    simp
    omega

/-- The days before a year are as many as years of mean length would have, up to two. -/
theorem daysBeforeYear_bounds (year : Int) :
    146097 * year - 396 ≤ 400 * daysBeforeYear year ∧ 400 * daysBeforeYear year ≤ 146097 * year + 699 := by
  simp only [daysBeforeYear]
  omega

private theorem daysBeforeMonth_succ (year : Int) (month : Nat) (h : 1 ≤ month) :
    daysBeforeMonth year (month + 1) = daysBeforeMonth year month + daysInMonth year month := by
  have hrange : (List.range (month + 1)).drop 1 = (List.range month).drop 1 ++ [month] := by
    rw [List.range_succ, List.drop_append_of_le_length (by simpa using h)]
  rw [daysBeforeMonth, hrange, List.foldl_append]
  rfl

private theorem daysBeforeMonth_thirteen (year : Int) : daysBeforeMonth year 13 = daysInYear year := by
  simp only [daysBeforeMonth, daysInYear, daysInMonth]
  cases isLeapYear year <;> decide

private theorem monthAndDay_spec (year : Int) (fuel month day : Nat) (hm : 1 ≤ month) (hlast : month + fuel = 12)
    (hday : daysBeforeMonth year month + day < daysInYear year) :
    let (m, d) := monthAndDay year fuel month day
    1 ≤ m ∧ m ≤ 12 ∧ 1 ≤ d ∧ d ≤ daysInMonth year m ∧
      daysBeforeMonth year m + d = daysBeforeMonth year month + day + 1 := by
  induction fuel generalizing month day with
  | zero =>
    obtain rfl : month = 12 := by omega
    have hend := daysBeforeMonth_succ year 12 (by decide)
    rw [daysBeforeMonth_thirteen] at hend
    simp only [monthAndDay]
    omega
  | succ fuel ih =>
    simp only [monthAndDay]
    split
    · next hd =>
      simp only
      omega
    · next hd =>
      have hnext := daysBeforeMonth_succ year month hm
      have hrest := ih (month + 1) (day - daysInMonth year month) (by omega) (by omega) (by omega)
      simp only at hrest
      omega

/-- A day lies in its year and month. -/
theorem civilDate_spec (days : Int) :
    let (year, month, day) := civilDate days
    1 ≤ month ∧ month ≤ 12 ∧ 1 ≤ day ∧ day ≤ daysInMonth year month ∧
      daysBeforeYear year - epochDays + daysBeforeMonth year month + day - 1 = days := by
  simp only [civilDate]
  generalize htotal : days + epochDays = total
  generalize hguess : total * 400 / 146097 = guess
  generalize hyear : (if total < daysBeforeYear guess then guess - 1
    else if daysBeforeYear (guess + 1) ≤ total then guess + 1 else guess) = year
  have hin : daysBeforeYear year ≤ total ∧ total < daysBeforeYear (year + 1) := by
    have hbefore := daysBeforeYear_bounds (guess - 1)
    have hafter := daysBeforeYear_bounds (guess + 1 + 1)
    split at hyear
    · next hlow =>
      subst hyear
      rw [show guess - 1 + 1 = guess by omega]
      omega
    · split at hyear <;> subst hyear <;> omega
  have hspec := monthAndDay_spec year 11 1 (total - daysBeforeYear year).toNat (by decide) (by decide) (by
    have hlength := daysBeforeYear_succ year
    have hfirst : daysBeforeMonth year 1 = 0 := rfl
    omega)
  have hfirst : daysBeforeMonth year 1 = 0 := rfl
  simp only at hspec ⊢
  omega

/-! ### Texts -/

private theorem ofText?_parts (year month day hour minute second nanos : Nat) {fraction : List Char} (hy : year ≤ 9999)
    (hm : 1 ≤ month ∧ month ≤ 12) (hd : 1 ≤ day ∧ day ≤ daysInMonth year month) (hh : hour < 24) (hmin : minute < 60)
    (hs : second < 60) (hf : fraction? fraction = some (nanos, ['Z'])) :
    ofText? (.ofList (padded 4 year ++ '-' :: (padded 2 month ++ '-' :: (padded 2 day ++ 'T' :: (padded 2 hour ++
      ':' :: (padded 2 minute ++ ':' :: (padded 2 second ++ fraction))))))) =
    some ⟨((daysBeforeYear year - epochDays + daysBeforeMonth year month + day - 1) * 86400 +
      (hour * 3600 + minute * 60 + second : Nat)) * 1000000000 + nanos⟩ := by
  have hmonth : daysInMonth year month ≤ 31 := by
    simp only [daysInMonth]
    split <;> split <;> decide
  have htwo {n : Nat} (hn : n < 100) (rest : List Char) : digits? 2 0 (padded 2 n ++ rest) = some (n, rest) :=
    digits?_padded 2 (by decide) hn rest
  have hsep (c : Char) (rest : List Char) : char? c (c :: rest) = some rest := by rw [char?, if_pos rfl]
  have hguard : (1 ≤ month && month ≤ 12 && 1 ≤ day && day ≤ daysInMonth year month) = true := by simp [hm, hd]
  have hclock : (hour < 24 && minute < 60 && second ≤ 60) = true := by simp [hh, hmin, Nat.le_of_lt hs]
  have hoffset : offset? ['Z'] = some 0 := rfl
  have hmark (rest : List Char) : (char? 'T' ('T' :: rest)).or ((char? 't' ('T' :: rest)).or
      (char? ' ' ('T' :: rest))) = some rest := by rw [hsep, Option.some_or]
  unfold ofText?
  rw [String.toList_ofList]
  -- The parts are read one after the other.
  refine Option.bind_eq_some_iff.mpr ⟨_, digits?_padded 4 (by decide) (show year < 10 ^ 4 by omega) _, ?_⟩
  refine Option.bind_eq_some_iff.mpr ⟨_, hsep _ _, ?_⟩
  refine Option.bind_eq_some_iff.mpr ⟨_, htwo (show month < 100 by omega) _, ?_⟩
  refine Option.bind_eq_some_iff.mpr ⟨_, hsep _ _, ?_⟩
  refine Option.bind_eq_some_iff.mpr ⟨_, htwo (show day < 100 by omega) _, ?_⟩
  refine Option.bind_eq_some_iff.mpr ⟨_, hmark _, ?_⟩
  refine Option.bind_eq_some_iff.mpr ⟨_, htwo (show hour < 100 by omega) _, ?_⟩
  refine Option.bind_eq_some_iff.mpr ⟨_, hsep _ _, ?_⟩
  refine Option.bind_eq_some_iff.mpr ⟨_, htwo (show minute < 100 by omega) _, ?_⟩
  refine Option.bind_eq_some_iff.mpr ⟨_, hsep _ _, ?_⟩
  refine Option.bind_eq_some_iff.mpr ⟨_, htwo (show second < 100 by omega) _, ?_⟩
  refine Option.bind_eq_some_iff.mpr ⟨_, hf, ?_⟩
  refine Option.bind_eq_some_iff.mpr ⟨_, hoffset, ?_⟩
  refine Option.bind_eq_some_iff.mpr ⟨_, if_pos hguard, ?_⟩
  refine Option.bind_eq_some_iff.mpr ⟨_, if_pos hclock, ?_⟩
  simp

private theorem ofText?_dateTime {t : Timestamp} {fraction : List Char} {nanos : Nat}
    (hyear : 0 ≤ (civilDate (t.nanos / 1000000000 / 86400)).1 ∧
      (civilDate (t.nanos / 1000000000 / 86400)).1 ≤ 9999) (hf : fraction? fraction = some (nanos, ['Z'])) :
    ofText? (.ofList (t.dateTime ++ fraction)) = some ⟨t.nanos / 1000000000 * 1000000000 + nanos⟩ := by
  have hdate := civilDate_spec (t.nanos / 1000000000 / 86400)
  generalize hcivil : civilDate (t.nanos / 1000000000 / 86400) = date at hdate hyear
  obtain ⟨year, month, day⟩ := date
  obtain ⟨hm₁, hm₂, hd₁, hd₂, hdays⟩ := hdate
  obtain ⟨y, rfl⟩ := Int.eq_ofNat_of_zero_le hyear.1
  have hread := ofText?_parts y month day ((t.nanos / 1000000000 % 86400).toNat / 3600)
    ((t.nanos / 1000000000 % 86400).toNat / 60 % 60) ((t.nanos / 1000000000 % 86400).toNat % 60) nanos
    (by omega) ⟨hm₁, hm₂⟩ ⟨hd₁, hd₂⟩ (by omega) (by omega) (by omega) hf
  have htext : t.dateTime ++ fraction =
      padded 4 y ++ '-' :: (padded 2 month ++ '-' :: (padded 2 day ++ 'T' ::
        (padded 2 ((t.nanos / 1000000000 % 86400).toNat / 3600) ++
          ':' :: (padded 2 ((t.nanos / 1000000000 % 86400).toNat / 60 % 60) ++
            ':' :: (padded 2 ((t.nanos / 1000000000 % 86400).toNat % 60) ++ fraction))))) := by
    simp only [dateTime, hcivil]
    rw [if_neg (by omega), if_neg (by omega)]
    simp
  rw [htext, hread, hdays]
  refine congrArg some (congrArg Timestamp.mk ?_)
  omega

/-- A moment of a year of four digits is read back to the microsecond. -/
theorem ofText?_microText {t : Timestamp}
    (hyear : 0 ≤ (civilDate (t.nanos / 1000000000 / 86400)).1 ∧
      (civilDate (t.nanos / 1000000000 / 86400)).1 ≤ 9999) :
    ofText? t.microText = some t.truncateMicros := by
  have hmicros : (t.nanos % 1000000000 / 1000).toNat < 10 ^ 6 := by omega
  rw [microText, List.append_assoc, List.cons_append, ofText?_dateTime hyear (fraction?_padded hmicros), truncateMicros]
  refine congrArg some (congrArg Timestamp.mk ?_)
  omega

/-- Whether a moment is one that its text tells: a whole second in a year of four digits. -/
def IsWhole (t : Timestamp) : Prop :=
  t.nanos % 1000000000 = 0 ∧ 0 ≤ (civilDate (t.nanos / 1000000000 / 86400)).1 ∧
    (civilDate (t.nanos / 1000000000 / 86400)).1 ≤ 9999

instance (t : Timestamp) : Decidable t.IsWhole := inferInstanceAs (Decidable (_ ∧ _))

theorem ofText?_text {t : Timestamp} (h : t.IsWhole) : ofText? t.text = some t := by
  have hread := ofText?_dateTime h.2 (show fraction? ['Z'] = some (0, ['Z']) from rfl)
  rw [text, hread]
  refine congrArg some (congrArg Timestamp.mk ?_)
  have := h.1
  omega

private theorem ofText?_signed (sign : Char) (hs : sign.isDigit = false) (rest : List Char) :
    ofText? (.ofList (sign :: rest)) = none := by
  have hnone : digits? 4 0 (sign :: rest) = none := by simp [digits?, hs]
  unfold ofText?
  rw [String.toList_ofList, hnone]
  rfl

/-- A moment whose text can be read is read from it to the microsecond. -/
theorem eq_truncateMicros_of_ofText? {t u : Timestamp} (h : ofText? t.microText = some u) : u = t.truncateMicros := by
  by_cases hyear : 0 ≤ (civilDate (t.nanos / 1000000000 / 86400)).1 ∧
      (civilDate (t.nanos / 1000000000 / 86400)).1 ≤ 9999
  · rw [ofText?_microText hyear] at h
    exact (Option.some.inj h).symm
  · exfalso
    simp only [microText, dateTime] at h
    split at h
    · rw [List.append_assoc] at h
      simp only [List.cons_append, ofText?_signed '-' rfl, reduceCtorEq] at h
    · rw [if_pos (by omega)] at h
      simp only [List.cons_append, ofText?_signed '+' rfl, reduceCtorEq] at h

end ServiceBalancer.Timestamp
