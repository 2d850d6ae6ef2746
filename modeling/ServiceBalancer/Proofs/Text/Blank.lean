import Mathlib.Data.List.DropRight
import ServiceBalancer.Text.Blank

/-! Trimming: blanks around a text do not count, and a trimmed text has none to drop. -/
namespace ServiceBalancer.Text

theorem trimChars_eq (s : List Char) : trimChars s = (s.dropWhile isBlank).rdropWhile isBlank := rfl

private theorem rdropWhile_pad {s b : List Char} (hb : ∀ c ∈ b, isBlank c = true) :
    (s ++ b).rdropWhile isBlank = s.rdropWhile isBlank := by
  rw [List.rdropWhile, List.reverse_append, List.dropWhile_append_of_pos (by simpa using hb), ← List.rdropWhile]

theorem trimChars_pad {a s b : List Char} (ha : ∀ c ∈ a, isBlank c = true) (hb : ∀ c ∈ b, isBlank c = true) :
    trimChars (a ++ s ++ b) = trimChars s := by
  rw [trimChars_eq, trimChars_eq, List.append_assoc, List.dropWhile_append_of_pos ha, List.dropWhile_append]
  split_ifs with h
  · rw [List.isEmpty_iff.mp h, List.dropWhile_eq_nil_iff.mpr hb]
  · exact rdropWhile_pad hb

theorem trimChars_trimChars (s : List Char) : trimChars (trimChars s) = trimChars s := by
  rw [trimChars_eq s]
  generalize ht : s.dropWhile isBlank = t
  have hfront : (t.rdropWhile isBlank).dropWhile isBlank = t.rdropWhile isBlank := by
    obtain ⟨rest, hrest⟩ := List.rdropWhile_prefix isBlank t
    cases hu : t.rdropWhile isBlank with
    | nil => rfl
    | cons c u =>
      have hc := List.head?_dropWhile_not isBlank s
      rw [ht, ← hrest, hu] at hc
      exact List.dropWhile_cons_of_neg (by simpa using hc)
  rw [trimChars_eq, hfront, List.rdropWhile_idempotent]

theorem mem_of_mem_trimChars {s : List Char} {c : Char} (h : c ∈ trimChars s) : c ∈ s :=
  (List.dropWhile_sublist isBlank).subset ((List.rdropWhile_prefix isBlank _).subset h)

theorem trimChars_eq_nil {s : List Char} (h : ∀ c ∈ s, isBlank c = true) : trimChars s = [] := by
  rw [trimChars_eq, List.dropWhile_eq_nil_iff.mpr h, List.rdropWhile_nil]

end ServiceBalancer.Text
