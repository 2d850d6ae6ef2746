import Mathlib.Data.List.Infix
import ServiceBalancer.Text.Lines

/-! Lines and markers as parts of a text. A text can be ruled into lines in one way only, what holds no line break is in
one of its lines, and what follows the last marker is found by where the marker stands. -/
namespace ServiceBalancer.Text

/-! ### Markers -/

variable {marker s tail : List Char}

theorem occursIn_iff : occursIn marker s = true ↔ marker <:+: s := by
  induction s with
  | nil => rw [occursIn, List.isEmpty_iff, List.infix_nil]
  | cons c rest ih => rw [occursIn, Bool.or_eq_true, List.isPrefixOf_iff_prefix, ih, List.infix_cons_iff]

/-- Whether `tail` is what a text has from the last place on at which a marker stands. -/
structure FromLast (marker s tail : List Char) : Prop where
  ends : tail <:+ s
  starts : marker <+: tail
  last : ∀ other, other <:+ s → marker <+: other → tail <:+ other

theorem FromLast.self (h : FromLast marker s tail) : FromLast marker tail tail where
  ends := List.suffix_rfl
  starts := h.starts
  last other ho hm := h.last other (ho.trans h.ends) hm

/-- The marker stands at the front of what follows its last place, and nowhere else in it. -/
theorem FromLast.once (h : FromLast marker s tail) {before after : List Char} (he : before ++ marker ++ after = tail) :
    before = [] := by
  have hend : marker ++ after <:+ tail := ⟨before, by rw [← List.append_assoc, he]⟩
  have hall := h.self.last _ hend (List.prefix_append ..)
  have hlength := congrArg List.length he
  have hle := hall.length_le
  simp only [List.length_append] at hlength hle
  exact List.length_eq_zero_iff.mp (by omega)

theorem FromLast.unique {other : List Char} (h : FromLast marker s tail) (h' : FromLast marker s other) :
    tail = other :=
  (h.last other h'.ends h'.starts).eq_of_length_le (h'.last tail h.ends h.starts).length_le

theorem fromLast?_eq_none : fromLast? marker s = none ↔ ¬marker <:+: s := by
  rw [← occursIn_iff, ← fromLast?_isSome, Option.not_isSome_iff_eq_none]

theorem fromLast_of_fromLast? (h : fromLast? marker s = some tail) : FromLast marker s tail := by
  induction s with
  | nil =>
    simp only [fromLast?, Option.ite_none_right_eq_some, Option.some.injEq, List.isEmpty_iff] at h
    obtain ⟨rfl, rfl⟩ := h
    exact ⟨List.suffix_rfl, List.prefix_rfl, fun _ _ _ => List.nil_suffix⟩
  | cons c rest ih =>
    cases hrest : fromLast? marker rest with
    | some later =>
      obtain rfl : later = tail := by simpa [fromLast?, hrest] using h
      have hlater := ih hrest
      refine ⟨hlater.ends.trans (List.suffix_cons ..), hlater.starts, fun other ho hm => ?_⟩
      rcases List.suffix_cons_iff.mp ho with rfl | ho
      · exact hlater.ends.trans (List.suffix_cons ..)
      · exact hlater.last other ho hm
    | none =>
      simp only [fromLast?, hrest, Option.ite_none_right_eq_some, Option.some.injEq] at h
      obtain ⟨hstarts, rfl⟩ := h
      refine ⟨List.suffix_rfl, List.isPrefixOf_iff_prefix.mp hstarts, fun other ho hm => ?_⟩
      rcases List.suffix_cons_iff.mp ho with rfl | ho
      · exact List.suffix_rfl
      · exact absurd (hm.isInfix.trans ho.isInfix) (fromLast?_eq_none.mp hrest)

theorem fromLast?_eq_some : fromLast? marker s = some tail ↔ FromLast marker s tail := by
  refine ⟨fromLast_of_fromLast?, fun h => ?_⟩
  cases hf : fromLast? marker s with
  | some other => rw [h.unique (fromLast_of_fromLast? hf)]
  | none => exact absurd (h.starts.isInfix.trans h.ends.isInfix) (fromLast?_eq_none.mp hf)

/-! ### Lines -/

/-- The ways that a line can end before another one: with a line feed, and a carriage return just before it, if there is
one, belongs to the ending. -/
inductive Ending (line : List Char) : List Char → Prop where
  | lineFeed (bare : line.getLast? ≠ some '\r') : Ending line ['\n']
  | carriageReturn : Ending line ['\r', '\n']

/-- The way to rule a text into lines. Only a last line that is not empty can do without an ending. -/
inductive Ruled : List Char → List (List Char) → Prop where
  | nil : Ruled [] []
  | last {line : List Char} (filled : line ≠ []) (whole : '\n' ∉ line) : Ruled line [line]
  | next {line ending rest : List Char} {lines : List (List Char)} (whole : '\n' ∉ line) (ends : Ending line ending)
      (later : Ruled rest lines) : Ruled (line ++ ending ++ rest) (line :: lines)

private theorem linesFrom_unended {rest : List Char} (h : '\n' ∉ rest) (line : List Char) :
    linesFrom line rest = if (line.reverse ++ rest).isEmpty then [] else [line.reverse ++ rest] := by
  induction rest generalizing line with
  | nil => simp [linesFrom]
  | cons c rest ih =>
    obtain ⟨hc, hrest⟩ := List.ne_and_not_mem_of_not_mem_cons h
    simp [linesFrom, Ne.symm hc, ih hrest]

private theorem linesFrom_ended {front : List Char} (h : '\n' ∉ front) (line rest : List Char) :
    linesFrom line (front ++ '\n' :: rest) = finishLine (front.reverse ++ line) :: lines rest := by
  induction front generalizing line with
  | nil => rfl
  | cons c front ih =>
    obtain ⟨hc, hfront⟩ := List.ne_and_not_mem_of_not_mem_cons h
    simp [linesFrom, Ne.symm hc, ih hfront]

private theorem finishLine_carriageReturn (line : List Char) : finishLine (line ++ ['\r']).reverse = line := by
  simp [finishLine]

private theorem finishLine_bare {line : List Char} (h : line.getLast? ≠ some '\r') :
    finishLine line.reverse = line := by
  unfold finishLine
  split
  · next back he =>
    obtain rfl : line = back.reverse ++ ['\r'] := by simpa using congrArg List.reverse he
    simp at h
  · exact line.reverse_reverse

theorem Ruled.lines_eq {lines : List (List Char)} (h : Ruled s lines) : Text.lines s = lines := by
  induction h with
  | nil => rfl
  | last filled whole =>
    rw [Text.lines, linesFrom_unended whole]
    simp [filled]
  | @next line _ rest _ whole ends _ ih =>
    cases ends with
    | lineFeed bare =>
      rw [List.append_assoc, List.singleton_append, Text.lines, linesFrom_ended whole, List.append_nil,
        finishLine_bare bare, ih]
    | carriageReturn =>
      have hfront : '\n' ∉ line ++ ['\r'] := by simp [whole]
      have htext : line ++ ['\r', '\n'] ++ rest = (line ++ ['\r']) ++ '\n' :: rest := by simp
      rw [htext, Text.lines, linesFrom_ended hfront, List.append_nil, finishLine_carriageReturn, ih]

/-- Every text can be ruled: it is ruled up to its first line feed, and so on with what is behind it. -/
theorem exists_ruled (s : List Char) : ∃ lines, Ruled s lines := by
  induction hn : s.length using Nat.strongRecOn generalizing s with
  | ind n ih =>
    subst hn
    by_cases hbreak : '\n' ∈ s
    · obtain ⟨front, rest, rfl, hfront⟩ := List.eq_append_cons_of_mem hbreak
      obtain ⟨lines, hlines⟩ := ih rest.length (by simp; omega) rest rfl
      by_cases hreturn : front.getLast? = some '\r'
      · obtain ⟨line, rfl⟩ := List.getLast?_eq_some_iff.mp hreturn
        have hwhole : '\n' ∉ line := fun h => hfront (List.mem_append_left _ h)
        exact ⟨line :: lines, by simpa using Ruled.next hwhole .carriageReturn hlines⟩
      · exact ⟨front :: lines, by simpa using Ruled.next hfront (.lineFeed hreturn) hlines⟩
    · rcases eq_or_ne s [] with rfl | hs
      · exact ⟨[], .nil⟩
      · exact ⟨[s], .last hs hbreak⟩

theorem ruled_iff {lines : List (List Char)} : Ruled s lines ↔ Text.lines s = lines := by
  refine ⟨Ruled.lines_eq, ?_⟩
  rintro rfl
  obtain ⟨lines, h⟩ := exists_ruled s
  rwa [h.lines_eq]

theorem Ruled.of_mem {lines : List (List Char)} (h : Ruled s lines) {line : List Char} (hl : line ∈ lines) :
    '\n' ∉ line ∧ line <:+: s := by
  induction h with
  | nil => cases hl
  | last _ whole =>
    obtain rfl := List.mem_singleton.mp hl
    exact ⟨whole, List.infix_rfl⟩
  | @next first ending rest _ whole _ _ ih =>
    rcases List.mem_cons.mp hl with rfl | hl
    · exact ⟨whole, (List.prefix_append ..).isInfix.trans (List.prefix_append ..).isInfix⟩
    · exact ⟨(ih hl).1, (ih hl).2.trans (List.suffix_append ..).isInfix⟩

private theorem infix_append_cons {c : Char} (h : c ∉ marker) (a b : List Char) :
    marker <:+: a ++ c :: b ↔ marker <:+: a ∨ marker <:+: b := by
  have start {part : List Char} (hpart : part <+: c :: b) (hc : c ∉ part) : part = [] := by
    rcases List.prefix_cons_iff.mp hpart with rfl | ⟨rest, rfl, _⟩
    · rfl
    · exact absurd (.head _) hc
  rw [List.infix_append_iff, List.infix_cons_iff]
  constructor
  · rintro (ha | (hstart | hb) | ⟨front, back, rfl, hfront, hback⟩)
    · exact .inl ha
    · exact .inl (start hstart h ▸ List.nil_infix)
    · exact .inr hb
    · rw [start hback fun hc => h (List.mem_append_right _ hc), List.append_nil]
      exact .inl hfront.isInfix
  · rintro (ha | hb)
    · exact .inl ha
    · exact .inr (.inl (.inr hb))

/-- What holds no line break is in a text if and only if it is in one of its lines. -/
theorem Ruled.infix_iff {lines : List (List Char)} (h : Ruled s lines) (hm : marker ≠ []) (hn : '\n' ∉ marker)
    (hr : '\r' ∉ marker) : marker <:+: s ↔ ∃ line ∈ lines, marker <:+: line := by
  induction h with
  | nil => simp [hm]
  | last => simp
  | @next line _ rest _ _ ends _ ih =>
    simp only [List.mem_cons, exists_eq_or_imp, ← ih, List.append_assoc]
    cases ends with
    | lineFeed => exact infix_append_cons hn line rest
    | carriageReturn =>
      -- The part can hold neither character of this ending, so each of them separates the line from what follows.
      rw [List.cons_append, infix_append_cons hr, List.singleton_append, ← List.nil_append ('\n' :: rest),
        infix_append_cons hn]
      simp [hm]

end ServiceBalancer.Text
