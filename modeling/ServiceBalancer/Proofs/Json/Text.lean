import ServiceBalancer.Json

/-! The text of a JSON value determines the value: where a value ends shows in the text, as long as
what follows does not go on with a digit. -/
namespace ServiceBalancer.Json

/-! ### Strings -/

private def escapedChars : List Char := (List.range 32).map Char.ofNat ++ ['"', '\\']

private theorem escapeChar_head {c : Char} (hc : c ∈ escapedChars) : (escapeChar c).head? = some '\\' := by
  have h : escapedChars.all (fun c => (escapeChar c).head? = some '\\') = true := by decide +kernel
  exact of_decide_eq_true (List.all_eq_true.mp h c hc)

private theorem eq_of_escapeChar_start {c d : Char} (hc : c ∈ escapedChars) (hd : d ∈ escapedChars)
    (h : escapeChar c <+: escapeChar d) : c = d := by
  have hall : escapedChars.all (fun c => escapedChars.all fun d => escapeChar c <+: escapeChar d → c = d) = true := by
    decide +kernel
  exact of_decide_eq_true (List.all_eq_true.mp (List.all_eq_true.mp hall c hc) d hd) h

private theorem escapeChar_plain {c : Char} (h : c ∉ escapedChars) : escapeChar c = [c] ∧ c ≠ '"' ∧ c ≠ '\\' := by
  have hq : c ≠ '"' := fun he => h (he ▸ by decide)
  have hb : c ≠ '\\' := fun he => h (he ▸ by decide)
  have hn : ¬c.toNat < 32 := fun hn =>
    h (List.mem_append_left _ (List.mem_map.mpr ⟨c.toNat, List.mem_range.mpr hn, Char.ofNat_toNat c⟩))
  have hne {d : Char} (hd : d.toNat < 32) : c ≠ d := fun he => hn (he ▸ hd)
  have h8 : c.toNat ≠ 8 := by omega
  have h12 : c.toNat ≠ 12 := by omega
  have h16 : ¬c.toNat < 16 := by omega
  refine ⟨?_, hq, hb⟩
  simp [escapeChar, hq, hb, h8, h12, h16, hn, hne (d := '\n') (by decide), hne (d := '\r') (by decide),
    hne (d := '\t') (by decide)]

private theorem escapeChar_cases (c : Char) :
    (c ∈ escapedChars ∧ ∃ l, escapeChar c = '\\' :: l) ∨ escapeChar c = [c] ∧ c ≠ '"' ∧ c ≠ '\\' := by
  by_cases hc : c ∈ escapedChars
  · exact .inl ⟨hc, List.head?_eq_some_iff.mp (escapeChar_head hc)⟩
  · exact .inr (escapeChar_plain hc)

private theorem escapeChar_append_ne (c : Char) (x y : List Char) : escapeChar c ++ x ≠ '"' :: y := by
  intro h
  rcases escapeChar_cases c with ⟨_, l, hc⟩ | ⟨hc, hq, _⟩
  · rw [hc] at h
    exact absurd (List.cons.inj h).1 (by decide)
  · rw [hc] at h
    exact hq (List.cons.inj h).1

private theorem escapeChar_append_inj {c d : Char} {x y : List Char} (h : escapeChar c ++ x = escapeChar d ++ y) :
    c = d ∧ x = y := by
  have hcd : c = d := by
    rcases escapeChar_cases c with ⟨hc, l, hcl⟩ | ⟨hc, _, hcb⟩ <;>
      rcases escapeChar_cases d with ⟨hd, m, hdm⟩ | ⟨hd, _, hdb⟩
    · rcases List.append_eq_append_iff.mp h with ⟨l, hl, _⟩ | ⟨l, hl, _⟩
      · exact eq_of_escapeChar_start hc hd ⟨l, hl.symm⟩
      · exact (eq_of_escapeChar_start hd hc ⟨l, hl.symm⟩).symm
    · rw [hcl, hd] at h
      exact absurd (List.cons.inj h).1.symm hdb
    · rw [hc, hdm] at h
      exact absurd (List.cons.inj h).1 hcb
    · rw [hc, hd] at h
      exact (List.cons.inj h).1
  subst hcd
  exact ⟨rfl, List.append_cancel_left h⟩

private theorem escaped_append_inj {s t x y : List Char}
    (h : s.flatMap escapeChar ++ '"' :: x = t.flatMap escapeChar ++ '"' :: y) : s = t ∧ x = y := by
  induction s generalizing t with
  | nil =>
    cases t with
    | nil => exact ⟨rfl, (List.cons.inj h).2⟩
    | cons d t =>
      rw [List.flatMap_cons, List.append_assoc] at h
      exact absurd h.symm (escapeChar_append_ne d _ _)
  | cons c s ih =>
    cases t with
    | nil =>
      rw [List.flatMap_cons, List.append_assoc] at h
      exact absurd h (escapeChar_append_ne c _ _)
    | cons d t =>
      simp only [List.flatMap_cons, List.append_assoc] at h
      obtain ⟨rfl, hs⟩ := escapeChar_append_inj h
      obtain ⟨rfl, hx⟩ := ih hs
      exact ⟨rfl, hx⟩

theorem renderString_append_inj {s t : String} {x y : List Char} (h : renderString s ++ x = renderString t ++ y) :
    s = t ∧ x = y := by
  simp only [renderString, List.cons_append, List.append_assoc, List.nil_append] at h
  obtain ⟨hs, hx⟩ := escaped_append_inj (List.cons.inj h).2
  exact ⟨String.toList_inj.mp hs, hx⟩

/-! ### Numbers -/

def NoDigit (x : List Char) : Prop := ∀ c ∈ x.head?, c.isDigit = false

private theorem digits_append_inj {a b x y : List Char} (ha : ∀ c ∈ a, c.isDigit = true)
    (hb : ∀ c ∈ b, c.isDigit = true) (hx : NoDigit x) (hy : NoDigit y) (h : a ++ x = b ++ y) : a = b ∧ x = y := by
  have htake {l z : List Char} (hl : ∀ c ∈ l, c.isDigit = true) (hz : NoDigit z) :
      (l ++ z).takeWhile Char.isDigit = l := by
    rw [List.takeWhile_append_of_pos hl]
    cases z with
    | nil => simp
    | cons c z => simp [hz c rfl]
  have hab : a = b := by rw [← htake ha hx, h, htake hb hy]
  subst hab
  exact ⟨rfl, List.append_cancel_left h⟩

private theorem isDigit_toDigits (n : Nat) : ∀ c ∈ Nat.toDigits 10 n, c.isDigit = true := fun _ hc =>
  Nat.isDigit_of_mem_toDigits (by decide) (by decide) hc

private theorem toDigits_append_inj {m n : Nat} {x y : List Char} (hx : NoDigit x) (hy : NoDigit y)
    (h : Nat.toDigits 10 m ++ x = Nat.toDigits 10 n ++ y) : m = n ∧ x = y := by
  obtain ⟨hd, hxy⟩ := digits_append_inj (isDigit_toDigits m) (isDigit_toDigits n) hx hy h
  have hv := congrArg (Nat.ofDigitChars 10 · 0) hd
  exact ⟨by simpa using hv, hxy⟩

private theorem toDigits_append_ne {n : Nat} {x y : List Char} : Nat.toDigits 10 n ++ x ≠ '-' :: y := by
  intro h
  cases hd : Nat.toDigits 10 n with
  | nil => exact Nat.toDigits_ne_nil hd
  | cons c l =>
    rw [hd] at h
    have hc := isDigit_toDigits n c (hd ▸ .head _)
    rw [(List.cons.inj h).1] at hc
    exact absurd hc (by decide)

theorem renderNumber_append_inj {m n : Int} {x y : List Char} (hx : NoDigit x) (hy : NoDigit y)
    (h : renderNumber m ++ x = renderNumber n ++ y) : m = n ∧ x = y := by
  unfold renderNumber at h
  split at h <;> split at h
  · obtain ⟨hmn, hxy⟩ := toDigits_append_inj hx hy (List.cons.inj h).2
    exact ⟨by omega, hxy⟩
  · exact absurd h.symm toDigits_append_ne
  · exact absurd h toDigits_append_ne
  · obtain ⟨hmn, hxy⟩ := toDigits_append_inj hx hy h
    exact ⟨by omega, hxy⟩

/-! ### Values -/

private def kindOf (c : Char) : Nat :=
  if c = 'n' then 0 else if c = 't' then 1 else if c = 'f' then 2 else if c = '-' ∨ c.isDigit then 3
  else if c = '"' then 4 else if c = '[' then 5 else if c = '\x7b' then 6 else 7

private def kind : Json → Nat
  | .null => 0
  | .bool b => if b then 1 else 2
  | .num _ => 3
  | .str _ => 4
  | .arr _ => 5
  | .obj _ => 6

private theorem render_cons (j : Json) : ∃ c l, j.render = c :: l ∧ kindOf c = kind j := by
  cases j with
  | null => exact ⟨'n', _, by rw [render], rfl⟩
  | bool b =>
    cases b
    · exact ⟨'f', _, by rw [render], rfl⟩
    · exact ⟨'t', _, by rw [render], rfl⟩
  | num n =>
    simp only [render, renderNumber]
    split
    · exact ⟨'-', _, rfl, rfl⟩
    · cases hd : Nat.toDigits 10 n.natAbs with
      | nil => exact absurd hd Nat.toDigits_ne_nil
      | cons c l =>
        have hc : c.isDigit = true := isDigit_toDigits n.natAbs c (by simp [hd])
        have hne {d : Char} (h : d.isDigit = false) : c ≠ d := by
          rintro rfl
          simp [hc] at h
        refine ⟨c, l, rfl, ?_⟩
        simp [kindOf, kind, hc, hne (d := 'n') (by decide), hne (d := 't') (by decide), hne (d := 'f') (by decide)]
  | str s => exact ⟨'"', _, by rw [render, renderString], rfl⟩
  | arr items => exact ⟨'[', _, by rw [render], rfl⟩
  | obj members => exact ⟨'\x7b', _, by rw [render], rfl⟩

private theorem kind_eq_of_render {a b : Json} {x y : List Char} (h : a.render ++ x = b.render ++ y) :
    kind a = kind b := by
  obtain ⟨c, l, hc, hk⟩ := render_cons a
  obtain ⟨d, m, hd, hm⟩ := render_cons b
  rw [hc, hd] at h
  rw [← hk, ← hm, (List.cons.inj h).1]

private theorem render_append_ne {j : Json} {c : Char} {x y : List Char} (hc : kindOf c = 7) :
    j.render ++ x ≠ c :: y := by
  intro h
  obtain ⟨d, l, hd, hk⟩ := render_cons j
  rw [hd] at h
  rw [(List.cons.inj h).1, hc] at hk
  cases j with
  | bool b => cases b <;> cases hk
  | _ => cases hk

private def afterItem : List Json → List Char
  | [] => []
  | item :: rest => ',' :: renderItems (item :: rest)

private theorem renderItems_cons (item : Json) (rest : List Json) :
    renderItems (item :: rest) = item.render ++ afterItem rest := by
  cases rest <;> simp [renderItems, afterItem]

private def afterMember : List (String × Json) → List Char
  | [] => []
  | m :: rest => ',' :: renderMembers (m :: rest)

private theorem renderMembers_cons (key : String) (value : Json) (rest : List (String × Json)) :
    renderMembers ((key, value) :: rest) = renderString key ++ ':' :: (value.render ++ afterMember rest) := by
  cases rest <;> simp [renderMembers, afterMember]

private theorem noDigit_cons {c : Char} (h : c.isDigit = false) (x : List Char) : NoDigit (c :: x) := by
  rintro d hd
  rwa [← Option.some.inj hd]

private theorem noDigit_afterItem (rest : List Json) (x : List Char) : NoDigit (afterItem rest ++ ']' :: x) := by
  cases rest <;> exact noDigit_cons (by decide) _

private theorem noDigit_afterMember (rest : List (String × Json)) (x : List Char) :
    NoDigit (afterMember rest ++ '\x7d' :: x) := by
  cases rest <;> exact noDigit_cons (by decide) _

mutual
theorem render_append_inj : ∀ {a b : Json} {x y : List Char}, NoDigit x → NoDigit y →
    a.render ++ x = b.render ++ y → a = b ∧ x = y
  | .null, b, x, y, _, _, h => by
    have hk := kind_eq_of_render h
    cases b with
    | null => exact ⟨rfl, List.append_cancel_left h⟩
    | bool b => cases b <;> cases hk
    | _ => cases hk
  | .bool a, b, x, y, _, _, h => by
    have hk := kind_eq_of_render h
    cases b with
    | bool b =>
      have hb : a = b := by cases a <;> cases b <;> first | rfl | cases hk
      subst hb
      exact ⟨rfl, List.append_cancel_left h⟩
    | _ => cases a <;> cases hk
  | .num a, b, x, y, hx, hy, h => by
    have hk := kind_eq_of_render h
    cases b with
    | num b =>
      simp only [render] at h
      obtain ⟨rfl, hxy⟩ := renderNumber_append_inj hx hy h
      exact ⟨rfl, hxy⟩
    | bool b => cases b <;> cases hk
    | _ => cases hk
  | .str a, b, x, y, _, _, h => by
    have hk := kind_eq_of_render h
    cases b with
    | str b =>
      simp only [render] at h
      obtain ⟨rfl, hxy⟩ := renderString_append_inj h
      exact ⟨rfl, hxy⟩
    | bool b => cases b <;> cases hk
    | _ => cases hk
  | .arr as, b, x, y, _, _, h => by
    have hk := kind_eq_of_render h
    cases b with
    | arr bs =>
      simp only [render, List.cons_append, List.append_assoc, List.nil_append] at h
      obtain ⟨rfl, hxy⟩ := renderItems_append_inj (List.cons.inj h).2
      exact ⟨rfl, hxy⟩
    | bool b => cases b <;> cases hk
    | _ => cases hk
  | .obj as, b, x, y, _, _, h => by
    have hk := kind_eq_of_render h
    cases b with
    | obj bs =>
      simp only [render, List.cons_append, List.append_assoc, List.nil_append] at h
      obtain ⟨rfl, hxy⟩ := renderMembers_append_inj (List.cons.inj h).2
      exact ⟨rfl, hxy⟩
    | bool b => cases b <;> cases hk
    | _ => cases hk

private theorem renderItems_append_inj : ∀ {as bs : List Json} {x y : List Char},
    renderItems as ++ ']' :: x = renderItems bs ++ ']' :: y → as = bs ∧ x = y
  | [], [], _, _, h => ⟨rfl, (List.cons.inj h).2⟩
  | [], b :: bs, _, _, h => by
    rw [renderItems_cons, List.append_assoc] at h
    exact absurd h.symm (render_append_ne (by decide))
  | a :: as, [], _, _, h => by
    rw [renderItems_cons, List.append_assoc] at h
    exact absurd h (render_append_ne (by decide))
  | a :: as, b :: bs, x, y, h => by
    rw [renderItems_cons, renderItems_cons, List.append_assoc, List.append_assoc] at h
    obtain ⟨rfl, hrest⟩ := render_append_inj (noDigit_afterItem as x) (noDigit_afterItem bs y) h
    cases as with
    | nil =>
      cases bs with
      | nil => exact ⟨rfl, (List.cons.inj hrest).2⟩
      | cons b bs => exact absurd (List.cons.inj hrest).1 (by decide)
    | cons c as =>
      cases bs with
      | nil => exact absurd (List.cons.inj hrest).1 (by decide)
      | cons b bs =>
        have hitems : renderItems (c :: as) ++ ']' :: x = renderItems (b :: bs) ++ ']' :: y := (List.cons.inj hrest).2
        obtain ⟨he, hxy⟩ := renderItems_append_inj hitems
        exact ⟨by rw [he], hxy⟩

private theorem renderMembers_append_inj : ∀ {as bs : List (String × Json)} {x y : List Char},
    renderMembers as ++ '\x7d' :: x = renderMembers bs ++ '\x7d' :: y → as = bs ∧ x = y
  | [], [], _, _, h => ⟨rfl, (List.cons.inj h).2⟩
  | [], (l, b) :: bs, _, _, h => by
    rw [renderMembers_cons, renderString] at h
    exact absurd (List.cons.inj h).1 (by decide)
  | (k, a) :: as, [], _, _, h => by
    rw [renderMembers_cons, renderString] at h
    exact absurd (List.cons.inj h).1 (by decide)
  | (k, a) :: as, (l, b) :: bs, x, y, h => by
    simp only [renderMembers_cons, List.append_assoc, List.cons_append] at h
    obtain ⟨rfl, hvalue⟩ := renderString_append_inj h
    obtain ⟨rfl, hrest⟩ :=
      render_append_inj (noDigit_afterMember as x) (noDigit_afterMember bs y) (List.cons.inj hvalue).2
    cases as with
    | nil =>
      cases bs with
      | nil => exact ⟨rfl, (List.cons.inj hrest).2⟩
      | cons b bs => exact absurd (List.cons.inj hrest).1 (by decide)
    | cons c as =>
      cases bs with
      | nil => exact absurd (List.cons.inj hrest).1 (by decide)
      | cons b bs =>
        have hmembers : renderMembers (c :: as) ++ '\x7d' :: x = renderMembers (b :: bs) ++ '\x7d' :: y :=
          (List.cons.inj hrest).2
        obtain ⟨he, hxy⟩ := renderMembers_append_inj hmembers
        exact ⟨by rw [he], hxy⟩
end

/-- Values with the same text are the same. -/
theorem text_injective {a b : Json} (h : a.text = b.text) : a = b := by
  have hr : a.render ++ [] = b.render ++ [] := by simpa [text] using congrArg String.toList h
  have hn : NoDigit [] := by simp [NoDigit]
  exact (render_append_inj hn hn hr).1

end ServiceBalancer.Json
