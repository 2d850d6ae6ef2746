import ServiceBalancer.Cloud.Tags
import ServiceBalancer.Proofs.Data.SortedMap
import ServiceBalancer.Proofs.Text.Blank

/-! Tags as text. Tags can be written in many ways, with blanks anywhere around keys, values and commas and with items
that name no tag in between, and each way is read as the same tags. What is read from any text can be written again. -/
namespace ServiceBalancer.Tags
open Text (isBlank trimChars trimChars_pad trimChars_trimChars mem_of_mem_trimChars trimChars_eq_nil)

/-! ### Fields -/

theorem fields_eq_splitOn (separator : Char) (s : List Char) : fields separator s = s.splitOn separator := by
  induction s with
  | nil => rfl
  | cons c rest ih =>
    rw [fields, ih, List.splitOn_cons_eq_if_modifyHead]
    by_cases hc : c = separator
    · simp [hc]
    · rw [if_neg hc, if_neg (by simpa using hc)]
      obtain ⟨first, others, hsplit⟩ := List.exists_cons_of_ne_nil (List.splitOn_ne_nil separator rest)
      rw [hsplit]
      rfl

theorem fields_intercalate {separator : Char} {items : List (List Char)} (hne : items ≠ [])
    (hs : ∀ item ∈ items, separator ∉ item) : fields separator ([separator].intercalate items) = items := by
  rw [fields_eq_splitOn, List.splitOn_intercalate separator hs hne]

theorem fields_plain {separator : Char} {s : List Char} (h : separator ∉ s) : fields separator s = [s] := by
  rw [fields_eq_splitOn, List.splitOn_eq_singleton h]

theorem fields_append {separator : Char} {s : List Char} (h : separator ∉ s) (rest : List Char) :
    fields separator (s ++ separator :: rest) = s :: fields separator rest := by
  rw [fields_eq_splitOn, fields_eq_splitOn, List.splitOn_append_cons_self_of_not_mem h]

/-- The first field goes up to the first separator. -/
theorem fields_cons (separator : Char) (s : List Char) :
    ∃ rest, fields separator s = s.takeWhile (· ≠ separator) :: rest := by
  induction s with
  | nil => exact ⟨[], rfl⟩
  | cons c s ih =>
    obtain ⟨rest, ih⟩ := ih
    by_cases hc : c = separator
    · exact ⟨fields separator s, by simp [fields, hc]⟩
    · exact ⟨rest, by simp [fields, hc, ih]⟩

/-- No field holds the separator, and a field holds nothing that the text does not. -/
theorem of_mem_fields {separator : Char} {s field : List Char} (h : field ∈ fields separator s) :
    separator ∉ field ∧ field ⊆ s := by
  induction s generalizing field with
  | nil =>
    obtain rfl := List.mem_singleton.mp h
    exact ⟨List.not_mem_nil, List.nil_subset _⟩
  | cons c s ih =>
    have hlater {field : List Char} (h : field ∈ fields separator s) : separator ∉ field ∧ field ⊆ c :: s :=
      ⟨(ih h).1, List.subset_cons_of_subset _ (ih h).2⟩
    by_cases hc : c = separator
    · rw [fields, if_pos hc] at h
      rcases List.mem_cons.mp h with rfl | h
      · exact ⟨List.not_mem_nil, List.nil_subset _⟩
      · exact hlater h
    · obtain ⟨rest, hfields⟩ := fields_cons separator s
      rw [fields, if_neg hc, hfields] at h
      rw [hfields] at ih hlater
      rcases List.mem_cons.mp h with rfl | h
      · have hfirst := ih (.head _)
        exact ⟨by simpa [Ne.symm hc] using hfirst.1, List.cons_subset_cons c hfirst.2⟩
      · exact hlater (.tail _ h)

/-! ### Items -/

/-- Whether a text can be a key or a value: it holds no separator, and no blanks at its ends. -/
structure Plain (s : String) : Prop where
  comma : ',' ∉ s.toList
  equals : '=' ∉ s.toList
  trimmed : Text.trim s = s

/-- Whether a tag can be written. -/
structure Proper (tag : String × String) : Prop where
  key : Plain tag.1
  named : tag.1 ≠ ""
  value : Plain tag.2

theorem Plain.trimChars {s : String} (h : Plain s) : trimChars s.toList = s.toList := by
  simpa [Text.trim] using congrArg String.toList h.trimmed

/-- What is between separators is plain after trimming. -/
theorem plain_trimmed {s : List Char} (hc : ',' ∉ s) (he : '=' ∉ s) : Plain (.ofList (trimChars s)) where
  comma := by simpa using fun h => hc (mem_of_mem_trimChars h)
  equals := by simpa using fun h => he (mem_of_mem_trimChars h)
  trimmed := by simp [Text.trim, trimChars_trimChars]

/-- Whether an item names no tag: there is nothing but blanks before its first equals sign. -/
def Void (item : List Char) : Prop := ∀ c ∈ item.takeWhile (· ≠ '='), isBlank c = true

instance (item : List Char) : Decidable (Void item) :=
  decidable_of_iff ((item.takeWhile (· ≠ '=')).all isBlank = true) List.all_eq_true

/-- The ways to write tags as items. -/
inductive Spells : List (String × String) → List (List Char) → Prop where
  | nil : Spells [] []
  | tag {tags : List (String × String)} {items : List (List Char)} {a b c d : List Char} (key value : String)
      (blank : ∀ x ∈ a ++ b ++ c ++ d, isBlank x = true) (rest : Spells tags items) :
      Spells ((key, value) :: tags) ((a ++ key.toList ++ b ++ '=' :: (c ++ value.toList ++ d)) :: items)
  | void {tags : List (String × String)} {items : List (List Char)} (item : List Char) (comma : ',' ∉ item)
      (void : Void item) (rest : Spells tags items) : Spells tags (item :: items)

def item (tag : String × String) : List Char := tag.1.toList ++ '=' :: tag.2.toList

def text (items : List (List Char)) : String := .ofList ([','].intercalate items)

theorem spells_items (tags : List (String × String)) : Spells tags (tags.map item) := by
  induction tags with
  | nil => exact .nil
  | cons tag tags ih => simpa [item] using Spells.tag (a := []) (b := []) (c := []) (d := []) tag.1 tag.2 (by simp) ih

private theorem not_mem_of_blank {s : List Char} (h : ∀ c ∈ s, isBlank c = true) : ',' ∉ s ∧ '=' ∉ s :=
  ⟨fun hc => absurd (h _ hc) (by decide), fun he => absurd (h _ he) (by decide)⟩

theorem ofItem?_tag {tag : String × String} (ht : Proper tag) {a b c d : List Char}
    (blank : ∀ x ∈ a ++ b ++ c ++ d, isBlank x = true) :
    ofItem? (a ++ tag.1.toList ++ b ++ '=' :: (c ++ tag.2.toList ++ d)) = some tag := by
  simp only [List.mem_append, or_imp, forall_and] at blank
  obtain ⟨⟨⟨ha, hb⟩, hc⟩, hd⟩ := blank
  have hkey : '=' ∉ a ++ tag.1.toList ++ b := by
    simp [(not_mem_of_blank ha).2, ht.key.equals, (not_mem_of_blank hb).2]
  have hvalue : '=' ∉ c ++ tag.2.toList ++ d := by
    simp [(not_mem_of_blank hc).2, ht.value.equals, (not_mem_of_blank hd).2]
  have hnamed : tag.1.toList ≠ [] := fun h => ht.named (String.toList_eq_nil_iff.mp h)
  simp only [ofItem?, fields_append hkey, fields_plain hvalue, List.headD_cons, trimChars_pad ha hb, trimChars_pad hc hd,
    ht.key.trimChars, ht.value.trimChars, List.isEmpty_iff, hnamed, if_false, String.ofList_toList]

theorem ofItem?_void {item : List Char} (h : Void item) : ofItem? item = none := by
  obtain ⟨rest, hfields⟩ := fields_cons '=' item
  simp only [ofItem?, hfields, trimChars_eq_nil h, List.isEmpty_nil, if_true]

/-- The tag of an item between commas can be written. -/
theorem proper_of_ofItem? {item : List Char} (hc : ',' ∉ item) {tag : String × String} (h : ofItem? item = some tag) :
    Proper tag := by
  obtain ⟨rest, hfields⟩ := fields_cons '=' item
  have hplain : ∀ field ∈ fields '=' item, Plain (.ofList (trimChars field)) := fun field hf =>
    plain_trimmed (fun hm => hc ((of_mem_fields hf).2 hm)) (of_mem_fields hf).1
  rw [hfields] at hplain
  simp only [ofItem?, hfields, Option.ite_none_left_eq_some, Option.some.injEq] at h
  obtain ⟨hnamed, rfl⟩ := h
  refine ⟨hplain _ (.head _), by simpa using hnamed, ?_⟩
  cases rest with
  | nil => exact plain_trimmed (s := []) List.not_mem_nil List.not_mem_nil
  | cons value others => exact hplain value (.tail _ (.head _))

/-! ### Whole texts -/

theorem Spells.comma {tags : List (String × String)} {items : List (List Char)} (h : Spells tags items)
    (ht : ∀ tag ∈ tags, Proper tag) : ∀ item ∈ items, ',' ∉ item := by
  induction h with
  | nil => exact fun item hi => absurd hi List.not_mem_nil
  | @tag tags items a b c d key value blank rest ih =>
    have hfirst := ht _ (.head _)
    have hblank := (not_mem_of_blank blank).1
    simp only [List.mem_append, not_or] at hblank
    refine List.forall_mem_cons.mpr ⟨?_, ih fun tag hm => ht tag (.tail _ hm)⟩
    simp [hblank, hfirst.key.comma, hfirst.value.comma]
  | void _ comma _ rest ih => exact List.forall_mem_cons.mpr ⟨comma, ih ht⟩

theorem Spells.filterMap_ofItem? {tags : List (String × String)} {items : List (List Char)} (h : Spells tags items)
    (ht : ∀ tag ∈ tags, Proper tag) : items.filterMap ofItem? = tags := by
  induction h with
  | nil => rfl
  | tag key value blank rest ih =>
    rw [List.filterMap_cons_some (ofItem?_tag (ht _ (.head _)) blank), ih fun tag hm => ht tag (.tail _ hm)]
  | void _ _ void rest ih => rw [List.filterMap_cons_none (ofItem?_void void), ih ht]

theorem parse_text {tags : List (String × String)} {items : List (List Char)} (h : Spells tags items)
    (ht : ∀ tag ∈ tags, Proper tag) : parse (text items) = .ofList tags := by
  have hitems : (fields ',' ([','].intercalate items)).filterMap ofItem? = tags := by
    rcases eq_or_ne items [] with rfl | hne
    · rw [← h.filterMap_ofItem? ht]
      rfl
    · rw [fields_intercalate hne (h.comma ht), h.filterMap_ofItem? ht]
  rw [parse, text, String.toList_ofList, hitems]

theorem proper_of_mem_parse {s : String} {tag : String × String} (h : tag ∈ (parse s).entries) : Proper tag := by
  obtain ⟨item, hitem, htag⟩ := List.mem_filterMap.mp (SortedMap.mem_of_mem_ofList h)
  exact proper_of_ofItem? (of_mem_fields hitem).1 htag

theorem proper_of_mem_ofAnnotations {annotations : SortedMap String String} {tag : String × String}
    (h : tag ∈ (ofAnnotations annotations).entries) : Proper tag := by
  unfold ofAnnotations at h
  split at h
  · exact proper_of_mem_parse h
  · exact absurd h List.not_mem_nil

theorem ofAnnotations_text {annotations : SortedMap String String} {tags : List (String × String)}
    {items : List (List Char)} (ht : ∀ tag ∈ tags, Proper tag) (hs : Spells tags items)
    (hw : annotations.get? WellKnown.additionalResourceTags = some (text items)) :
    ofAnnotations annotations = .ofList tags := by
  rw [ofAnnotations, hw]
  exact parse_text hs ht

/-- However tags are written, they are read from the annotation as they are, the last value of a repeated key. The tags of
any annotations can be written, without a blank for instance, and are read again however that is done. -/
theorem read_as_written :
    (∀ (annotations : SortedMap String String) (tags : List (String × String)) (items : List (List Char)),
      (∀ tag ∈ tags, Proper tag) → Spells tags items →
      annotations.get? WellKnown.additionalResourceTags = some (text items) →
      ∀ key, (ofAnnotations annotations).get? key = (tags.reverse.find? (·.1 = key)).map (·.2)) ∧
    ∀ annotations : SortedMap String String,
      (∀ tag ∈ (ofAnnotations annotations).entries, Proper tag) ∧
      Spells (ofAnnotations annotations).entries ((ofAnnotations annotations).entries.map item) ∧
      ∀ (again : SortedMap String String) (items : List (List Char)), Spells (ofAnnotations annotations).entries items →
        again.get? WellKnown.additionalResourceTags = some (text items) →
        ofAnnotations again = ofAnnotations annotations := by
  refine ⟨fun annotations tags items ht hs hw key => ?_, fun annotations => ?_⟩
  · rw [ofAnnotations_text ht hs hw, SortedMap.get?_ofList]
  · have hproper : ∀ tag ∈ (ofAnnotations annotations).entries, Proper tag := fun _ => proper_of_mem_ofAnnotations
    refine ⟨hproper, spells_items _, fun again items hs hw => ?_⟩
    rw [ofAnnotations_text hproper hs hw, SortedMap.ofList_entries]

private def scattered : String := "\u3000K\t=  V K1 ,=x=y, \u2003,Key1=,,K=v\u00a0"

private def repeating : List (String × String) := [("K", "V K1"), ("Key1", ""), ("K", "v")]

private def annotatedWith (tagList : String) : SortedMap String String :=
  .ofList [(WellKnown.additionalResourceTags, tagList)]

private theorem get?_annotatedWith (tagList : String) :
    (annotatedWith tagList).get? WellKnown.additionalResourceTags = some tagList := by
  rw [annotatedWith, SortedMap.get?_ofList]
  rfl

private def annotated : SortedMap String String := annotatedWith scattered

theorem read_as_written_scattered :
    ∃ items, (∀ tag ∈ repeating, Proper tag) ∧ Spells repeating items ∧ text items = scattered ∧
      annotated.get? WellKnown.additionalResourceTags = some (text items) ∧
      (ofAnnotations annotated).get? "K" = some "v" ∧ (ofAnnotations annotated).get? "Key1" = some "" ∧
      ofAnnotations (annotatedWith (text ((ofAnnotations annotated).entries.map item))) = ofAnnotations annotated := by
  have hproper : ∀ tag ∈ repeating, Proper tag := by
    have hplain : ∀ s ∈ ["K", "V K1", "Key1", "", "v"], ',' ∉ s.toList ∧ '=' ∉ s.toList ∧ Text.trim s = s := by
      decide +kernel
    have hp {s : String} (h : s ∈ ["K", "V K1", "Key1", "", "v"]) : Plain s :=
      ⟨(hplain s h).1, (hplain s h).2.1, (hplain s h).2.2⟩
    simp only [repeating, List.forall_mem_cons]
    exact ⟨⟨hp (by simp), by simp, hp (by simp)⟩, ⟨hp (by simp), by simp, hp (by simp)⟩,
      ⟨hp (by simp), by simp, hp (by simp)⟩, nofun⟩
  obtain ⟨items, hspells, htext⟩ : ∃ items, Spells repeating items ∧ text items = scattered :=
    ⟨_, .tag (a := ['\u3000']) (b := ['\t']) (c := [' ', ' ']) (d := [' ']) "K" "V K1"
      (List.all_eq_true.mp (by decide))
      (.void "=x=y".toList (by decide) (by decide) (.void " \u2003".toList (by decide) (by decide)
        (.tag (a := []) (b := []) (c := []) (d := []) "Key1" "" (List.all_eq_true.mp (by decide))
          (.void [] (by decide) (by decide) (.tag (a := []) (b := []) (c := []) (d := ['\u00a0']) "K" "v"
            (List.all_eq_true.mp (by decide)) .nil))))), by decide +kernel⟩
  have hw : annotated.get? WellKnown.additionalResourceTags = some (text items) := by
    rw [htext, annotated, get?_annotatedWith]
  have hread := read_as_written.1 annotated repeating items hproper hspells hw
  obtain ⟨-, hplainly, hagain⟩ := read_as_written.2 annotated
  exact ⟨items, hproper, hspells, htext, hw, (hread "K").trans (by decide), (hread "Key1").trans (by decide),
    hagain _ _ hplainly (get?_annotatedWith _)⟩

end ServiceBalancer.Tags
