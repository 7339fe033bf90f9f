import FactoryScript.Condition
import FactoryScript.Proofs.Count

/-!
# Numbers in fields and in conditions

A field for a count takes blank texts and numerals with white space around them, and nothing else
(`Count.ReadExactly`). The quantity of a condition has to be such a numeral; the condition names
the number that it spells, in its shortest form, so that nothing else of the typed text is left in
it (`ConditionForm.BuiltExactly`).
-/

namespace FactoryScript

/-! ## Fields -/

namespace Count

/-- What reading a field comes to. -/
structure ReadExactly (field s : String) : Prop where
  none_iff : read field s = .ok none ↔ ∀ c ∈ s.toList, Text.isBlank c = true
  some_iff (n : UInt32) : read field s = .ok (some n) ↔ Spells (Text.trim s) n
  /-- The numerals without regard to their value as digits. -/
  shape (n : UInt32) : read field s = .ok (some n) ↔
    ∃ sign zeros, (sign = [] ∨ sign = ['+']) ∧
      (Text.trim s).toList = sign ++ List.replicate zeros '0' ++ (text n).toList
  refused (hblank : ∃ c ∈ s.toList, Text.isBlank c = false)
    (hnumeral : ∀ n, ¬ Spells (Text.trim s) n) : read field s = .error ⟨field, s⟩

theorem readExactly (field s : String) : ReadExactly field s where
  none_iff := by
    rw [read_eq_ok_iff, Denotes, Text.blank, List.all_eq_true]
  some_iff n := read_eq_ok_iff
  shape n := by
    rw [← spells_iff]
    exact read_eq_ok_iff
  refused := by
    rintro ⟨c, hc, hsolid⟩ hnumeral
    refine read_of_not_readable ?_
    rintro ⟨_ | n, h⟩
    · rw [List.all_eq_true.1 h c hc] at hsolid
      cases hsolid
    · exact hnumeral n h

theorem read_padded {before after : String} (hbefore : Text.blank before = true)
    (hafter : Text.blank after = true) (field : String) (n : UInt32) :
    read field (before ++ text n ++ after) = .ok (some n) :=
  read_of_trim_eq_text ((tidy_text n).trim_padded hbefore hafter) field

end Count

/-! ## Conditions -/

namespace ConditionForm
variable {f : ConditionForm} {n : UInt32}

theorem text_of_spells (h : Count.Spells (Text.trim f.quantity) n) :
    f.text = .ok (f.textWith n) := by
  have hread : Count.read "condition quantity" f.quantity = .ok (some n) :=
    Count.read_eq_ok_iff.2 h
  rw [text, count, hread]
  rfl

/-- A quantity that spells no number is named in the error, as it was typed. -/
theorem text_of_not_spells (h : ∀ n, ¬ Count.Spells (Text.trim f.quantity) n) :
    f.text = .error ⟨"condition quantity", f.quantity⟩ := by
  by_cases hreadable : Count.Readable f.quantity
  · obtain ⟨_ | n, hdenotes⟩ := hreadable
    · -- a blank text can be read, but a condition does without no number
      rw [text, count, hdenotes.read_eq]
      rfl
    · exact absurd hdenotes (h n)
  · rw [text, count, Count.read_of_not_readable hreadable]
    rfl

/-- The quantity stands between two texts that do not depend on it. -/
theorem exists_around (f : ConditionForm) : ∃ before after, ∀ quantity n,
    textWith { f with quantity := quantity } n = before ++ Count.text n ++ after := by
  cases hk : f.setOperator.keyword? with
  | none =>
    refine ⟨"" ++ f.label ++ " has " ++ f.comparison.symbol ++ " ", " " ++ f.resourceId,
      fun quantity n => ?_⟩
    rw [textWith, hk, ← String.append_assoc]
  | some k =>
    refine ⟨k ++ " " ++ f.label ++ " has " ++ f.comparison.symbol ++ " ", " " ++ f.resourceId,
      fun quantity n => ?_⟩
    rw [textWith, hk, ← String.append_assoc]

/-- What building a condition comes to. -/
structure BuiltExactly (f : ConditionForm) : Prop where
  built_iff : (∃ condition, f.text = .ok condition) ↔ ∃ n, Count.Spells (Text.trim f.quantity) n
  /-- Of the quantity the condition has the number alone. -/
  depends : ∃ before after, ∀ quantity n, Count.Spells (Text.trim quantity) n →
    text { f with quantity := quantity } = .ok (before ++ Count.text n ++ after)
  refused (h : ∀ n, ¬ Count.Spells (Text.trim f.quantity) n) :
    f.text = .error ⟨"condition quantity", f.quantity⟩
  blank (h : Text.blank f.quantity = true) : f.text = .error ⟨"condition quantity", f.quantity⟩

theorem not_spells_of_blank (h : Text.blank f.quantity = true) (n : UInt32) :
    ¬ Count.Spells (Text.trim f.quantity) n := by
  intro hspells
  have hsolid := hspells.blank_eq_false
  rw [Text.blank_trim, h] at hsolid
  cases hsolid

/-- A condition is built exactly if its quantity spells a number, and then with that number. -/
theorem builtExactly (f : ConditionForm) : BuiltExactly f where
  built_iff := by
    constructor
    · rintro ⟨condition, hcondition⟩
      by_contra h
      rw [text_of_not_spells (not_exists.1 h)] at hcondition
      cases hcondition
    · rintro ⟨n, h⟩
      exact ⟨_, text_of_spells h⟩
  depends := by
    obtain ⟨before, after, h⟩ := f.exists_around
    refine ⟨before, after, fun quantity n hspells => ?_⟩
    rw [text_of_spells (f := { f with quantity := quantity }) hspells, h]
  refused := text_of_not_spells
  blank h := text_of_not_spells (not_spells_of_blank h)

end ConditionForm

/-- Every text of a field is read as nothing if it is blank, as a count if it is a numeral of this
count with white space around it, and refused as it was typed otherwise. A condition is built
exactly from the numerals, and has the same text for all numerals of one count. -/
theorem numbers_read_exactly :
    (∀ field s, Count.ReadExactly field s) ∧
      (∀ field n before after, Text.blank before = true → Text.blank after = true →
        Count.read field (before ++ Count.text n ++ after) = .ok (some n)) ∧
      ∀ f : ConditionForm, f.BuiltExactly :=
  ⟨Count.readExactly, fun field n _ _ hbefore hafter => Count.read_padded hbefore hafter field n,
    ConditionForm.builtExactly⟩

/-- A sign, zeros and white space do not count; a second sign is refused, with the white space
around it. -/
theorem numbers_read_exactly_padded :
    Count.read "quantity" "\u3000+0064\n" = .ok (some 64) ∧
      Count.read "quantity" "\u00a04294967295\t" = .ok (some 4294967295) ∧
      Count.read "quantity" " ++1 " = .error ⟨"quantity", " ++1 "⟩ ∧
      ConditionForm.text { ConditionForm.initial with quantity := " +007 " } =
        ConditionForm.text { ConditionForm.initial with quantity := "7" } ∧
      ConditionForm.text { ConditionForm.initial with quantity := "\t" } =
        .error ⟨"condition quantity", "\t"⟩ := by
  obtain ⟨hfield, hpadded, hcondition⟩ := numbers_read_exactly
  refine ⟨?_, ?_, ?_, ?_, ?_⟩
  · refine ((hfield "quantity" "\u3000+0064\n").shape 64).2 ⟨['+'], 2, .inr rfl, ?_⟩
    decide +kernel
  · exact hpadded "quantity" 4294967295 "\u00a0" "\t" (by decide) (by decide)
  · have hunreadable : ¬ Count.Readable " ++1 " := by decide
    exact (hfield "quantity" " ++1 ").refused ⟨'+', by decide, by decide⟩
      fun n h => hunreadable ⟨some n, h⟩
  · obtain ⟨before, after, h⟩ := (hcondition .initial).depends
    have hseven : Count.Spells (Text.trim " +007 ") 7 :=
      Count.spells_iff.2 ⟨['+'], 2, .inr rfl, by decide +kernel⟩
    exact (h " +007 " 7 hseven).trans (h "7" 7 (Count.denotes_text 7)).symm
  · exact (hcondition { ConditionForm.initial with quantity := "\t" }).blank (by decide)

end FactoryScript
