import FactoryScript.Count
import FactoryScript.Proofs.Text.Trim
import Mathlib.Data.List.Induction

/-!
# Reading counts

A typed text is trimmed first, so all that matters of it is what is left then: nothing, a numeral
that spells a count, or something that is refused (`Count.read_eq_ok_iff`,
`Count.read_of_not_readable`). The numeral of a count is read as the count, and all its other
numerals are this one behind zeros and perhaps a sign (`Count.spells_iff`).
-/

namespace FactoryScript

namespace Text

theorem bounds_of_isDigit {c : Char} (h : c.isDigit = true) :
    48 ≤ c.val.toNat ∧ c.val.toNat ≤ 57 := by
  simpa [Char.isDigit, UInt32.le_iff_toNat_le] using h

/-- No digit is white space, so trimming takes nothing from a numeral. -/
theorem isBlank_of_isDigit {c : Char} (h : c.isDigit = true) : isBlank c = false := by
  have hbounds := bounds_of_isDigit h
  rw [← Bool.not_eq_true]
  intro hblank
  simp only [isBlank, Bool.or_eq_true, Bool.and_eq_true, decide_eq_true_eq, beq_iff_eq,
    UInt32.le_iff_toNat_le, ← UInt32.toNat_inj] at hblank
  simp only [UInt32.reduceToNat] at hblank
  omega

end Text

namespace Count

theorem isDigit_of_mem_text {n : UInt32} {c : Char} (h : c ∈ (text n).toList) :
    c.isDigit = true := by
  rw [text, Nat.toList_repr] at h
  exact Nat.isDigit_of_mem_toDigits (by decide) (by decide) h

theorem exists_text_eq_cons (n : UInt32) : ∃ c cs, (text n).toList = c :: cs := by
  rw [text, Nat.toList_repr]
  exact List.exists_cons_of_ne_nil Nat.toDigits_ne_nil

theorem ofDigits_text (n : UInt32) : ofDigits (text n).toList = n.toNat := by
  have h := @Nat.ofDigitChars_ten_toDigits n.toNat
  rwa [Nat.ofDigitChars_eq_foldl, ← Nat.toList_repr] at h

/-! ## Numerals -/

/-- The characters are the digits of a count, possibly with zeros in front. -/
structure Digits (cs : List Char) (n : UInt32) : Prop where
  ne_nil : cs ≠ []
  isDigit : ∀ c ∈ cs, c.isDigit = true
  value : ofDigits cs = n.toNat

/-- The text is a numeral of the count, possibly with a plus sign and with zeros in front. -/
def Spells (s : String) (n : UInt32) : Prop :=
  Digits s.toList n ∨ ∃ cs, s.toList = '+' :: cs ∧ Digits cs n

/-- The counts are the numbers below `2 ^ 32`, each as itself. -/
theorem ofNat?_eq_some_iff {m : Nat} {n : UInt32} : ofNat? m = some n ↔ m = n.toNat := by
  unfold ofNat?
  constructor
  · intro h
    split at h <;> rename_i hm
    · cases h
      exact (UInt32.toNat_ofNat_of_lt' hm).symm
    · cases h
  · rintro rfl
    rw [if_pos n.toNat_lt, UInt32.ofNat_toNat]

/-- Reading digits gives the number that they are digits of, and nothing else is read. -/
theorem numeral?_bind_eq_some_iff {cs : List Char} {n : UInt32} :
    (numeral? cs).bind ofNat? = some n ↔ Digits cs n := by
  unfold numeral?
  constructor
  · intro h
    split at h <;> rename_i hcs
    · exact ⟨hcs.1, List.all_eq_true.1 hcs.2, ofNat?_eq_some_iff.1 h⟩
    · cases h
  · rintro ⟨hne, hdigit, hvalue⟩
    rw [if_pos ⟨hne, List.all_eq_true.2 hdigit⟩, Option.bind_some]
    exact ofNat?_eq_some_iff.2 hvalue

theorem Digits.not_plus {cs : List Char} {n : UInt32} : ¬ Digits ('+' :: cs) n := fun h =>
  absurd (h.isDigit '+' List.mem_cons_self) (by decide)

/-- One plus sign may come before the digits; a second one is no digit. -/
theorem signed?_eq_some_iff {s : String} {n : UInt32} :
    signed? s.toList = some n ↔ Spells s n := by
  unfold Spells
  generalize s.toList = cs
  unfold signed?
  split
  · rename_i cs
    rw [numeral?_bind_eq_some_iff]
    constructor
    · exact fun h => .inr ⟨cs, rfl, h⟩
    · rintro (h | ⟨_, heq, h⟩)
      · exact absurd h Digits.not_plus
      · cases heq
        exact h
  · rename_i hplus
    rw [numeral?_bind_eq_some_iff]
    constructor
    · exact .inl
    · rintro (h | ⟨cs', rfl, -⟩)
      · exact h
      · exact absurd rfl (hplus cs')

theorem digits_text (n : UInt32) : Digits (text n).toList n where
  ne_nil := by
    obtain ⟨c, cs, hcs⟩ := exists_text_eq_cons n
    rw [hcs]
    exact List.cons_ne_nil c cs
  isDigit _ := isDigit_of_mem_text
  value := ofDigits_text n

theorem numeral?_text (n : UInt32) : (numeral? (text n).toList).bind ofNat? = some n :=
  numeral?_bind_eq_some_iff.2 (digits_text n)

theorem spells_text (n : UInt32) : Spells (text n) n := .inl (digits_text n)

/-! ## All numerals of a count -/

theorem digitValue_lt {c : Char} (h : c.isDigit = true) : digitValue c < 10 := by
  have hbounds := Text.bounds_of_isDigit h
  have hvalue : digitValue c = c.val.toNat - 48 := rfl
  omega

/-- A digit is the character of its value. -/
theorem digitChar_digitValue {c : Char} (h : c.isDigit = true) : (digitValue c).digitChar = c := by
  have hbounds := Text.bounds_of_isDigit h
  have hvalue : digitValue c = c.val.toNat - 48 := rfl
  have hchar : (digitValue c).digitChar.toNat = 48 + digitValue c :=
    Nat.toNat_digitChar_of_lt_ten (digitValue_lt h)
  refine Char.toNat_inj.1 ?_
  change (digitValue c).digitChar.toNat = c.val.toNat
  omega

theorem ofDigits_concat (cs : List Char) (c : Char) :
    ofDigits (cs ++ [c]) = 10 * ofDigits cs + digitValue c := by
  rw [ofDigits, List.foldl_append]
  rfl

/-- Digits are the numeral of their value behind some zeros. -/
theorem exists_zeros_append {cs : List Char} (hne : cs ≠ []) (h : ∀ c ∈ cs, c.isDigit = true) :
    ∃ zeros, cs = List.replicate zeros '0' ++ Nat.toDigits 10 (ofDigits cs) := by
  induction cs using List.reverseRecOn with
  | nil => exact absurd rfl hne
  | append_singleton cs c ih =>
    obtain ⟨hcs, hc⟩ := List.forall_mem_append.1 h
    have hc := hc c List.mem_cons_self
    have hlast : Nat.toDigits 10 (digitValue c) = [c] := by
      rw [Nat.toDigits_of_lt_base (digitValue_lt hc), digitChar_digitValue hc]
    rw [ofDigits_concat]
    by_cases hnil : cs = []
    · refine ⟨0, ?_⟩
      rw [hnil]
      simpa [ofDigits] using hlast.symm
    obtain ⟨zeros, hzeros⟩ := ih hnil hcs
    by_cases hzero : ofDigits cs = 0
    · -- all digits before the last one are zeros
      refine ⟨zeros + 1, ?_⟩
      rw [hzero, Nat.toDigits_zero] at hzeros
      rw [hzero, Nat.mul_zero, Nat.zero_add, hlast, hzeros, List.replicate_succ']
    · refine ⟨zeros, ?_⟩
      have happend := Nat.toDigits_append_toDigits (by decide : 1 < 10)
        (Nat.pos_of_ne_zero hzero) (digitValue_lt hc)
      rw [← happend, hlast, ← List.append_assoc, ← hzeros]

/-- Zeros in front do not count. -/
theorem ofDigits_zeros_append (zeros : Nat) (cs : List Char) :
    ofDigits (List.replicate zeros '0' ++ cs) = ofDigits cs := by
  have hzeros : (List.replicate zeros '0').foldl (fun n c => 10 * n + digitValue c) 0 = 0 := by
    induction zeros with
    | zero => rfl
    | succ zeros ih =>
      rw [List.replicate_succ, List.foldl_cons]
      exact ih
  rw [ofDigits, List.foldl_append, hzeros]
  rfl

/-- The digits of a number are those it is written with, after any number of zeros. -/
theorem digits_iff {cs : List Char} {n : UInt32} :
    Digits cs n ↔ ∃ zeros, cs = List.replicate zeros '0' ++ (text n).toList := by
  constructor
  · rintro ⟨hne, hdigit, hvalue⟩
    obtain ⟨zeros, hcs⟩ := exists_zeros_append hne hdigit
    refine ⟨zeros, ?_⟩
    rw [text, Nat.toList_repr, ← hvalue]
    exact hcs
  · rintro ⟨zeros, rfl⟩
    have htext := digits_text n
    refine ⟨List.append_ne_nil_of_right_ne_nil _ htext.ne_nil, ?_, ?_⟩
    · refine List.forall_mem_append.2 ⟨fun c hc => ?_, htext.isDigit⟩
      rw [List.eq_of_mem_replicate hc]
      decide
    · rw [ofDigits_zeros_append, htext.value]

/-- The numerals of a count: a plus sign or none, any number of zeros, and the shortest numeral. -/
theorem spells_iff {s : String} {n : UInt32} : Spells s n ↔
    ∃ sign zeros, (sign = [] ∨ sign = ['+']) ∧
      s.toList = sign ++ List.replicate zeros '0' ++ (text n).toList := by
  unfold Spells
  simp only [digits_iff]
  constructor
  · rintro (⟨zeros, hs⟩ | ⟨_, hs, zeros, rfl⟩)
    · exact ⟨[], zeros, .inl rfl, hs⟩
    · exact ⟨['+'], zeros, .inr rfl, hs⟩
  · rintro ⟨_, zeros, rfl | rfl, hs⟩
    · exact .inl ⟨zeros, hs⟩
    · exact .inr ⟨_, hs, zeros, rfl⟩

/-! ## White space and numerals -/

/-- There is no white space in a numeral. -/
theorem Spells.isBlank_eq_false {s : String} {n : UInt32} (h : Spells s n) :
    ∀ c ∈ s.toList, Text.isBlank c = false := by
  have hdigits {cs : List Char} (h : Digits cs n) : ∀ c ∈ cs, Text.isBlank c = false :=
    fun c hc => Text.isBlank_of_isDigit (h.isDigit c hc)
  rcases h with h | ⟨cs, hs, h⟩
  · exact hdigits h
  · rw [hs]
    exact List.forall_mem_cons.2 ⟨by decide, hdigits h⟩

/-- What spells a number has a digit, so it is not blank. -/
theorem Spells.blank_eq_false {s : String} {n : UInt32} (h : Spells s n) :
    Text.blank s = false := by
  have hne : s.toList ≠ [] := by
    rcases h with h | ⟨cs, hs, -⟩
    · exact h.ne_nil
    · rw [hs]
      exact List.cons_ne_nil _ cs
  have hhead := h.isBlank_eq_false _ (List.head_mem hne)
  rw [Text.blank, List.all_eq_false]
  exact ⟨_, List.head_mem hne, by simp [hhead]⟩

theorem blank_text (n : UInt32) : Text.blank (text n) = false := (spells_text n).blank_eq_false

theorem tidy_text (n : UInt32) : Text.Tidy (text n) where
  toTrimmed := Text.trimmed_of_forall_mem (spells_text n).isBlank_eq_false
  blank_eq_false := blank_text n

/-! ## Fields -/

/-- What the text of a field stands for: a blank one for no count, and one that is a numeral, apart
from the white space around it, for the count that it spells. -/
def Denotes (s : String) : Option UInt32 → Prop
  | none => Text.blank s = true
  | some n => Spells (Text.trim s) n

/-- The text of a field that can be read. -/
def Readable (s : String) : Prop := ∃ o, Denotes s o

section
variable {s field : String} {n : UInt32} {o : Option UInt32}

theorem Denotes.read_eq (h : Denotes s o) (field : String) : read field s = .ok o := by
  cases o with
  | none => exact if_pos h
  | some n =>
    have hblank : Text.blank s = false := (Text.blank_trim s).symm.trans h.blank_eq_false
    rw [read, hblank, signed?_eq_some_iff.2 h]
    rfl

/-- What is read from a field is what the field denotes: no count if it is blank, and otherwise the
number that is spelled between its white space. -/
theorem read_eq_ok_iff : read field s = .ok o ↔ Denotes s o := by
  refine ⟨fun h => ?_, fun h => h.read_eq field⟩
  unfold read at h
  split at h <;> rename_i hblank
  · cases h
    exact hblank
  · split at h <;> rename_i hsigned
    · cases h
      exact signed?_eq_some_iff.1 hsigned
    · cases h

/-- An error repeats the field and its text as they were given. -/
theorem read_of_not_readable (h : ¬ Readable s) : read field s = .error ⟨field, s⟩ := by
  cases hread : read field s with
  | ok o => exact absurd ⟨o, read_eq_ok_iff.1 hread⟩ h
  | error e =>
    unfold read at hread
    split at hread
    · cases hread
    · split at hread <;> cases hread
      rfl

/-- Whether a field can be read does not depend on its name. -/
theorem readable_iff_isOk (field : String) : Readable s ↔ (read field s).isOk = true := by
  constructor
  · rintro ⟨o, h⟩
    rw [h.read_eq]
    rfl
  · intro h
    cases hread : read field s with
    | ok o => exact ⟨o, read_eq_ok_iff.1 hread⟩
    | error e =>
      rw [hread] at h
      cases h

instance : DecidablePred Readable := fun _ =>
  decidable_of_iff _ (readable_iff_isOk "").symm

theorem read_of_trim_eq_empty (h : Text.trim s = "") (field : String) : read field s = .ok none :=
  Denotes.read_eq (o := none) ((Text.blank_iff_trim_eq s).2 h) field

theorem denotes_of_trim_eq_text (h : Text.trim s = text n) : Denotes s (some n) := by
  rw [Denotes, h]
  exact spells_text n

theorem read_of_trim_eq_text (h : Text.trim s = text n) (field : String) :
    read field s = .ok (some n) := (denotes_of_trim_eq_text h).read_eq field

/-- The numeral of a count stands for the count. -/
theorem denotes_text (n : UInt32) : Denotes (text n) (some n) :=
  denotes_of_trim_eq_text (Text.trim_eq_self (tidy_text n).toTrimmed)

end

end Count
end FactoryScript
