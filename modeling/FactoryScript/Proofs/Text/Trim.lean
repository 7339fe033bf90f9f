import FactoryScript.Text.Basic
import Mathlib.Data.List.DropRight

/-!
# Trimmed texts

Trimming stops at the first and at the last character that is not white space. So what is left has
no white space at its ends (`trimmed_trim`), and a text that has none stays as it is
(`trim_eq_self`). A text that starts or ends in a solid character can be followed or preceded by
anything.
-/

namespace FactoryScript.Text
variable {s t : String} {cs : List Char} {parts : List String}

/-! ## Trimming -/

/-- Nothing is left of a blank text, and only of one. -/
theorem blank_iff_trim_eq (s : String) : blank s = true ↔ trim s = "" := by
  have hempty : trim s = "" ↔ (dropStart s.toList).reverse.dropWhile isBlank = [] := by
    rw [trim, dropEnd, String.ofList_eq_empty_iff, List.reverse_eq_nil_iff]
  rw [hempty, List.dropWhile_eq_nil_iff, blank, List.all_eq_true]
  constructor
  · intro h c hc
    exact h c ((List.dropWhile_sublist _).subset (List.mem_reverse.1 hc))
  · intro h
    have hstart : dropStart s.toList = [] := by
      by_contra hne
      have hhead : isBlank ((dropStart s.toList).head hne) = false :=
        List.head_dropWhile_not isBlank hne
      rw [h _ (List.mem_reverse.2 (List.head_mem hne))] at hhead
      cases hhead
    exact List.dropWhile_eq_nil_iff.1 hstart

/-- The text neither starts nor ends with white space. -/
structure Trimmed (s : String) : Prop where
  first : ∀ c ∈ s.toList.head?, isBlank c = false
  last : ∀ c ∈ s.toList.getLast?, isBlank c = false

theorem dropStart_eq_self (h : ∀ c ∈ cs.head?, isBlank c = false) : dropStart cs = cs := by
  cases cs with
  | nil => rfl
  | cons c cs =>
    have hc : isBlank c = false := h c rfl
    exact List.dropWhile_cons_of_neg (by simp [hc])

theorem dropEnd_eq_self (h : ∀ c ∈ cs.getLast?, isBlank c = false) : dropEnd cs = cs := by
  refine List.rdropWhile_eq_self_iff.2 fun hne => ?_
  simp [h _ (List.getLast_mem_getLast? hne)]

/-- A trimmed text has no white space at its ends. -/
theorem trimmed_trim (s : String) : Trimmed (trim s) := by
  have htoList : (trim s).toList = (dropStart s.toList).rdropWhile isBlank := by
    rw [trim, String.toList_ofList]
    rfl
  constructor
  · intro c hc
    rw [htoList] at hc
    -- what is left after the end has been dropped starts as before
    have hhead : c ∈ (dropStart s.toList).head? := by
      obtain ⟨rest, hrest⟩ := List.head?_eq_some_iff.1 hc
      obtain ⟨dropped, hdropped⟩ := List.rdropWhile_prefix isBlank (dropStart s.toList)
      rw [← hdropped, hrest]
      rfl
    have hfirst := List.head?_dropWhile_not isBlank s.toList
    rw [dropStart, Option.mem_def] at hhead
    rw [hhead] at hfirst
    simpa using hfirst
  · intro c hc
    rw [htoList] at hc
    obtain ⟨hne, rfl⟩ := List.mem_getLast?_eq_getLast hc
    simpa using List.rdropWhile_last_not isBlank (dropStart s.toList) hne

theorem trimmed_of_forall_mem (h : ∀ c ∈ s.toList, isBlank c = false) : Trimmed s where
  first c hc := h c (List.mem_of_mem_head? hc)
  last c hc := h c (List.mem_of_mem_getLast? hc)

theorem trim_eq_self (h : Trimmed s) : trim s = s := by
  rw [trim, dropStart_eq_self h.first, dropEnd_eq_self h.last, String.ofList_toList]

@[simp] theorem trim_trim (s : String) : trim (trim s) = trim s := trim_eq_self (trimmed_trim s)

@[simp] theorem blank_trim (s : String) : blank (trim s) = blank s := by
  rw [Bool.eq_iff_iff, blank_iff_trim_eq, trim_trim, blank_iff_trim_eq]

/-- There is something in the text, and no white space around it. -/
structure Tidy (s : String) : Prop extends Trimmed s where
  blank_eq_false : blank s = false

theorem tidy_trim (h : blank s = false) : Tidy (trim s) where
  toTrimmed := trimmed_trim s
  blank_eq_false := (blank_trim s).trans h

/-- Trimming takes away white space around a tidy text, and stops there. -/
theorem Tidy.trim_padded {before after : String} (h : Tidy s) (hbefore : blank before = true)
    (hafter : blank after = true) : trim (before ++ s ++ after) = s := by
  have hne : s.toList ≠ [] := by
    intro hnil
    have hblank := h.blank_eq_false
    rw [blank, hnil] at hblank
    cases hblank
  have hfirst : ∀ c ∈ (s.toList ++ after.toList).head?, isBlank c = false := by
    rw [List.head?_append_of_ne_nil _ hne]
    exact h.first
  have hstart : dropStart (before ++ s ++ after).toList = s.toList ++ after.toList := by
    rw [String.toList_append, String.toList_append, List.append_assoc, dropStart,
      List.dropWhile_append_of_pos (List.all_eq_true.1 hbefore)]
    exact dropStart_eq_self hfirst
  have hreverse : ∀ c ∈ after.toList.reverse, isBlank c = true := fun c hc =>
    List.all_eq_true.1 hafter c (List.mem_reverse.1 hc)
  have hend : dropEnd (s.toList ++ after.toList) = s.toList := by
    rw [dropEnd, List.reverse_append, List.dropWhile_append_of_pos hreverse]
    exact dropEnd_eq_self h.last
  rw [trim, hstart, hend, String.ofList_toList]

/-! ## Solid ends -/

/-- The first character is there and is not white space. -/
def StartsSolid (s : String) : Prop := ∃ c cs, s.toList = c :: cs ∧ isBlank c = false

/-- The last character is there and is not white space. -/
def EndsSolid (s : String) : Prop := ∃ cs c, s.toList = cs ++ [c] ∧ isBlank c = false

theorem EndsSolid.ne_empty (hs : EndsSolid s) : s ≠ "" := by
  rintro rfl
  obtain ⟨cs, c, hcs, -⟩ := hs
  simp at hcs

theorem StartsSolid.append (hs : StartsSolid s) (t : String) : StartsSolid (s ++ t) := by
  obtain ⟨c, cs, hcs, hc⟩ := hs
  exact ⟨c, cs ++ t.toList, by simp [hcs], hc⟩

theorem EndsSolid.append (ht : EndsSolid t) (s : String) : EndsSolid (s ++ t) := by
  obtain ⟨cs, c, hcs, hc⟩ := ht
  exact ⟨s.toList ++ cs, c, by simp [hcs], hc⟩

theorem StartsSolid.intercalate (hs : StartsSolid s) (sep : String) (parts : List String) :
    StartsSolid (sep.intercalate (s :: parts)) := by
  cases parts with
  | nil => simpa using hs
  | cons t parts =>
    rw [String.intercalate_cons_cons, String.append_assoc]
    exact hs.append _

/-- A joined text ends as its last part does. -/
theorem EndsSolid.intercalate (hs : EndsSolid s) (sep : String) (parts : List String) :
    EndsSolid (sep.intercalate (parts ++ [s])) := by
  cases parts with
  | nil => simpa using hs
  | cons t parts =>
    rw [String.intercalate_append_of_ne_nil (List.cons_ne_nil _ _) (List.cons_ne_nil _ _),
      String.intercalate_singleton]
    exact hs.append _

theorem trimmed_of_solid (hstart : StartsSolid s) (hend : EndsSolid s) : Trimmed s := by
  obtain ⟨c, cs, hcs, hc⟩ := hstart
  obtain ⟨ds, d, hds, hd⟩ := hend
  constructor
  · simpa [hcs] using hc
  · simpa [hds] using hd

/-- Trimming stops at the last character that is not white space. -/
theorem trimEnd_append (hs : EndsSolid s) (ht : blank t = true) : trimEnd (s ++ t) = s := by
  obtain ⟨cs, c, hcs, hc⟩ := hs
  have hreverse : ∀ b ∈ t.toList.reverse, isBlank b = true := by simpa [blank] using ht
  rw [trimEnd, dropEnd, String.toList_append, List.reverse_append,
    List.dropWhile_append_of_pos hreverse, hcs, List.reverse_append, List.reverse_singleton,
    List.singleton_append, List.dropWhile_cons_of_neg (by simp [hc]), ← List.singleton_append,
    ← List.reverse_singleton, ← List.reverse_append, List.reverse_reverse, ← hcs,
    String.ofList_toList]

theorem trimEnd_eq_self (hs : EndsSolid s) : trimEnd s = s := by
  have h := trimEnd_append (t := "") hs (by decide)
  rwa [String.append_empty] at h

theorem endsSolid_intercalate (sep : String) (hne : parts ≠ [])
    (h : ∀ s ∈ parts, EndsSolid s) : EndsSolid (sep.intercalate parts) := by
  obtain ⟨before, s, rfl⟩ := (List.eq_nil_or_concat' parts).resolve_left hne
  exact (h s (by simp)).intercalate sep before

/-- Solid parts make a trimmed text, whatever stands between them. -/
theorem trimmed_intercalate (sep : String) (hstart : ∀ s ∈ parts, StartsSolid s)
    (hend : ∀ s ∈ parts, EndsSolid s) : Trimmed (sep.intercalate parts) := by
  cases parts with
  | nil => exact ⟨by simp, by simp⟩
  | cons s rest =>
    apply trimmed_of_solid
    · exact (hstart s List.mem_cons_self).intercalate sep rest
    · exact endsSolid_intercalate sep (List.cons_ne_nil s rest) hend

end FactoryScript.Text
