/-!
# Texts that are split at a character

The lines of a script are its parts between line ends, and the tokens of a line are its parts
between single spaces. Splitting forgets nothing (`splitAt_injective`).
-/

namespace FactoryScript.Text

/-- The parts of a text between the occurrences of a character. -/
def splitAt (sep : Char) (s : String) : List String := (s.toList.splitOn sep).map String.ofList

variable {sep : Char} {s t : String} {parts : List String}

theorem intercalate_splitAt (sep : Char) (s : String) :
    (String.singleton sep).intercalate (splitAt sep s) = s := by
  rw [← String.toList_inj, String.toList_intercalate, String.toList_singleton, splitAt,
    List.map_map, show String.toList ∘ String.ofList = id from funext fun _ => String.toList_ofList,
    List.map_id, List.intercalate_splitOn]

theorem splitAt_injective (h : splitAt sep s = splitAt sep t) : s = t := by
  rw [← intercalate_splitAt sep s, h, intercalate_splitAt]

/-- A text begins with its first part, after which there is nothing or a separator. -/
theorem exists_eq_append_of_splitAt {w : String} (h : splitAt sep s = w :: parts) :
    ∃ tail, s = w ++ tail ∧ (tail = "" ∨ ∃ more, tail = String.singleton sep ++ more) := by
  have hs := intercalate_splitAt sep s
  rw [h] at hs
  cases parts with
  | nil => exact ⟨"", by simpa using hs.symm, .inl rfl⟩
  | cons v rest =>
    rw [String.intercalate_cons_cons, String.append_assoc] at hs
    exact ⟨_, hs.symm, .inr ⟨_, rfl⟩⟩

theorem splitAt_of_notMem (h : sep ∉ s.toList) : splitAt sep s = [s] := by
  simp [splitAt, List.splitOn_eq_singleton h]

theorem splitAt_append (s t : String) :
    splitAt sep (s ++ String.singleton sep ++ t) = splitAt sep s ++ splitAt sep t := by
  simp [splitAt, List.splitOn_append_cons_self]

theorem splitAt_append_of_notMem (h : sep ∉ s.toList) (t : String) :
    splitAt sep (s ++ String.singleton sep ++ t) = s :: splitAt sep t := by
  rw [splitAt_append, splitAt_of_notMem h, List.singleton_append]

/-- Splitting a joined text at the separator splits its parts. -/
theorem splitAt_intercalate (h : parts ≠ []) :
    splitAt sep ((String.singleton sep).intercalate parts) = parts.flatMap (splitAt sep) := by
  induction parts with
  | nil => exact absurd rfl h
  | cons s rest ih =>
    cases rest with
    | nil => simp
    | cons t rest =>
      rw [String.intercalate_cons_cons, splitAt_append, ih (List.cons_ne_nil t rest)]
      rfl

/-- Parts are told apart again if none of them holds the separator. -/
theorem splitAt_intercalate_of_notMem (hne : parts ≠ []) (h : ∀ s ∈ parts, sep ∉ s.toList) :
    splitAt sep ((String.singleton sep).intercalate parts) = parts := by
  have hlists : ∀ l ∈ parts.map String.toList, sep ∉ l := List.forall_mem_map.2 h
  rw [splitAt, String.toList_intercalate, String.toList_singleton,
    List.splitOn_intercalate sep hlists (by simpa using hne), List.map_map]
  simp

/-- Lines that are each followed by a line end are told apart again. -/
theorem splitAt_join (h : ∀ s ∈ parts, sep ∉ s.toList) :
    splitAt sep (String.join (parts.map (· ++ String.singleton sep))) = parts ++ [""] := by
  induction parts with
  | nil => simp [splitAt]
  | cons s rest ih =>
    obtain ⟨hs, hrest⟩ := List.forall_mem_cons.1 h
    rw [List.map_cons, String.join_cons, splitAt_append_of_notMem hs, ih hrest, List.cons_append]

theorem join_injective (sep : Char) {parts parts' : List String} (h : ∀ s ∈ parts, sep ∉ s.toList)
    (h' : ∀ s ∈ parts', sep ∉ s.toList)
    (heq : String.join (parts.map (· ++ String.singleton sep)) =
      String.join (parts'.map (· ++ String.singleton sep))) : parts = parts' := by
  have hsplit := congrArg (splitAt sep) heq
  rw [splitAt_join h, splitAt_join h'] at hsplit
  exact List.append_cancel_right hsplit

theorem splitAt_ne_nil (s : String) : splitAt sep s ≠ [] := by
  simp [splitAt]

/-! ## Lines -/

/-- A text without line ends. -/
def OneLine (s : String) : Prop := '\n' ∉ s.toList

instance (s : String) : Decidable (OneLine s) := inferInstanceAs (Decidable ('\n' ∉ s.toList))

theorem OneLine.append (hs : OneLine s) (ht : OneLine t) : OneLine (s ++ t) := by
  rw [OneLine, String.toList_append]
  exact List.not_mem_append hs ht

/-- Joining texts of one line gives a text of one line. -/
theorem OneLine.intercalate (hs : OneLine s) (h : ∀ t ∈ parts, OneLine t) :
    OneLine (s.intercalate parts) := by
  induction parts with
  | nil => simp [OneLine]
  | cons t rest ih =>
    obtain ⟨ht, hrest⟩ := List.forall_mem_cons.1 h
    cases rest with
    | nil => simpa using ht
    | cons u rest =>
      rw [String.intercalate_cons_cons]
      exact (ht.append hs).append (ih hrest)

/-- The first token that is not empty. -/
def firstWord (line : String) : Option String := (splitAt ' ' line).find? (· ≠ "")

theorem firstWord_of_splitAt {w line : String} {ws : List String} (hw : w ≠ "")
    (h : splitAt ' ' line = w :: ws) : firstWord line = some w := by
  simp [firstWord, h, hw]

end FactoryScript.Text
