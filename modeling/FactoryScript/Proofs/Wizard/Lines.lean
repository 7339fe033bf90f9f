import FactoryScript.Proofs.Wizard.Unique

/-!
# The lines of a wizard script

A row whose texts hold no line end is written in one line, however unclean its tokens are. So the
script of such rows has a line for each of them, between its first and its last
(`WizardLayout.hasLines_script`).
-/

namespace FactoryScript
open Text

namespace Text
variable {s : String}

/-- The text is made of this many lines, each with its line end. -/
def HasLines (s : String) (count : Nat) : Prop :=
  ∃ ls : List String, s = String.join (ls.map (· ++ "\n")) ∧ (∀ l ∈ ls, OneLine l) ∧
    ls.length = count

theorem OneLine.trim (hs : OneLine s) : OneLine (trim s) := by
  intro h
  rw [Text.trim, String.toList_ofList, dropEnd, List.mem_reverse] at h
  have hstart := List.mem_reverse.1 ((List.dropWhile_suffix _).subset h)
  exact hs ((List.dropWhile_suffix _).subset hstart)

theorem mem_nonBlank? {w : String} : w ∈ nonBlank? s ↔ blank s = false ∧ w = s := by
  unfold nonBlank?
  split <;> rename_i h
  · simp [h]
  · simp [h, eq_comm]

end Text

namespace Endpoint
variable {e : Endpoint} {keyword direction : String}

/-- No text of the row has a line end. -/
structure OneLine (e : Endpoint) : Prop where
  label : Text.OneLine e.label
  resourceId : Text.OneLine e.resourceId
  quantity : Text.OneLine e.quantity

theorem OneLine.of_mem_resourceWord? (he : e.OneLine) {w : String} (hw : w ∈ e.resourceWord?) :
    Text.OneLine w := by
  rw [resourceWord?, Resource.filter] at hw
  split at hw
  · cases hw
  · cases hw
    exact Resource.oneLine_token he.resourceId

theorem OneLine.of_mem_quantityWord? (he : e.OneLine) {w : String} (hw : w ∈ e.quantityWord?) :
    Text.OneLine w := by
  obtain ⟨-, rfl⟩ := mem_nonBlank?.1 hw
  exact he.quantity.trim

/-- A row without line breaks is written on one line. -/
theorem OneLine.wizardLine (he : e.OneLine) (hk : Text.OneLine keyword)
    (hd : Text.OneLine direction) : Text.OneLine (e.wizardLine keyword direction) := by
  have hside : ∀ w ∈ e.side.side?.toList.flatMap sideTokens, Text.OneLine w := by
    cases e.side.side? with
    | none => nofun
    | some side =>
      simpa [sideTokens] using ⟨(by decide : Text.OneLine "SIDE"), (isToken_toUpper side).oneLine⟩
  rw [wizardLine_eq]
  refine Text.OneLine.intercalate (by decide) ?_
  simp only [tokens, List.forall_mem_cons, List.forall_mem_append, Option.mem_toList]
  exact ⟨hk, fun _ => he.of_mem_resourceWord?, fun _ => he.of_mem_quantityWord?, hd, he.label,
    hside⟩

end Endpoint

namespace WizardLayout
variable {w : WizardLayout}

/-- No text of any row has a line end. -/
structure OneLine (w : WizardLayout) : Prop where
  sources : ∀ e ∈ w.sources, e.OneLine
  targets : ∀ e ∈ w.targets, e.OneLine

theorem OneLine.of_mem_lines (hw : w.OneLine) : ∀ l ∈ w.lines, Text.OneLine l :=
  oneLine_of_mem_lines (fun e he => (hw.sources e he).wizardLine (by decide) (by decide))
    fun e he => (hw.targets e he).wizardLine (by decide) (by decide)

theorem length_lines (w : WizardLayout) :
    w.lines.length = 2 + w.sources.length + w.targets.length := by
  simp only [lines_eq, List.length_cons, List.length_append, List.length_map, List.length_nil]
  omega

theorem OneLine.hasLines_script (hw : w.OneLine) :
    HasLines w.script (2 + w.sources.length + w.targets.length) :=
  ⟨w.lines, rfl, hw.of_mem_lines, w.length_lines⟩

end WizardLayout
end FactoryScript
