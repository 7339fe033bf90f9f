import FactoryScript.Proofs.Script.Blocks

/-!
# Depth

How deep a statement stands is seen in nothing but the indentation of its lines. Rendering it `k`
blocks deeper puts `4 * k` more spaces before each of its lines, those of the statements inside it
included (`Statement.lines_add`). What has been rendered before stays in front of them, and the
first of them starts with the keyword of the statement (`Statement.render_uniform`).
-/

namespace FactoryScript

theorem indent_add (depth k : Nat) : indent (depth + k) = indent k ++ indent depth := by
  rw [indent, indent, indent, ← String.ofList_append, List.replicate_append_replicate,
    ← Nat.mul_add, Nat.add_comm]

namespace Statement

/-- Further spaces before each of some lines. -/
def deepen (k : Nat) (lines : List String) : List String := lines.map (indent k ++ ·)

theorem deepen_append (k : Nat) (lines more : List String) :
    deepen k (lines ++ more) = deepen k lines ++ deepen k more := List.map_append

/-- A line of its own goes deeper by its indentation. -/
theorem deepen_cons (k depth : Nat) (s : String) (lines : List String) :
    deepen k ((indent depth ++ s) :: lines) = (indent (depth + k) ++ s) :: deepen k lines := by
  rw [deepen, List.map_cons, ← String.append_assoc, ← indent_add]
  rfl

/-- The end of a branch, if the lines of the second part go deeper. -/
theorem ending_add {depth k : Nat} {ss : List Statement}
    (ih : linesAll (depth + 1 + k) ss = deepen k (linesAll (depth + 1) ss)) :
    ending (depth + k) ss = deepen k (ending depth ss) := by
  have hend : [indent (depth + k) ++ "end"] = deepen k [indent depth ++ "end"] :=
    (deepen_cons k depth "end" []).symm
  rw [Nat.add_right_comm] at ih
  cases ss with
  | nil => rw [ending_nil, ending_nil, hend]
  | cons s rest => rw [ending_cons, ending_cons, deepen_cons, deepen_append, ih, hend]

-- The induction is on the statements, for any depth, since the parts of a branch stand one deeper.
mutual

/-- Rendering further in indents every line further. -/
theorem lines_add (depth k : Nat) (s : Statement) :
    s.lines (depth + k) = deepen k (s.lines depth) := by
  rw [lines_eq, lines_eq, deepen_cons]
  match s with
  | input t => rfl
  | output t => rfl
  | forget labels => rfl
  | branch condition thenBranch elseBranch =>
    have hthen := linesAll_add (depth + 1) k thenBranch
    have helse := linesAll_add (depth + 1) k elseBranch
    rw [inner, inner, deepen_append, ← hthen, ending_add helse, Nat.add_right_comm]

theorem linesAll_add (depth k : Nat) (ss : List Statement) :
    linesAll (depth + k) ss = deepen k (linesAll depth ss) := by
  match ss with
  | [] => rfl
  | s :: rest =>
    rw [linesAll_cons, linesAll_cons, deepen_append, lines_add depth k s, linesAll_add depth k rest]

end

theorem opening_eq (s : Statement) : ∃ tail, s.opening = s.keyword ++ tail ∧
    (tail = "" ∨ ∃ more, tail = " " ++ more) := by
  obtain ⟨ws, h⟩ := s.splitAt_opening
  exact Text.exists_eq_append_of_splitAt h

/-- Rendering a statement appends lines to those that are there, and at least one. The first one is
the keyword behind its indentation, with nothing or a space after it. The depth at which a statement
is rendered shows in the indentation only, and adds the same to each line. -/
theorem render_uniform (s : Statement) (depth k : Nat) (acc : Array String) :
    (s.render (depth + k) acc).toList =
        acc.toList ++ (s.render depth #[]).toList.map (indent k ++ ·) ∧
      ∃ tail rest, (s.render (depth + k) acc).toList =
          acc.toList ++ (indent (depth + k) ++ s.keyword ++ tail) :: rest ∧
        (tail = "" ∨ ∃ more, tail = " " ++ more) := by
  constructor
  · rw [toList_render, lines_add]
    rfl
  · obtain ⟨tail, hopening, htail⟩ := s.opening_eq
    refine ⟨tail, s.inner (depth + k), ?_, htail⟩
    rw [toList_render, lines_eq, hopening, String.append_assoc]

/-- A branch with an alternative, two blocks deeper and after a line of another statement. -/
example :
    ((branch "a has > 0 coal" [input (.ofLabel "a")] [forget none]).render 2 #["end"]).toList =
    ["end", "        if a has > 0 coal then", "            input from a", "        else",
      "            forget", "        end"] := by decide

end Statement
end FactoryScript
