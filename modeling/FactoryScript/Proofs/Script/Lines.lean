import FactoryScript.Program.Script

/-!
# The lines of statements

Rendering appends to the lines it is given. What it appends is its first line, the opening, and for
a branch the lines of its two parts and the line that closes it. So a line is the opening of a
statement, an `else` or an `end` (`Statement.forall_mem_lines`).
-/

namespace FactoryScript
namespace Statement

/-- The lines of several statements inside `depth` blocks. -/
def linesAll (depth : Nat) (ss : List Statement) : List String := (renderAll depth #[] ss).toList

/-- The first line, without indentation. -/
def opening : Statement → String
  | input t => t.line "input" "from"
  | output t => t.line "output" "to"
  | branch condition _ _ => "if " ++ condition ++ " then"
  | forget labels => forgetLine labels

/-- The lines of a branch after its first part. -/
def ending (depth : Nat) (elseBranch : List Statement) : List String :=
  (if elseBranch.isEmpty then []
    else (indent depth ++ "else") :: linesAll (depth + 1) elseBranch) ++ [indent depth ++ "end"]

/-- The lines after the first. -/
def inner (depth : Nat) : Statement → List String
  | branch _ thenBranch elseBranch =>
    linesAll (depth + 1) thenBranch ++ ending depth elseBranch
  | _ => []

@[simp] theorem linesAll_nil (depth : Nat) : linesAll depth [] = [] := rfl

theorem ending_nil (depth : Nat) : ending depth [] = [indent depth ++ "end"] := rfl

theorem ending_cons (depth : Nat) (s : Statement) (rest : List Statement) :
    ending depth (s :: rest) = (indent depth ++ "else") ::
      (linesAll (depth + 1) (s :: rest) ++ [indent depth ++ "end"]) := rfl

mutual

/-- The renderer, which pushes lines to an array, adds the lines of the statement and nothing else.
-/
theorem toList_render (depth : Nat) (s : Statement) (acc : Array String) :
    (s.render depth acc).toList = acc.toList ++ s.lines depth := by
  match s with
  | input t => simp [lines, render]
  | output t => simp [lines, render]
  | forget labels => simp [lines, render]
  | branch condition thenBranch elseBranch =>
    have hthen := toList_renderAll (depth + 1) thenBranch
    have helse := toList_renderAll (depth + 1) elseBranch
    cases h : elseBranch.isEmpty <;> simp [lines, render, h, hthen, helse]

/-- The same for a list of statements. -/
theorem toList_renderAll (depth : Nat) (ss : List Statement) (acc : Array String) :
    (renderAll depth acc ss).toList = acc.toList ++ linesAll depth ss := by
  match ss with
  | [] => simp [renderAll]
  | s :: rest =>
    rw [linesAll, renderAll, renderAll, toList_renderAll depth rest, toList_renderAll depth rest,
      toList_render depth s, List.append_assoc]
    rfl

end

@[simp] theorem linesAll_cons (depth : Nat) (s : Statement) (rest : List Statement) :
    linesAll depth (s :: rest) = s.lines depth ++ linesAll depth rest := by
  rw [linesAll, renderAll, toList_renderAll, toList_render, List.nil_append]

theorem lines_eq (depth : Nat) (s : Statement) :
    s.lines depth = (indent depth ++ s.opening) :: s.inner depth := by
  cases s with
  | branch condition thenBranch elseBranch =>
    cases h : elseBranch.isEmpty <;>
      simp [lines, render, opening, inner, ending, h, toList_renderAll, String.append_assoc]
  | _ => rfl

theorem linesAll_eq_flatMap (depth : Nat) (ss : List Statement) :
    linesAll depth ss = ss.flatMap (lines depth) := by
  induction ss with
  | nil => rfl
  | cons s rest ih => rw [linesAll_cons, ih, List.flatMap_cons]

/-! ## The statements behind the lines -/

mutual

/-- A statement and all the statements inside it. -/
def within : Statement → List Statement
  | input t => [input t]
  | output t => [output t]
  | forget labels => [forget labels]
  | branch condition thenBranch elseBranch =>
    branch condition thenBranch elseBranch :: (withinAll thenBranch ++ withinAll elseBranch)

def withinAll : List Statement → List Statement
  | [] => []
  | s :: rest => s.within ++ withinAll rest

end

theorem self_mem_within (s : Statement) : s ∈ s.within := by
  cases s <;> exact List.mem_cons_self

/-- A property of all lines of an alternative that holds of `else` and `end` holds of the whole end
of a branch. -/
theorem forall_mem_ending {P : String → Prop} (helse : ∀ depth, P (indent depth ++ "else"))
    (hend : ∀ depth, P (indent depth ++ "end")) {depth : Nat} {ss : List Statement}
    (ih : ∀ l ∈ linesAll (depth + 1) ss, P l) : ∀ l ∈ ending depth ss, P l := by
  cases ss with
  | nil => exact List.forall_mem_singleton.2 (hend depth)
  | cons s rest =>
    rw [ending_cons, List.forall_mem_cons, List.forall_mem_append, List.forall_mem_singleton]
    exact ⟨helse depth, ih, hend depth⟩

mutual

/-- What the openings have at any depth, and `else` and `end` too, all lines have. -/
theorem forall_mem_lines {P : String → Prop} (helse : ∀ depth, P (indent depth ++ "else"))
    (hend : ∀ depth, P (indent depth ++ "end")) (depth : Nat) (s : Statement)
    (h : ∀ u ∈ s.within, ∀ depth, P (indent depth ++ u.opening)) : ∀ l ∈ s.lines depth, P l := by
  rw [lines_eq, List.forall_mem_cons]
  refine ⟨h s s.self_mem_within depth, ?_⟩
  match s with
  | input t => nofun
  | output t => nofun
  | forget labels => nofun
  | branch condition thenBranch elseBranch =>
    obtain ⟨-, h⟩ := List.forall_mem_cons.1 h
    obtain ⟨hfirst, hsecond⟩ := List.forall_mem_append.1 h
    rw [inner, List.forall_mem_append]
    constructor
    · exact forall_mem_linesAll helse hend (depth + 1) thenBranch hfirst
    · apply forall_mem_ending helse hend
      exact forall_mem_linesAll helse hend (depth + 1) elseBranch hsecond

/-- A property of lines holds of a whole rendering if it holds of `else`, `end` and all opening
lines. -/
theorem forall_mem_linesAll {P : String → Prop} (helse : ∀ depth, P (indent depth ++ "else"))
    (hend : ∀ depth, P (indent depth ++ "end")) (depth : Nat) (ss : List Statement)
    (h : ∀ u ∈ withinAll ss, ∀ depth, P (indent depth ++ u.opening)) :
    ∀ l ∈ linesAll depth ss, P l := by
  match ss with
  | [] => nofun
  | s :: rest =>
    obtain ⟨hs, hrest⟩ := List.forall_mem_append.1 h
    rw [linesAll_cons, List.forall_mem_append]
    exact ⟨forall_mem_lines helse hend depth s hs, forall_mem_linesAll helse hend depth rest hrest⟩

end

end Statement

theorem Trigger.lines_eq (t : Trigger) :
    t.lines = t.header :: (Statement.linesAll 1 t.statements ++ [blockEnd]) := by
  rw [lines, Statement.toList_renderAll]
  rfl

end FactoryScript
