import FactoryScript.Proofs.Script.Newline

/-!
# The number of lines

Statements are counted by one recursion and written by another one. A statement has a line of its
own; a branch has a second one for its `end`, and a third one if it has an `else`
(`Statement.length_lines`). So the lines of a script are known before it is written: besides those
of the statements there are two for each trigger, the name, and what stands between the pieces
(`Program.script_lines`).
-/

namespace FactoryScript
open Text

/-! ## Statements -/

namespace Statement

def isBranch : Statement → Bool
  | branch .. => true
  | _ => false

def hasElse : Statement → Bool
  | branch _ _ elseBranch => !elseBranch.isEmpty
  | _ => false

/-- How many lines some statements take, without those inside them. -/
def lineCount (ss : List Statement) : Nat := ss.length + ss.countP isBranch + ss.countP hasElse

theorem lineCount_cons (s : Statement) (ss : List Statement) :
    lineCount (s :: ss) =
      1 + (if s.isBranch then 1 else 0) + (if s.hasElse then 1 else 0) + lineCount ss := by
  simp only [lineCount, List.length_cons, List.countP_cons]
  omega

theorem lineCount_append (ss us : List Statement) :
    lineCount (ss ++ us) = lineCount ss + lineCount us := by
  simp only [lineCount, List.length_append, List.countP_append]
  omega

theorem withinAll_append (ss us : List Statement) :
    withinAll (ss ++ us) = withinAll ss ++ withinAll us := by
  induction ss with
  | nil => rfl
  | cons s rest ih => rw [List.cons_append, withinAll, withinAll, ih, List.append_assoc]

mutual

/-- Inside a statement there are as many statements as are counted. -/
theorem length_within (s : Statement) : s.within.length = s.size := by
  match s with
  | input t => rfl
  | output t => rfl
  | forget labels => rfl
  | branch condition thenBranch elseBranch =>
    rw [within, size, List.length_cons, List.length_append, length_withinAll thenBranch,
      length_withinAll elseBranch]
    omega

theorem length_withinAll (ss : List Statement) : (withinAll ss).length = sizeAll ss := by
  match ss with
  | [] => rfl
  | s :: rest => rw [withinAll, sizeAll, List.length_append, length_within s, length_withinAll rest]

end

/-- A branch ends with one line, or two if it has an alternative, beside those of its statements. -/
theorem length_ending (depth : Nat) (ss : List Statement) : (ending depth ss).length =
    1 + (if ss.isEmpty then 0 else 1) + (linesAll (depth + 1) ss).length := by
  cases ss with
  | nil => rfl
  | cons s rest =>
    rw [ending_cons, List.length_cons, List.length_append, List.length_singleton]
    simp only [List.isEmpty_cons, Bool.false_eq_true, if_false]
    omega

mutual

/-- Rendering writes one line for each statement, and up to two more for each branch. -/
theorem length_lines (depth : Nat) (s : Statement) :
    (s.lines depth).length = lineCount s.within := by
  rw [lines_eq, List.length_cons]
  match s with
  | input t => rfl
  | output t => rfl
  | forget labels => rfl
  | branch condition thenBranch elseBranch =>
    rw [inner, within, List.length_append, length_ending, length_linesAll (depth + 1) thenBranch,
      length_linesAll (depth + 1) elseBranch, lineCount_cons, lineCount_append]
    cases elseBranch <;> simp [isBranch, hasElse] <;> omega

theorem length_linesAll (depth : Nat) (ss : List Statement) :
    (linesAll depth ss).length = lineCount (withinAll ss) := by
  match ss with
  | [] => rfl
  | s :: rest =>
    rw [linesAll_cons, withinAll, List.length_append, lineCount_append, length_lines depth s,
      length_linesAll depth rest]

end

theorem opening_ne_empty (s : Statement) : s.opening ≠ "" := by
  intro h
  have hword := s.firstWord_opening
  rw [h] at hword
  exact absurd hword (by simp [firstWord, splitAt])

/-- No line of a list of statements is empty, since each opening line starts with a word. -/
theorem ne_empty_of_mem_linesAll {depth : Nat} {ss : List Statement} :
    ∀ l ∈ linesAll depth ss, l ≠ "" := by
  have hindent {s : String} (hs : s ≠ "") (depth : Nat) : indent depth ++ s ≠ "" := by
    intro h
    exact hs (String.append_eq_empty_iff.1 h).2
  apply forall_mem_linesAll
  · exact hindent (by decide)
  · exact hindent (by decide)
  · intro u _
    exact hindent u.opening_ne_empty

end Statement

/-! ## Programs -/

theorem Trigger.length_lines (t : Trigger) :
    t.lines.length = 2 + (Statement.linesAll 1 t.statements).length := by
  rw [lines_eq, List.length_cons, List.length_append, List.length_singleton]
  omega

/-- No line of a trigger is empty. -/
theorem Trigger.ne_empty_of_mem_lines (t : Trigger) : ∀ l ∈ t.lines, l ≠ "" := by
  have hheader : t.header ≠ "" := by
    intro h
    obtain ⟨c, cs, hcs, -⟩ := t.kind.startsSolid_header
    rw [show t.kind.header = "" from h] at hcs
    cases hcs
  rw [lines_eq, List.forall_mem_cons, List.forall_mem_append]
  exact ⟨hheader, Statement.ne_empty_of_mem_linesAll, by decide⟩

namespace Program
variable {p : Program}

/-- All statements of the program, those inside branches included. -/
def statements (p : Program) : List Statement :=
  Statement.withinAll (p.triggers.flatMap Trigger.statements)

/-- The statements of a program, those inside branches included, are as many as are counted. -/
theorem length_statements (p : Program) : p.statements.length = p.size := by
  have htriggers (ts : List Trigger) :
      (Statement.withinAll (ts.flatMap Trigger.statements)).length =
        ts.foldr (fun t n => t.size + n) 0 := by
    induction ts with
    | nil => rfl
    | cons t rest ih =>
      rw [List.flatMap_cons, Statement.withinAll_append, List.length_append,
        Statement.length_withinAll, ih]
      rfl
  exact htriggers p.triggers

theorem length_statementLines (p : Program) (depth : Nat) :
    ((p.triggers.flatMap Trigger.statements).flatMap (Statement.lines depth)).length =
      p.size + p.statements.countP Statement.isBranch + p.statements.countP Statement.hasElse := by
  rw [← Statement.linesAll_eq_flatMap, Statement.length_linesAll, Statement.lineCount,
    ← length_statements, statements]

/-- The groups of lines: the name, if there is one, and a group for each trigger. -/
theorem lineGroups_eq (p : Program) : p.lineGroups =
    (if blank p.name then [] else ["name \"" ++ p.name ++ "\""]).map ([·]) ++
      p.triggers.map fun t =>
        t.header :: (t.statements.flatMap (Statement.lines 1) ++ ["end"]) := by
  have hlines : Trigger.lines =
      fun t => t.header :: (t.statements.flatMap (Statement.lines 1) ++ ["end"]) := by
    funext t
    rw [Trigger.lines_eq, Statement.linesAll_eq_flatMap]
    rfl
  rw [lineGroups, toList_nameLine?, hlines]

theorem length_lineGroups (p : Program) :
    p.lineGroups.length = (nameLine? p.name).toList.length + p.triggers.length := by
  rw [lineGroups, List.length_append, List.length_map, List.length_map]

/-- The lines of all pieces: a name line, two lines for each trigger, and those of statements. -/
theorem length_flatten_lineGroups (p : Program) : p.lineGroups.flatten.length =
    (nameLine? p.name).toList.length + 2 * p.triggers.length +
      ((p.triggers.flatMap Trigger.statements).flatMap (Statement.lines 1)).length := by
  have htriggers (ts : List Trigger) : (ts.map Trigger.lines).flatten.length =
      2 * ts.length + ((ts.flatMap Trigger.statements).flatMap (Statement.lines 1)).length := by
    induction ts with
    | nil => rfl
    | cons t rest ih =>
      rw [List.map_cons, List.flatten_cons, List.length_append, ih, t.length_lines,
        Statement.linesAll_eq_flatMap, List.flatMap_cons, List.flatMap_append, List.length_append,
        List.length_cons]
      omega
  have hname : ((nameLine? p.name).toList.map ([·])).flatten.length =
      (nameLine? p.name).toList.length := by
    cases nameLine? p.name <;> rfl
  rw [lineGroups, List.flatten_append, List.length_append, hname, htriggers]
  omega

theorem ne_empty_of_mem_lineGroups (p : Program) : ∀ lines ∈ p.lineGroups, ∀ l ∈ lines, l ≠ "" := by
  apply forall_mem_lineGroups
  · simp
  · exact fun t _ => t.ne_empty_of_mem_lines

/-- Where no text holds a line end, the lines of a script are its name line, and for each trigger
a header, the lines of its statements and an `end`, with an empty line between these pieces and no
empty line elsewhere. The lines of the statements are as many as the statements, and one more for
each branch and each `else`. -/
theorem script_lines (p : Program) :
    (∀ depth, ((p.triggers.flatMap Trigger.statements).flatMap (Statement.lines depth)).length =
      p.size + p.statements.countP Statement.isBranch + p.statements.countP Statement.hasElse) ∧
    (p.Unbroken → blank p.name = false ∨ p.triggers ≠ [] →
      let names := if blank p.name then [] else ["name \"" ++ p.name ++ "\""]
      let gaps := names.length + p.triggers.length - 1
      splitAt '\n' p.script = [""].intercalate (names.map ([·]) ++
        p.triggers.map fun t =>
          t.header :: (t.statements.flatMap (Statement.lines 1) ++ ["end"])) ∧
      (splitAt '\n' p.script).length =
        ((p.triggers.flatMap Trigger.statements).flatMap (Statement.lines 1)).length +
          2 * p.triggers.length + names.length + gaps ∧
      (splitAt '\n' p.script).count "" = gaps) := by
  refine ⟨p.length_statementLines, fun hp h => ?_⟩
  intro names gaps
  have hnames : (nameLine? p.name).toList = names := toList_nameLine? p.name
  have hne : p.pieces ≠ [] := by
    rw [pieces, hnames]
    rcases h with h | h
    · simp [names, h]
    · simp [h]
  have hsplit := hp.splitAt_script hne
  have hgaps : p.lineGroups.length - 1 = gaps := by rw [length_lineGroups, hnames]
  refine ⟨?_, ?_, ?_⟩
  · rw [hsplit, lineGroups_eq]
  · rw [hsplit, List.length_intercalate, length_flatten_lineGroups, hgaps, hnames,
      List.length_singleton]
    omega
  · have hzero : p.lineGroups.flatten.countP (· == "") = 0 := by
      rw [List.countP_eq_zero]
      intro l hl
      obtain ⟨lines, hlines, hl⟩ := List.mem_flatten.1 hl
      simpa using p.ne_empty_of_mem_lineGroups lines hlines l hl
    rw [hsplit, List.count, List.countP_intercalate, hzero, hgaps]
    simp

/-- A branch inside another one, of which only the outer one has an `else`. -/
def nested : Program where
  name := "a"
  triggers :=
    [.every 20
      [.branch "b has > 0 coal" [] [.branch "c has = 0 coal" [.forget none] []],
        .input (.ofLabel "b")],
      .ofKind .redstonePulse]

theorem script_lines_nested :
    nested.Unbroken ∧ nested.triggers ≠ [] ∧
      ((nested.triggers.flatMap Trigger.statements).flatMap (Statement.lines 1)).length = 7 ∧
      (splitAt '\n' nested.script).length = 14 ∧ (splitAt '\n' nested.script).count "" = 2 := by
  have hunbroken : nested.Unbroken := by
    refine ⟨by decide, ?_⟩
    unfold Trigger.Unbroken
    decide
  obtain ⟨hlines, hscript⟩ := script_lines nested
  obtain ⟨-, hlength, hcount⟩ := hscript hunbroken (.inr (List.cons_ne_nil _ _))
  rw [hlines 1] at hlength
  exact ⟨hunbroken, List.cons_ne_nil _ _, hlines 1, hlength, hcount⟩

end Program
end FactoryScript
