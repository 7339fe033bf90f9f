import FactoryScript.Proofs.Script.Blocks

/-!
# Blocks and their indentation

The lines of a trigger are scanned with a stack of the blocks that are open. What a line is for is
told by its text alone, and `OpenBlocks.step` says where it may stand: a line that opens a statement
is indented by the number of open blocks, and `else` and `end` by as much as the block to which they
belong. Whatever the texts of the statements are, the scan of a trigger goes through and closes the
last block with the last line (`Trigger.lines_nested`). The invariant is that the lines of a
statement leave the open blocks as they are, except that the innermost one has a statement then
(`Statement.scan_lines`).
-/

namespace FactoryScript
open Text

/-! ## Lines -/

namespace Line

/-- The number of spaces at the start. -/
def margin (line : String) : Nat := (line.toList.takeWhile (· = ' ')).length

/-- The line without the spaces at its start. -/
def unindented (line : String) : String := String.ofList (line.toList.dropWhile (· = ' '))

inductive Purpose
  /-- Moves something or forgets something. -/
  | action
  | opening
  | alternative
  | closing
  deriving DecidableEq, Repr

/-- What a line is for. Only a line that is nothing but the word is an `else` or an `end`; any other
is told by its first word. -/
def purpose? (line : String) : Option Purpose :=
  if unindented line = "else" then some .alternative
  else if unindented line = "end" then some .closing
  else if firstWord line = some "if" then some .opening
  else if firstWord line ∈ [some "input", some "output", some "forget"] then some .action
  else none

/-- The text begins, and not with a space. -/
def StartsSolid (s : String) : Prop := ∃ c cs, s.toList = c :: cs ∧ c ≠ ' '

/-- A text whose first token is not empty does not start with a space. -/
theorem startsSolid_of_splitAt {s w : String} {ws : List String} (hw : w ≠ "")
    (h : splitAt ' ' s = w :: ws) : StartsSolid s := by
  rcases hs : s.toList with _ | ⟨c, cs⟩
  · rw [String.toList_eq_nil_iff.1 hs] at h
    exact absurd (List.cons.inj h).1.symm hw
  · refine ⟨c, cs, hs, ?_⟩
    rintro rfl
    have hspace : s = "" ++ String.singleton ' ' ++ String.ofList cs := by
      simp [← String.toList_inj, hs]
    rw [hspace, splitAt_append_of_notMem (by simp)] at h
    exact hw (List.cons.inj h).1.symm

section
variable {s : String} (hs : StartsSolid s) (depth : Nat)
include hs

theorem margin_indent : margin (indent depth ++ s) = 4 * depth := by
  obtain ⟨c, cs, hcs, hc⟩ := hs
  have hspaces : ∀ b ∈ List.replicate (4 * depth) ' ', decide (b = ' ') = true := by simp
  rw [margin, indent, String.toList_append, String.toList_ofList, hcs,
    List.takeWhile_append_of_pos hspaces, List.takeWhile_cons_of_neg (by simpa using hc),
    List.append_nil, List.length_replicate]

theorem unindented_indent : unindented (indent depth ++ s) = s := by
  obtain ⟨c, cs, hcs, hc⟩ := hs
  have hspaces : ∀ b ∈ List.replicate (4 * depth) ' ', decide (b = ' ') = true := by simp
  rw [unindented, indent, String.toList_append, String.toList_ofList, hcs,
    List.dropWhile_append_of_pos hspaces, List.dropWhile_cons_of_neg (by simpa using hc), ← hcs,
    String.ofList_toList]

end

theorem startsSolid_else : StartsSolid "else" := ⟨'e', ['l', 's', 'e'], rfl, by decide⟩

theorem startsSolid_end : StartsSolid "end" := ⟨'e', ['n', 'd'], rfl, by decide⟩

theorem purpose?_else (depth : Nat) : purpose? (indent depth ++ "else") = some .alternative := by
  rw [purpose?, unindented_indent startsSolid_else, if_pos rfl]

theorem purpose?_end (depth : Nat) : purpose? (indent depth ++ "end") = some .closing := by
  rw [purpose?, unindented_indent startsSolid_end, if_neg (by decide), if_pos rfl]

end Line

open Line (margin purpose? startsSolid_else startsSolid_end margin_indent purpose?_else
  purpose?_end)

/-! ## Scanning -/

/-- How far the lines of a block have come. -/
inductive BlockPart
  | trigger
  | first
  /-- After `else`, which has to be followed by a statement. -/
  | alternative
  | second
  deriving DecidableEq, Repr

structure OpenBlock where
  margin : Nat
  part : BlockPart
  deriving DecidableEq, Repr

/-- The block after a statement in it. -/
def OpenBlock.filled (b : OpenBlock) : OpenBlock :=
  if b.part = .alternative then { b with part := .second } else b

/-- The block after some statements in it. -/
def OpenBlock.after (b : OpenBlock) (ss : List Statement) : OpenBlock :=
  if ss.isEmpty then b else b.filled

theorem OpenBlock.after_filled (b : OpenBlock) (ss : List Statement) :
    b.filled.after ss = b.filled := by
  cases b with
  | mk margin part => cases part <;> cases ss <;> rfl

theorem OpenBlock.after_of_ne {part : BlockPart} (h : part ≠ .alternative) (margin : Nat)
    (ss : List Statement) : (⟨margin, part⟩ : OpenBlock).after ss = ⟨margin, part⟩ := by
  rw [after, filled, if_neg h, ite_self]

/-- The blocks that are open, innermost first. -/
abbrev OpenBlocks := List OpenBlock

namespace OpenBlocks

/-- Takes a line in, if it may stand where it does. A line that opens a statement stands four spaces
deeper for each open block, and a branch opens a block with the margin of its line. An `else` comes
once, in the first part of a branch, and an `end` not right after it; both have the margin of the
innermost block. -/
def step : OpenBlocks → String → Option OpenBlocks
  -- no line comes after the end of the outermost block
  | [], _ => none
  | b :: rest, line =>
    match purpose? line with
    | some .action =>
      if margin line = 4 * (b :: rest).length then some (b.filled :: rest) else none
    | some .opening =>
      if margin line = 4 * (b :: rest).length then
        some (⟨margin line, .first⟩ :: b.filled :: rest)
      else none
    | some .alternative =>
      if margin line = b.margin ∧ b.part = .first then
        some ({ b with part := .alternative } :: rest)
      else none
    | some .closing =>
      if margin line = b.margin ∧ b.part ≠ .alternative then some rest else none
    | none => none

/-- Scans the lines of a trigger. The header opens the outermost block. -/
def scan : List String → Option OpenBlocks
  | [] => none
  | _ :: lines => lines.foldlM step [⟨0, .trigger⟩]

variable {rest blocks next : OpenBlocks}

theorem foldlM_cons {line : String} (h : step blocks line = some next) (lines : List String) :
    (line :: lines).foldlM step blocks = lines.foldlM step next := by
  rw [List.foldlM_cons, h]
  rfl

theorem foldlM_append {before : List String} (h : before.foldlM step blocks = some next)
    (after : List String) : (before ++ after).foldlM step blocks = after.foldlM step next := by
  rw [List.foldlM_append, h]
  rfl

theorem step_else (depth : Nat) :
    step (⟨4 * depth, .first⟩ :: rest) (indent depth ++ "else") =
      some (⟨4 * depth, .alternative⟩ :: rest) := by
  simp only [step, purpose?_else, margin_indent startsSolid_else, and_self, if_true]

theorem step_end {part : BlockPart} (h : part ≠ .alternative) (depth : Nat) :
    step (⟨4 * depth, part⟩ :: rest) (indent depth ++ "end") = some rest := by
  simp only [step, purpose?_end, margin_indent startsSolid_end, ne_eq, h, not_false_eq_true,
    and_self, if_true]

end OpenBlocks

open OpenBlocks (step scan step_else step_end foldlM_cons foldlM_append)

/-! ## Statements -/

namespace Statement

/-- The blocks that are open after the first line of a statement. -/
def opened (depth : Nat) (blocks : OpenBlocks) : Statement → OpenBlocks
  | branch .. => ⟨4 * depth, .first⟩ :: blocks
  | _ => blocks

variable {rest : OpenBlocks}

theorem startsSolid_opening (s : Statement) : Line.StartsSolid s.opening := by
  obtain ⟨ws, h⟩ := s.splitAt_opening
  exact Line.startsSolid_of_splitAt (by cases s <;> simp [keyword]) h

/-- An opening line opens a block if it is an `if` and does nothing to the blocks otherwise. -/
theorem purpose?_opening (depth : Nat) (s : Statement) : purpose? (indent depth ++ s.opening) =
    if s.keyword = "if" then some .opening else some .action := by
  have hne {word : String} (hword : firstWord word = some word) (h : s.keyword ≠ word) :
      s.opening ≠ word := by
    intro heq
    have hopening := s.firstWord_opening
    rw [heq, hword, Option.some.injEq] at hopening
    exact h hopening.symm
  have helse : s.opening ≠ "else" := hne (by decide) (by cases s <;> simp [keyword])
  have hend : s.opening ≠ "end" := hne (by decide) (by cases s <;> simp [keyword])
  rw [purpose?, Line.unindented_indent s.startsSolid_opening, if_neg helse, if_neg hend,
    firstWord_indent, firstWord_opening]
  cases s <;> simp [keyword]

theorem step_opening (s : Statement) (b : OpenBlock) (rest : OpenBlocks) :
    step (b :: rest) (indent (rest.length + 1) ++ s.opening) =
      some (s.opened (rest.length + 1) (b.filled :: rest)) := by
  have hpurpose := s.purpose?_opening (rest.length + 1)
  have hmargin := margin_indent s.startsSolid_opening (rest.length + 1)
  rw [step, hpurpose]
  cases s <;> simp [keyword, hmargin, opened]

/-- The end of a branch, if the lines of the second part can be scanned. -/
theorem scan_ending {depth : Nat} {ss : List Statement}
    (ih : ∀ b : OpenBlock, (linesAll (depth + 1) ss).foldlM step (b :: rest) =
      some (b.after ss :: rest)) :
    (ending depth ss).foldlM step (⟨4 * depth, .first⟩ :: rest) = some rest := by
  cases ss with
  | nil =>
    rw [ending_nil, foldlM_cons (step_end (by decide) depth)]
    rfl
  | cons s more =>
    have hfilled : (⟨4 * depth, .alternative⟩ : OpenBlock).after (s :: more) =
        ⟨4 * depth, .second⟩ := rfl
    rw [ending_cons, foldlM_cons (step_else depth), foldlM_append (ih _), hfilled,
      foldlM_cons (step_end (by decide) depth)]
    rfl

-- The induction is on the statements, for any open blocks. That a list is not empty matters only
-- after an `else`.
mutual

/-- Scanning the lines of a statement ends where it began, with the block around it no longer empty.
-/
theorem scan_lines (s : Statement) {depth : Nat} (b : OpenBlock) (rest : OpenBlocks)
    (hdepth : depth = rest.length + 1) :
    (s.lines depth).foldlM step (b :: rest) = some (b.filled :: rest) := by
  subst hdepth
  rw [lines_eq, foldlM_cons (step_opening s b rest)]
  match s with
  | input t => rfl
  | output t => rfl
  | forget labels => rfl
  | branch condition thenBranch elseBranch =>
    have hthen := scan_linesAll thenBranch ⟨4 * (rest.length + 1), .first⟩ (b.filled :: rest) rfl
    have helse := fun b' => scan_linesAll elseBranch b' (b.filled :: rest) rfl
    rw [List.length_cons] at hthen helse
    rw [inner, opened, foldlM_append hthen, OpenBlock.after_of_ne (by decide)]
    exact scan_ending helse

/-- The same for a list of statements, which leaves the block as it is if it has none. -/
theorem scan_linesAll (ss : List Statement) {depth : Nat} (b : OpenBlock) (rest : OpenBlocks)
    (hdepth : depth = rest.length + 1) :
    (linesAll depth ss).foldlM step (b :: rest) = some (b.after ss :: rest) := by
  match ss with
  | [] => rfl
  | s :: more =>
    rw [linesAll_cons, foldlM_append (scan_lines s b rest hdepth),
      scan_linesAll more b.filled rest hdepth, b.after_filled]
    rfl

end

end Statement

/-! ## Triggers -/

/-- What is scanned before the last line leaves a block open. -/
theorem OpenBlocks.ne_nil_of_foldlM {lines after : List String} {blocks : OpenBlocks}
    (h : (lines ++ after).foldlM step blocks = some []) (hafter : after ≠ []) :
    ∃ b rest, lines.foldlM step blocks = some (b :: rest) := by
  rw [List.foldlM_append] at h
  obtain ⟨open', hlines, hafter'⟩ := Option.bind_eq_some_iff.1 h
  cases open' with
  | nil =>
    cases after with
    | nil => exact absurd rfl hafter
    | cons line more => cases hafter'
  | cons b rest => exact ⟨b, rest, hlines⟩

/-- The lines of a trigger are properly nested and indented: each of them may stand where it does,
and the blocks are all closed after the last line and not before. -/
theorem Trigger.lines_nested (t : Trigger) : scan t.lines = some [] ∧
    ∀ before after, t.lines = before ++ after → before ≠ [] → after ≠ [] →
      ∃ b rest, scan before = some (b :: rest) := by
  have hscan : scan t.lines = some [] := by
    have hstatements : (Statement.linesAll 1 t.statements).foldlM step [⟨0, .trigger⟩] =
        some [⟨0, .trigger⟩] :=
      (Statement.scan_linesAll t.statements _ [] rfl).trans
        (by rw [OpenBlock.after_of_ne (by decide)])
    have hend : [blockEnd].foldlM step [⟨0, .trigger⟩] = some [] := by decide
    rw [lines_eq, scan, OpenBlocks.foldlM_append hstatements, hend]
  refine ⟨hscan, fun before after h hbefore hafter => ?_⟩
  cases before with
  | nil => exact absurd rfl hbefore
  | cons header lines =>
    rw [h] at hscan
    exact OpenBlocks.ne_nil_of_foldlM hscan hafter

/-- Texts that look like the end of a block, on lines of their own among them. -/
def Trigger.disguised : Trigger :=
  .every 20
    [.branch "x\n    end\n" []
      [.branch "end" [.forget (some "\nend")] [.input (.ofLabel "else"), .output (.ofLabel "end")]]]

theorem Trigger.lines_nested_disguised :
    disguised.lines = ["every 20 ticks do", "    if x\n    end\n then", "    else",
      "        if end then", "            forget \nend", "        else",
      "            input from else", "            output to end", "        end", "    end", "end"] ∧
    scan disguised.lines = some [] ∧
    scan (disguised.lines.take 7) = some [⟨8, .second⟩, ⟨4, .second⟩, ⟨0, .trigger⟩] ∧
    ∃ b rest, scan (disguised.lines.take 10) = some (b :: rest) := by
  obtain ⟨hscan, hopen⟩ := lines_nested disguised
  refine ⟨by decide, hscan, by decide, ?_⟩
  exact hopen _ (disguised.lines.drop 10) (List.take_append_drop 10 _).symm (by decide) (by decide)

end FactoryScript
