import FactoryScript.Proofs.Script.Lines
import FactoryScript.Proofs.Text.Trim

/-!
# The pieces of a script

Every piece starts and ends in a character that is not white space, whatever the texts in it, so the
white space that is trimmed from a script is exactly what stands after its last piece
(`Program.script_eq_intercalate`). Thus a script is its pieces with empty lines between them, and
more triggers only add to it (`Program.script_keeps_pieces`).
-/

namespace FactoryScript

namespace Text

/-- Parts with a separator after each of them are parts with a separator between them and one more
at the end. -/
theorem join_map_append {sep : String} {parts : List String} (h : parts ≠ []) :
    String.join (parts.map (· ++ sep)) = sep.intercalate parts ++ sep := by
  induction parts with
  | nil => exact absurd rfl h
  | cons s rest ih =>
    cases rest with
    | nil => simp
    | cons s' rest =>
      rw [List.map_cons, String.join_cons, ih (List.cons_ne_nil s' rest),
        String.intercalate_cons_cons, String.append_assoc, String.append_assoc,
        String.append_assoc]

end Text

open Text

/-! ## Triggers -/

theorem startsSolid_every : StartsSolid "every" := ⟨'e', ['v', 'e', 'r', 'y'], rfl, by decide⟩

theorem endsSolid_blockEnd : EndsSolid blockEnd := ⟨['e', 'n'], 'd', rfl, by decide⟩

theorem TriggerKind.startsSolid_header (k : TriggerKind) : StartsSolid k.header := by
  cases k with
  | scheduled s => exact startsSolid_every.intercalate " " _
  | redstonePulse => exact startsSolid_every.append " redstone pulse do"

namespace Trigger

theorem lines_ne_nil (t : Trigger) : t.lines ≠ [] := by
  rw [lines_eq]
  exact List.cons_ne_nil _ _

theorem startsSolid_block (t : Trigger) : StartsSolid t.block := by
  rw [block, lines_eq]
  exact t.kind.startsSolid_header.intercalate "\n" _

theorem endsSolid_block (t : Trigger) : EndsSolid t.block := by
  rw [block, lines]
  exact endsSolid_blockEnd.intercalate "\n" _

/-- A trigger without statements has a block of two lines. -/
theorem block_ofKind (kind : TriggerKind) : (ofKind kind).block = kind.header ++ "\nend" := by
  rw [block, lines_eq, ofKind, Statement.linesAll_nil, List.nil_append,
    String.intercalate_cons_cons, String.intercalate_singleton, String.append_assoc]
  rfl

end Trigger

/-! ## Programs -/

namespace Program

theorem toList_nameLine? (name : String) : (nameLine? name).toList =
    if blank name then [] else ["name \"" ++ name ++ "\""] := by
  unfold nameLine?
  split <;> rfl

theorem eq_of_mem_nameLine? {name line : String} (h : line ∈ nameLine? name) :
    line = "name \"" ++ name ++ "\"" := by
  unfold nameLine? at h
  split at h
  · cases h
  · cases h
    rfl

/-- The lines of each piece. -/
def lineGroups (p : Program) : List (List String) :=
  (nameLine? p.name).toList.map ([·]) ++ p.triggers.map Trigger.lines

theorem pieces_eq (p : Program) : p.pieces = p.lineGroups.map ("\n".intercalate ·) := by
  have hblock : Trigger.block = ("\n".intercalate ·) ∘ Trigger.lines := rfl
  rw [pieces, lineGroups, List.map_append, List.map_map, List.map_map, hblock]
  cases nameLine? p.name with
  | none => rfl
  | some line => simp

/-- What the name line has, and the lines of each trigger have, the lines of each piece have. -/
theorem forall_mem_lineGroups {P : List String → Prop} {p : Program}
    (hname : P ["name \"" ++ p.name ++ "\""]) (htriggers : ∀ t ∈ p.triggers, P t.lines) :
    ∀ lines ∈ p.lineGroups, P lines := by
  rw [lineGroups, List.forall_mem_append, List.forall_mem_map, List.forall_mem_map]
  refine ⟨fun line h => ?_, htriggers⟩
  rw [eq_of_mem_nameLine? (Option.mem_toList.1 h)]
  exact hname

theorem lines_ne_nil_of_mem_lineGroups {p : Program} : ∀ lines ∈ p.lineGroups, lines ≠ [] :=
  forall_mem_lineGroups (List.cons_ne_nil _ _) fun t _ => t.lines_ne_nil

theorem startsSolid_of_mem_pieces {p : Program} : ∀ piece ∈ p.pieces, StartsSolid piece := by
  rw [pieces_eq, List.forall_mem_map]
  refine forall_mem_lineGroups (P := fun lines => StartsSolid ("\n".intercalate lines)) ?_
    fun t _ => t.startsSolid_block
  rw [String.intercalate_singleton, String.append_assoc]
  exact StartsSolid.append ⟨'n', ['a', 'm', 'e', ' ', '"'], rfl, by decide⟩ _

theorem endsSolid_of_mem_pieces {p : Program} : ∀ piece ∈ p.pieces, EndsSolid piece := by
  rw [pieces_eq, List.forall_mem_map]
  refine forall_mem_lineGroups (P := fun lines => EndsSolid ("\n".intercalate lines)) ?_
    fun t _ => t.endsSolid_block
  rw [String.intercalate_singleton]
  exact EndsSolid.append ⟨[], '"', rfl, by decide⟩ _

/-- The pieces with the white space that is trimmed. -/
def untrimmed (p : Program) : String := String.join (p.pieces.map (· ++ "\n\n"))

theorem endsSolid_intercalate_pieces {p : Program} (h : p.pieces ≠ []) :
    EndsSolid ("\n\n".intercalate p.pieces) :=
  endsSolid_intercalate _ h endsSolid_of_mem_pieces

/-- No piece loses anything to the trimming. -/
theorem script_eq_intercalate (p : Program) : p.script = "\n\n".intercalate p.pieces := by
  by_cases h : p.pieces = []
  · rw [script, h]
    decide
  · rw [script, join_map_append h]
    exact trimEnd_append (endsSolid_intercalate_pieces h) (by decide)

theorem untrimmed_eq {p : Program} (h : p.pieces ≠ []) : p.untrimmed = p.script ++ "\n\n" := by
  rw [untrimmed, join_map_append h, script_eq_intercalate]

/-- The text is empty exactly if there is no piece. -/
theorem script_eq_empty_iff {p : Program} : p.script = "" ↔ p.pieces = [] := by
  rw [script_eq_intercalate]
  constructor
  · intro h
    by_contra hne
    exact (endsSolid_intercalate_pieces hne).ne_empty h
  · intro h
    rw [h, String.intercalate_nil]

/-- A script tells its pieces with the white space between them. -/
theorem untrimmed_eq_of_script_eq {p q : Program} (h : p.script = q.script) :
    p.untrimmed = q.untrimmed := by
  have hnil : p.pieces = [] ↔ q.pieces = [] := by
    rw [← script_eq_empty_iff, h, script_eq_empty_iff]
  by_cases hp : p.pieces = []
  · rw [untrimmed, untrimmed, hp, hnil.1 hp]
  · rw [untrimmed_eq hp, untrimmed_eq (mt hnil.2 hp), h]

/-! ## More triggers -/

/-- The program with more triggers at its end. -/
def append (p : Program) (ts : List Trigger) : Program := { p with triggers := p.triggers ++ ts }

theorem pieces_append (p : Program) (ts : List Trigger) :
    (p.append ts).pieces = p.pieces ++ ts.map Trigger.block := by
  rw [pieces, append, List.map_append, ← List.append_assoc]
  rfl

/-- A trigger that is added at the end comes after the text as it was, with an empty line between
them. -/
theorem script_append_singleton (p : Program) (t : Trigger) :
    (p.append [t]).script = p.script ++ (if p.script = "" then "" else "\n\n") ++ t.block := by
  rw [script_eq_intercalate, pieces_append, List.map_singleton]
  by_cases h : p.pieces = []
  · rw [if_pos (script_eq_empty_iff.2 h), script_eq_empty_iff.2 h, h]
    simp
  · rw [if_neg (mt script_eq_empty_iff.1 h), script_eq_intercalate p,
      String.intercalate_append_of_ne_nil h (List.cons_ne_nil _ _), String.intercalate_singleton]

/-- Adding triggers at the end only adds to the text, by induction over the triggers. -/
theorem exists_script_append (p : Program) (ts : List Trigger) :
    ∃ more, (p.append ts).script = p.script ++ more := by
  induction ts using List.reverseRecOn with
  | nil => exact ⟨"", by simp [append]⟩
  | append_singleton ts t ih =>
    obtain ⟨more, hmore⟩ := ih
    have happend : p.append (ts ++ [t]) = (p.append ts).append [t] := by
      simp only [append, List.append_assoc]
    rw [happend, script_append_singleton, hmore, String.append_assoc, String.append_assoc]
    exact ⟨_, rfl⟩

/-- Trimming takes nothing from the pieces. The script is its name line, unless the name is blank,
and the block of each trigger, all unchanged and with an empty line between them. It has no white
space at its ends, and another trigger, with or without statements, adds its block at the end. -/
theorem script_keeps_pieces (p : Program) :
    p.script = "\n\n".intercalate
      ((if blank p.name then [] else ["name \"" ++ p.name ++ "\""]) ++
        p.triggers.map Trigger.block) ∧
    Trimmed p.script ∧
    (∀ t, (p.append [t]).script = p.script ++ (if p.script = "" then "" else "\n\n") ++ t.block) ∧
    (∀ ts, ∃ more, (p.append ts).script = p.script ++ more) ∧
    ∀ kind, (Trigger.ofKind kind).block = kind.header ++ "\nend" := by
  refine ⟨?_, ?_, p.script_append_singleton, p.exists_script_append, Trigger.block_ofKind⟩
  · rw [script_eq_intercalate, pieces, toList_nameLine?]
  · rw [script_eq_intercalate]
    exact trimmed_intercalate _ startsSolid_of_mem_pieces endsSolid_of_mem_pieces

example :
    (Program.mk "\n" [.ofKind .redstonePulse, .every 20 [.output (.ofLabel " a \n")]]).script =
      "every redstone pulse do\nend\n\nevery 20 ticks do\n    output to  a \n\nend" := by decide

end Program
end FactoryScript
