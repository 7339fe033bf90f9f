import FactoryScript.Program.Script

/-!
# The normal form of a program

Programs that differ only in ways that a script does not show have one normal form. In it a blank
text is missing, a delay of zero is missing, and a resource is given by its token: a token counts as
the identifier of an item, since the token of an item is its identifier. Whatever the texts of a
program, its normal form has the same script (`Program.script_normal`).
-/

namespace FactoryScript

namespace Text

@[simp] theorem present_present (s : Option String) : present (present s) = present s := by
  cases s with
  | none => rfl
  | some s => cases h : blank s <;> simp [present, nonBlank?, h]

end Text

namespace Resource

/-- The token of a resource is never blank: where there is no id, the kind stands for it. -/
theorem blank_token (kind : ResourceKind) (id : String) : Text.blank (token kind id) = false := by
  cases h : Text.blank id with
  | true =>
    simp only [token, h, if_true]
    cases kind <;> decide
  | false =>
    simp only [token, h, Bool.false_eq_true, if_false]
    simp_all [Text.blank]

@[simp] theorem token_item_token (kind : ResourceKind) (id : String) :
    token .item (token kind id) = token kind id := by
  rw [token, if_neg (by simp [blank_token])]
  exact String.empty_append

end Resource

/-! ## Statements -/

namespace Transfer

def normal (t : Transfer) : Transfer :=
  { t with
    kind := .item
    resourceId := Resource.token t.kind t.resourceId
    except := Text.present t.except
    slots := Text.present t.slots }

@[simp] theorem normal_normal (t : Transfer) : t.normal.normal = t.normal := by
  simp [normal]

@[simp] theorem line_normal (t : Transfer) (keyword direction : String) :
    t.normal.line keyword direction = t.line keyword direction := by
  simp only [line, words, normal, Resource.token_item_token, Text.present_present]
  rfl

end Transfer

namespace Statement

@[simp] theorem forgetLine_present (labels : Option String) :
    forgetLine (Text.present labels) = forgetLine labels := by
  simp [forgetLine]

mutual

def normal : Statement → Statement
  | input t => input t.normal
  | output t => output t.normal
  | forget labels => forget (Text.present labels)
  | branch condition thenBranch elseBranch =>
    branch condition (normalAll thenBranch) (normalAll elseBranch)

def normalAll : List Statement → List Statement
  | [] => []
  | s :: rest => s.normal :: normalAll rest

end

@[simp] theorem isEmpty_normalAll (ss : List Statement) :
    (normalAll ss).isEmpty = ss.isEmpty := by
  cases ss <;> rfl

mutual

@[simp] theorem normal_normal : ∀ s : Statement, s.normal.normal = s.normal
  | input t => by simp [normal]
  | output t => by simp [normal]
  | forget labels => by simp [normal]
  | branch condition thenBranch elseBranch => by
    simp only [normal, normalAll_normalAll thenBranch, normalAll_normalAll elseBranch]

@[simp] theorem normalAll_normalAll :
    ∀ ss : List Statement, normalAll (normalAll ss) = normalAll ss
  | [] => rfl
  | s :: rest => by simp only [normalAll, normal_normal s, normalAll_normalAll rest]

end

mutual

/-- The normal form of a statement is rendered with the same lines. -/
theorem render_normal (depth : Nat) (lines : Array String) :
    ∀ s : Statement, s.normal.render depth lines = s.render depth lines
  | input t => by simp [normal, render]
  | output t => by simp [normal, render]
  | forget labels => by simp [normal, render]
  | branch condition thenBranch elseBranch => by
    simp only [normal, render, isEmpty_normalAll, renderAll_normalAll _ _ thenBranch,
      renderAll_normalAll _ _ elseBranch]

theorem renderAll_normalAll (depth : Nat) (lines : Array String) :
    ∀ ss : List Statement, renderAll depth lines (normalAll ss) = renderAll depth lines ss
  | [] => rfl
  | s :: rest => by
    simp only [normalAll, renderAll, render_normal depth lines s, renderAll_normalAll _ _ rest]

end

end Statement

/-! ## Programs -/

def Schedule.normal (s : Schedule) : Schedule :=
  { s with offset := s.offset.filter fun n => 0 < n }

@[simp] theorem Schedule.normal_normal (s : Schedule) : s.normal.normal = s.normal := by
  simp [normal, Option.filter_filter]

@[simp] theorem Schedule.header_normal (s : Schedule) : s.normal.header = s.header := by
  simp only [header, normal, Option.filter_filter, Bool.and_self]
  rfl

namespace TriggerKind

def normal : TriggerKind → TriggerKind
  | scheduled s => scheduled s.normal
  | redstonePulse => redstonePulse

@[simp] theorem normal_normal (k : TriggerKind) : k.normal.normal = k.normal := by
  cases k with
  | scheduled s => exact congrArg scheduled s.normal_normal
  | redstonePulse => rfl

@[simp] theorem header_normal (k : TriggerKind) : k.normal.header = k.header := by
  cases k with
  | scheduled s => exact s.header_normal
  | redstonePulse => rfl

end TriggerKind

namespace Trigger

def normal (t : Trigger) : Trigger := ⟨t.kind.normal, Statement.normalAll t.statements⟩

@[simp] theorem normal_normal (t : Trigger) : t.normal.normal = t.normal := by
  simp [normal]

@[simp] theorem block_normal (t : Trigger) : t.normal.block = t.block := by
  simp [block, lines, header, normal, Statement.renderAll_normalAll]

end Trigger

namespace Program

/-- The name as the script shows it: blank names are all alike. -/
def normalName (name : String) : String := if Text.blank name then "" else name

@[simp] theorem nameLine?_normalName (name : String) :
    nameLine? (normalName name) = nameLine? name := by
  cases h : Text.blank name with
  | true => simp [normalName, nameLine?, h]; rfl
  | false => simp [normalName, h]

theorem normalName_normalName (name : String) :
    normalName (normalName name) = normalName name := by
  cases h : Text.blank name with
  | true => simp [normalName, h]
  | false => simp [normalName, h]

/-- What the script shows of a program. -/
def normal (p : Program) : Program := ⟨normalName p.name, p.triggers.map Trigger.normal⟩

@[simp] theorem normal_normal (p : Program) : p.normal.normal = p.normal := by
  simp [normal, normalName_normalName]

theorem script_normal (p : Program) : p.normal.script = p.script := by
  have hblocks : p.triggers.map (Trigger.block ∘ Trigger.normal) = p.triggers.map Trigger.block :=
    List.map_congr_left fun t _ => t.block_normal
  simp [script, pieces, normal, hblocks]

theorem script_eq_of_normal_eq {p q : Program} (h : p.normal = q.normal) : p.script = q.script := by
  rw [← script_normal p, h, script_normal]

end Program
end FactoryScript
