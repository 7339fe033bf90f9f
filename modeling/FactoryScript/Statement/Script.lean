import FactoryScript.Count
import FactoryScript.Statement.Basic

/-!
# The script of a statement

Statements are written one to a line, four spaces deeper for each block around them. A branch opens
a block that `end` closes, and an `else` stands between its two parts if the second is not empty.
-/

namespace FactoryScript

def indent (depth : Nat) : String := String.ofList (List.replicate (4 * depth) ' ')

/-- The words that say how much stays behind. -/
def Retention.words (r : Retention) : String :=
  "retain " ++ Count.text r.count ++ (if r.each then " each" else "")

namespace Transfer

def words (t : Transfer) (keyword direction : String) : List String :=
  let resource := Resource.token t.kind t.resourceId
  [keyword] ++ (t.quantity.map Count.text).toList ++ (t.retain.map Retention.words).toList ++
    (if resource = wildcard then [] else [resource]) ++
    ((Text.present t.except).map ("except " ++ ·)).toList ++
    [direction] ++ (if t.each then ["each"] else []) ++ [t.label] ++
    (match t.side with | some side => [side.keyword, "side"] | none => []) ++
    ((Text.present t.slots).map ("slots " ++ ·)).toList

def line (t : Transfer) (keyword direction : String) : String :=
  " ".intercalate (t.words keyword direction)

end Transfer

namespace Statement

def forgetLine (labels : Option String) : String :=
  match Text.present labels with
  | some labels => "forget " ++ labels
  | none => "forget"

mutual

/-- Appends the lines of a statement inside `depth` blocks. -/
def render (depth : Nat) (lines : Array String) : Statement → Array String
  | input t => lines.push (indent depth ++ t.line "input" "from")
  | output t => lines.push (indent depth ++ t.line "output" "to")
  | forget labels => lines.push (indent depth ++ forgetLine labels)
  | branch condition thenBranch elseBranch =>
    let lines := renderAll (depth + 1) (lines.push (indent depth ++ "if " ++ condition ++ " then"))
      thenBranch
    let lines :=
      if elseBranch.isEmpty then lines
      else renderAll (depth + 1) (lines.push (indent depth ++ "else")) elseBranch
    lines.push (indent depth ++ "end")

def renderAll (depth : Nat) (lines : Array String) : List Statement → Array String
  | [] => lines
  | s :: rest => renderAll depth (s.render depth lines) rest

end

def lines (depth : Nat) (s : Statement) : List String := (s.render depth #[]).toList

end Statement

/-! ## Summaries

One line that describes a statement in a list, such as `INPUT 5x iron_ingot <- chest [top]`. -/

def Transfer.summary (t : Transfer) (keyword arrow : String) : String :=
  let resource := Resource.token t.kind t.resourceId
  keyword ++ " " ++
    (match t.quantity with | some n => Count.text n ++ "x " | none => "") ++
    (if resource = wildcard then "everything" else resource) ++ " " ++ arrow ++ " " ++ t.label ++
    (if t.each then " (each)" else "") ++
    (match t.side with | some side => " [" ++ side.keyword ++ "]" | none => "")

def Statement.summary : Statement → String
  | .input t => t.summary "INPUT" "<-"
  | .output t => t.summary "OUTPUT" "->"
  | .branch condition thenBranch _ =>
    let n := thenBranch.length
    "IF " ++ condition ++ " (" ++ n.repr ++ " " ++
      (if n = 1 then "statement" else "statements") ++ ")"
  | .forget labels =>
    match Text.present labels with
    | some labels => "FORGET " ++ labels
    | none => "FORGET all"

end FactoryScript
