import FactoryScript.Program.Basic
import FactoryScript.Statement.Script

/-!
# The script of a program

A script is a name line, unless the name is blank, and one block for each trigger, with an empty
line between these pieces. A trigger without statements has a block too.
-/

namespace FactoryScript

/-- The first line of a scheduled block. An interval of one is not written. -/
def Schedule.header (s : Schedule) : String :=
  " ".intercalate <|
    ["every"] ++ (if s.interval = 1 then [] else [Count.text s.interval]) ++
    (if s.global then ["global"] else []) ++
    ((s.offset.filter fun n => 0 < n).map fun n => "+ " ++ Count.text n).toList ++
    [s.unit.keyword, "do"]

def TriggerKind.header : TriggerKind → String
  | scheduled s => s.header
  | redstonePulse => pulseHeader

namespace Trigger

def header (t : Trigger) : String := t.kind.header

def lines (t : Trigger) : List String :=
  (Statement.renderAll 1 #[t.header] t.statements).toList ++ [blockEnd]

def block (t : Trigger) : String := "\n".intercalate t.lines

end Trigger

namespace Program

def nameLine? (name : String) : Option String :=
  if Text.blank name then none else some ("name \"" ++ name ++ "\"")

def pieces (p : Program) : List String := (nameLine? p.name).toList ++ p.triggers.map Trigger.block

/-- The whole script: every piece with an empty line after it, and no white space at the end. -/
def script (p : Program) : String := Text.trimEnd (String.join (p.pieces.map (· ++ "\n\n")))

end Program
end FactoryScript
