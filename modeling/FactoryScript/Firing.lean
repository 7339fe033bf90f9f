import FactoryScript.Named

/-!
# What makes a trigger fire

All three ways of making a script share the kinds of triggers and the outer form of their blocks.
-/

namespace FactoryScript

/-- A trigger fires on a schedule or on each redstone pulse. -/
inductive Firing
  | scheduled | redstonePulse
  deriving DecidableEq, Repr

def Firing.name : Firing → String
  | scheduled => "scheduled"
  | redstonePulse => "redstone_pulse"

instance : Named Firing where
  all := [.scheduled, .redstonePulse]
  name := Firing.name
  mem_all f := by cases f <;> decide
  nodup_names := by decide

/-- The interval of a schedule when none is given. -/
def defaultInterval : UInt32 := 20

def pulseHeader : String := "every redstone pulse do"

def blockEnd : String := "end"

/-- The indentation in blocks that do not nest. -/
def flatIndent : String := "  "

end FactoryScript
