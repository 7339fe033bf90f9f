import FactoryScript.Program.Basic
import FactoryScript.Statement.Document

/-!
# Programs in documents

A trigger is one object: the member `trigger` names its kind, the members of a schedule stand beside
it, and `statements` lists what it runs. The statements are read where they stand; everything else
is taken as a whole first, because the kind may come last.
-/

namespace FactoryScript

namespace Schedule

def members (s : Schedule) : List (String × Json) :=
  [("interval", .count s.interval.toNat), ("unit", .string s.unit.keyword),
      ("global", .bool s.global)] ++
    Json.optionalMember "offset" (fun n => .count n.toNat) s.offset

def fields : Fields Json Schedule :=
  Fields.done Schedule.mk
    |>.optional "interval" Json.readInterval defaultInterval
    |>.optional "unit" Json.takenName .ticks
    |>.optional "global" Json.readFlag false
    |>.optional "offset" (Json.readOptional Json.readCount) none

end Schedule

namespace TriggerKind

def tagKey : String := "trigger"

def members : TriggerKind → List (String × Json)
  | scheduled s => (tagKey, .string Firing.scheduled.name) :: s.members
  | redstonePulse => [(tagKey, .string Firing.redstonePulse.name)]

/-- Reads the kind from the members of a trigger, which have been taken. -/
def ofMembers (members : List (String × Json)) : Except Fault TriggerKind :=
  match (Json.splitTag tagKey id members : Option (Firing × List (String × Json))) with
  | some (.scheduled, rest) => (Schedule.fields.ofMembers Json.pass rest).map scheduled
  | some (.redstonePulse, _) => .ok redstonePulse
  | none => .error .mismatch

end TriggerKind

namespace Trigger

def statementsKey : String := "statements"

/-- Walks the members of a trigger: reads the statements, at most once, and takes the rest. -/
def gather (room : Nat) : Option (List Statement) → List (String × Json) →
    Except Fault (Option (List Statement))
  | got, [] => .ok got
  | got, (key, v) :: rest =>
    if key = statementsKey then
      if got.isSome then .error .mismatch
      else
        (Json.readList (Statement.read (room - 1)) v).bind fun statements =>
          gather room (some statements) rest
    else (v.take room).bind fun _ => gather room got rest

/-- Reads a trigger where `room` more containers may be nested. -/
def read (room : Nat) : Reader Trigger
  | .object members =>
    (gather (room - 1) none members).bind fun statements =>
      (Json.settle (TriggerKind.ofMembers (members.filter fun m => m.1 != statementsKey))).map
        fun kind => ⟨kind, statements.getD []⟩
  | v => Json.unexpected v

def toJson (t : Trigger) : Json :=
  .object (t.kind.members ++ [(statementsKey, .array (Statement.toJsonAll t.statements))])

end Trigger

namespace Program

def fields : Fields Json Program :=
  Fields.done Program.mk
    |>.optional "name" Json.readText ""
    |>.optional "triggers" (Json.readList (Trigger.read (Json.maxDepth - 2))) []

def read : Reader Program := Json.readRecord fields

def toJson (p : Program) : Json :=
  .object [("name", .string p.name), ("triggers", .array (p.triggers.map Trigger.toJson))]

end Program
end FactoryScript
