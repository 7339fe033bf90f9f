import FactoryScript.Firing
import FactoryScript.Statement.Basic

/-!
# Programs

A program is a name and an ordered list of triggers. Each trigger owns the statements that run when
it fires.
-/

namespace FactoryScript

inductive TimeUnit
  | ticks | seconds
  deriving DecidableEq, Repr

def TimeUnit.keyword : TimeUnit → String
  | ticks => "ticks"
  | seconds => "seconds"

instance : Named TimeUnit where
  all := [.ticks, .seconds]
  name := TimeUnit.keyword
  mem_all u := by cases u <;> decide
  nodup_names := by decide

structure Schedule where
  interval : UInt32
  unit : TimeUnit
  /-- Counted on the clock that all programs share. -/
  global : Bool
  /-- A delay added to the interval; a delay of zero is the same as none. -/
  offset : Option UInt32
  deriving DecidableEq, Repr

namespace Schedule

/-- Every so many ticks. -/
def every (interval : UInt32) : Schedule := ⟨interval, .ticks, false, none⟩

def initial : Schedule := every defaultInterval

def atLeastOne (s : Schedule) : Schedule := { s with interval := max 1 s.interval }

end Schedule

inductive TriggerKind
  | scheduled (s : Schedule)
  | redstonePulse
  deriving DecidableEq, Repr

def TriggerKind.initial : TriggerKind := scheduled .initial

structure Trigger where
  kind : TriggerKind
  statements : List Statement

namespace Trigger

def ofKind (kind : TriggerKind) : Trigger := ⟨kind, []⟩

/-- A trigger that runs statements every so many ticks. -/
def every (interval : UInt32) (statements : List Statement) : Trigger :=
  ⟨.scheduled (.every interval), statements⟩

/-- The trigger of an empty document. -/
def initial : Trigger := ofKind .initial

/-- The number of statements, those inside branches included. -/
def size (t : Trigger) : Nat := Statement.sizeAll t.statements

end Trigger

structure Program where
  name : String
  triggers : List Trigger

namespace Program

def initial : Program := ⟨"My Program", []⟩

/-- The number of statements of all triggers, those inside branches included. -/
def size (p : Program) : Nat := p.triggers.foldr (fun t n => t.size + n) 0

end Program
end FactoryScript
