import FactoryScript.Count
import FactoryScript.Program.Basic

/-!
# Forms

What a user fills in to add a trigger or a movement to a program. Numbers are typed as text and
checked when the form is used; the other texts are trimmed, and blank ones count as not given.
-/

namespace FactoryScript

structure TriggerForm where
  redstonePulse : Bool
  interval : UInt32
  unit : TimeUnit
  global : Bool
  /-- Zero for no delay. -/
  offset : UInt32
  deriving DecidableEq, Repr

namespace TriggerForm

def initial : TriggerForm := ⟨false, Schedule.initial.interval, .ticks, false, 0⟩

def every (interval : UInt32) (unit : TimeUnit) : TriggerForm :=
  { initial with interval := interval, unit := unit }

def pulse : TriggerForm := { initial with redstonePulse := true }

/-- The kind of trigger; a schedule has an interval of at least one. -/
def kind (f : TriggerForm) : TriggerKind :=
  if f.redstonePulse then .redstonePulse
  else
    let s : Schedule :=
      { interval := f.interval
        unit := f.unit
        global := f.global
        offset := if f.offset = 0 then none else some f.offset }
    .scheduled s.atLeastOne

end TriggerForm

structure TransferForm where
  label : String
  quantity : String
  retention : String
  retentionEach : Bool
  kind : ResourceKind
  resourceId : String
  except : String
  each : Bool
  side : Option Side
  slots : String
  deriving DecidableEq, Repr

namespace TransferForm

/-- A form in which only the label is filled in. -/
def ofLabel (label : String) : TransferForm where
  label := label
  quantity := ""
  retention := ""
  retentionEach := false
  kind := .item
  resourceId := ""
  except := ""
  each := false
  side := none
  slots := ""

def filled (text : String) : Option String := Text.nonBlank? (Text.trim text)

def transferWith (f : TransferForm) (quantity retention : Option UInt32) : Transfer where
  quantity := quantity
  retain := retention.map fun n => ⟨n, f.retentionEach⟩
  kind := f.kind
  resourceId := (filled f.resourceId).getD wildcard
  except := filled f.except
  label := Text.trim f.label
  each := f.each
  side := f.side
  slots := filled f.slots

/-- The movement, if both numbers can be read; the first one that cannot is reported. -/
def transfer (f : TransferForm) : Except NotACount Transfer := do
  let quantity ← Count.read "quantity" f.quantity
  let retention ← Count.read "retention" f.retention
  return f.transferWith quantity retention

end TransferForm
end FactoryScript
