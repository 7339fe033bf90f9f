import FactoryScript.Count
import FactoryScript.Endpoint
import FactoryScript.Firing

/-!
# The wizard

The wizard fills one scheduled trigger: rows to take from, and rows to put into. Its script has
upper-case keywords, the resource before the amount, and a line end after its last line.
-/

namespace FactoryScript

structure WizardLayout where
  tickInterval : UInt32
  sources : List Endpoint
  targets : List Endpoint
  deriving DecidableEq, Repr

namespace WizardLayout

def newSource : Endpoint := .ofLabel "a"

def newTarget : Endpoint := .ofLabel "b"

def initial : WizardLayout := ⟨defaultInterval, [newSource], [newTarget]⟩

end WizardLayout

/-! ## The script -/

def Endpoint.wizardLine (e : Endpoint) (keyword direction : String) : String :=
  " ".intercalate <|
    [keyword] ++ e.resourceWord?.toList ++ e.quantityWord?.toList ++ [direction, e.label] ++
      (match e.side.keyword? with | some side => ["SIDE", side.toUpper] | none => [])

namespace WizardLayout

def lines (w : WizardLayout) : List String :=
  ["EVERY " ++ Count.text w.tickInterval ++ " TICKS DO"] ++
    w.sources.map (fun e => flatIndent ++ e.wizardLine "INPUT" "FROM") ++
    w.targets.map (fun e => flatIndent ++ e.wizardLine "OUTPUT" "TO") ++ ["END"]

def script (w : WizardLayout) : String := String.join (w.lines.map (· ++ "\n"))

end WizardLayout

/-! ## Documents -/

namespace Endpoint

def toJson (e : Endpoint) : Json := .object e.members

def fields : Fields Json Endpoint := addFields (Fields.done id)

def read : Reader Endpoint := Json.readRecord fields

end Endpoint

namespace WizardLayout

def fields : Fields Json WizardLayout :=
  Fields.done WizardLayout.mk
    |>.optional "tick_interval" Json.readInterval defaultInterval
    |>.optional "sources" (Json.readList Endpoint.read) []
    |>.optional "targets" (Json.readList Endpoint.read) []

def read : Reader WizardLayout := Json.readRecord fields

def toJson (w : WizardLayout) : Json :=
  .object [("tick_interval", .count w.tickInterval.toNat),
    ("sources", .array (w.sources.map Endpoint.toJson)),
    ("targets", .array (w.targets.map Endpoint.toJson))]

end WizardLayout

end FactoryScript
