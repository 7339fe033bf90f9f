import FactoryScript.Session.Edit
import FactoryScript.Budget
import FactoryScript.Wizard

/-!
# Editing a wizard layout

A session has a layout, in which there is always a source and a target, and its script.
-/

namespace FactoryScript

inductive RowList
  | sources | targets
  deriving DecidableEq, Repr

namespace RowList

def newRow : RowList → Endpoint
  | sources => WizardLayout.newSource
  | targets => WizardLayout.newTarget

end RowList

namespace WizardLayout

def rows (w : WizardLayout) : RowList → List Endpoint
  | .sources => w.sources
  | .targets => w.targets

def withRows (w : WizardLayout) (l : RowList) (rows : List Endpoint) : WizardLayout :=
  match l with
  | .sources => { w with sources := rows }
  | .targets => { w with targets := rows }

/-- The same layout with a new row in a list that has none. -/
def withSomeRow (w : WizardLayout) (l : RowList) : WizardLayout :=
  if (w.rows l).isEmpty then w.withRows l [l.newRow] else w

end WizardLayout

structure WizardSession where
  layout : WizardLayout
  generated : Generated

namespace WizardSession

def refresh : Edit WizardSession Unit := fun s =>
  let new := Generated.ofCode s.layout.script
  ⟨.ok (), { s with generated := new }, s.generated.notes new "wizard"⟩

/-- Starts a session over a layout; empty lists get a row. -/
def start (w : WizardLayout) : Outcome WizardSession Unit :=
  refresh ⟨(w.withSomeRow .sources).withSomeRow .targets, .empty⟩

def fresh : Outcome WizardSession Unit := start .initial

def putRows (l : RowList) (rows : List Endpoint) : Edit WizardSession Unit := do
  Edit.modify fun s => { s with layout := s.layout.withRows l rows }
  refresh

/-- Sets the interval, which is at least one. -/
def setInterval (interval : UInt32) : Edit WizardSession Unit := do
  Edit.modify fun s => { s with layout.tickInterval := max 1 interval }
  refresh

def addRow (l : RowList) : Edit WizardSession Nat := do
  let rows := (← Edit.session).layout.rows l
  putRows l (rows ++ [l.newRow])
  return rows.length

/-- Removes the row at a position, unless it is the only one of its list. -/
def removeRow (l : RowList) (index : Nat) : Edit WizardSession Bool := do
  let rows := (← Edit.session).layout.rows l
  if rows.length ≤ index then Edit.fail (.rowNotFound index)
  else if rows.length = 1 then return false
  else
    putRows l (rows.eraseIdx index)
    return true

def updateRow (l : RowList) (index : Nat) (f : Endpoint → Endpoint) : Edit WizardSession Unit := do
  let rows := (← Edit.session).layout.rows l
  match rows[index]? with
  | none => Edit.fail (.rowNotFound index)
  | some row => putRows l (rows.set index (f row))

end WizardSession
end FactoryScript
