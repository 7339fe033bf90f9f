import FactoryScript.Graph.Script
import FactoryScript.Session.Edit
import FactoryScript.Budget

/-!
# Editing a graph

A session has a list of graph triggers, a selected one, and the script of them all. Edits of nodes
and connections act on the selected trigger.
-/

namespace FactoryScript

/-- What is to change about a trigger, its graph apart. -/
structure TriggerChange where
  name : Option String
  kind : Option Firing
  tickInterval : Option UInt32
  deriving DecidableEq, Repr

def TriggerChange.apply (c : TriggerChange) (t : GraphTrigger) : GraphTrigger :=
  { t with
    name := c.name.getD t.name
    kind := c.kind.getD t.kind
    tickInterval := c.tickInterval.getD t.tickInterval }

structure GraphSession where
  triggers : List GraphTrigger
  selected : Option Nat
  generated : Generated

namespace GraphSession

def selectedTrigger? (s : GraphSession) : Option GraphTrigger :=
  s.selected.bind fun i => s.triggers[i]?

def refresh : Edit GraphSession Unit := fun s =>
  let new := Generated.ofCode (Graph.script s.triggers)
  ⟨.ok (), { s with generated := new }, s.generated.notes new "graph"⟩

/-- Starts a session in which the first trigger is selected. -/
def start (triggers : List GraphTrigger) : Outcome GraphSession Unit :=
  refresh ⟨triggers, if triggers.isEmpty then none else some 0, .empty⟩

def active : Edit GraphSession (Nat × GraphTrigger) := do
  let s ← Edit.session
  match s.selected, s.selectedTrigger? with
  | some i, some t => return (i, t)
  | _, _ => Edit.fail .noTrigger

def putTrigger (i : Nat) (t : GraphTrigger) : Edit GraphSession Unit := do
  Edit.modify fun s => { s with triggers := s.triggers.set i t }
  refresh

/-! ## Triggers -/

/-- Appends a starter trigger, selects it, and gives its position. -/
def addTrigger : Edit GraphSession Nat := do
  let index := (← Edit.session).triggers.length
  let name := "Trigger " ++ (index + 1).repr
  Edit.tell .info ("Adding graph trigger: " ++ name)
  Edit.modify fun s =>
    { s with triggers := s.triggers ++ [GraphTrigger.starter name], selected := some index }
  refresh
  return index

def fresh : Outcome GraphSession Unit :=
  let empty := start []
  let added := addTrigger empty.session
  ⟨added.result.map fun _ => (), added.session, empty.notes ++ added.notes⟩

/-- The selection after the trigger at `index` has been removed, and `count` are left: the selected
trigger stays selected, and the first one is selected in its place if it was the one removed. -/
def selectionAfter (index count : Nat) (selected : Option Nat) : Option Nat :=
  let kept := selected.bind fun s =>
    if s = index then none else if index < s then some (s - 1) else some s
  match kept with
  | some s => some s
  | none => if count = 0 then none else some 0

def removeTrigger (index : Nat) : Edit GraphSession GraphTrigger := do
  let s ← Edit.session
  match s.triggers[index]? with
  | none => Edit.fail (.triggerNotFound index)
  | some t =>
    Edit.tell .info ("Removed graph trigger: " ++ t.name)
    let rest := s.triggers.eraseIdx index
    Edit.modify fun s =>
      { s with triggers := rest, selected := selectionAfter index rest.length s.selected }
    refresh
    return t

def select (index : Nat) : Edit GraphSession Unit := do
  let s ← Edit.session
  if index < s.triggers.length then Edit.modify fun s => { s with selected := some index }
  else Edit.fail (.triggerNotFound index)

/-- Changes the trigger at a position; its interval stays at least one. -/
def updateTrigger (index : Nat) (change : TriggerChange) : Edit GraphSession Unit := do
  let s ← Edit.session
  match s.triggers[index]? with
  | none => Edit.fail (.triggerNotFound index)
  | some t => putTrigger index (change.apply t).atLeastOne

/-! ## Nodes -/

/-- Adds a node with the first free label, and gives its number. -/
def addNode : Edit GraphSession NodeId := do
  let (i, t) ← active
  putTrigger i (t.addNode t.freeLabel)
  return t.freshId

def removeNode (id : NodeId) : Edit GraphSession Node := do
  let (i, t) ← active
  let (n, t) ← Edit.ofExcept .graph (t.removeNode id)
  putTrigger i t
  return n

/-- Changes a node in any way, except that it keeps its number. -/
def updateNode (id : NodeId) (f : Node → Node) : Edit GraphSession Unit := do
  let (i, t) ← active
  if t.hasNode id then putTrigger i (t.updateNode id fun n => { f n with id := id })
  else Edit.fail (.graph (.nodeNotFound id))

/-! ## Connections -/

/-- Puts a trigger back after an edit, and brings the script up to date if the trigger has
changed. -/
def keepIf (i : Nat) (changed : Bool) (t : GraphTrigger) : Edit GraphSession Bool := do
  Edit.modify fun s => { s with triggers := s.triggers.set i t }
  if changed then refresh
  return changed

def connect (c : Connection) : Edit GraphSession Bool := do
  let (i, t) ← active
  let (changed, t) ← Edit.ofExcept .graph (t.connect c)
  keepIf i changed t

def reverse (c : Connection) : Edit GraphSession Bool := do
  let (i, t) ← active
  let (changed, t) := t.reverse c
  keepIf i changed t

def disconnect (c : Connection) : Edit GraphSession Bool := do
  let (i, t) ← active
  let (changed, t) := t.disconnect c
  keepIf i changed t

end GraphSession
end FactoryScript
