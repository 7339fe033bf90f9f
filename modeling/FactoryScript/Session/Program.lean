import FactoryScript.Condition
import FactoryScript.Program.Script
import FactoryScript.Program.Template
import FactoryScript.Session.Edit
import FactoryScript.Session.Form
import FactoryScript.Budget

/-!
# Editing a program

A session has a program, a selected trigger, and the script of the program, which every edit brings
up to date. Edits of statements act on the selected trigger.
-/

namespace FactoryScript

structure ProgramSession where
  program : Program
  selected : Option Nat
  generated : Generated

namespace ProgramSession

def selectedTrigger? (s : ProgramSession) : Option Trigger :=
  s.selected.bind fun i => s.program.triggers[i]?

/-- The position that is selected when no other choice has been made. -/
def firstOf {α : Type} (l : List α) : Option Nat := if l.isEmpty then none else some 0

def refresh : Edit ProgramSession Unit := fun s =>
  let new := Generated.ofCode s.program.script
  ⟨.ok (), { s with generated := new }, s.generated.notes new "program"⟩

/-- Starts a session in which the first trigger is selected. -/
def start (p : Program) : Outcome ProgramSession Unit := refresh ⟨p, firstOf p.triggers, .empty⟩

/-- Starts a session over a fresh program with one trigger. -/
def fresh : Outcome ProgramSession Unit := start { Program.initial with triggers := [.initial] }

def active : Edit ProgramSession (Nat × Trigger) := do
  let s ← Edit.session
  match s.selected, s.selectedTrigger? with
  | some i, some t => return (i, t)
  | _, _ => Edit.fail .noTrigger

def putTrigger (i : Nat) (t : Trigger) : Edit ProgramSession Unit := do
  Edit.modify fun s => { s with program.triggers := s.program.triggers.set i t }
  refresh

/-! ## The program and its triggers -/

def setName (name : String) : Edit ProgramSession Unit := do
  Edit.modify fun s => { s with program.name := name }
  refresh

/-- Appends a trigger, selects it, and gives its position. -/
def addTrigger (form : TriggerForm) : Edit ProgramSession Nat := do
  let t := Trigger.ofKind form.kind
  Edit.tell .info ("Adding trigger: " ++ t.header)
  let index := (← Edit.session).program.triggers.length
  Edit.modify fun s =>
    { s with program.triggers := s.program.triggers ++ [t], selected := some index }
  refresh
  return index

def updateTrigger (form : TriggerForm) : Edit ProgramSession Unit := do
  let (i, t) ← active
  putTrigger i { t with kind := form.kind }

/-- Removes the selected trigger; the first one of the others is selected then. -/
def removeTrigger : Edit ProgramSession Trigger := do
  let s ← Edit.session
  match s.selected with
  | none => Edit.fail .noTrigger
  | some i =>
    match s.program.triggers[i]? with
    | none => Edit.fail (.triggerNotFound i)
    | some t =>
      Edit.tell .info ("Removed trigger: " ++ t.header)
      let rest := s.program.triggers.eraseIdx i
      Edit.modify fun s => { s with program.triggers := rest, selected := firstOf rest }
      refresh
      return t

def select (index : Nat) : Edit ProgramSession Unit := do
  let s ← Edit.session
  if index < s.program.triggers.length then
    Edit.modify fun s => { s with selected := some index }
  else Edit.fail (.triggerNotFound index)

def loadTemplate (t : Template) : Edit ProgramSession Unit := do
  Edit.tell .info ("Loading template: " ++ t.name)
  Edit.modify fun s => { s with program := t.program, selected := firstOf t.program.triggers }
  refresh

def clear : Edit ProgramSession Unit := do
  Edit.modify fun s => { s with program.triggers := [], selected := none }
  refresh

/-! ## Statements -/

def push (statement : Statement) : Edit ProgramSession Unit := do
  let (i, t) ← active
  putTrigger i { t with statements := t.statements ++ [statement] }

/-- Appends a movement into the buffer. -/
def addInput (form : TransferForm) : Edit ProgramSession Unit := do
  let _ ← active
  let t ← Edit.ofExcept .notACount form.transfer
  push (.input t)

/-- Appends a movement out of the buffer. -/
def addOutput (form : TransferForm) : Edit ProgramSession Unit := do
  let _ ← active
  let t ← Edit.ofExcept .notACount form.transfer
  push (.output t)

def addIf (form : ConditionForm) : Edit ProgramSession Unit := do
  let _ ← active
  let condition ← Edit.ofExcept .notACount form.text
  push (.branch condition [] [])

/-- Appends a statement that forgets labels, or all of them if the text is blank. -/
def addForget (labels : String) : Edit ProgramSession Unit :=
  push (.forget (TransferForm.filled labels))

def removeStatement (index : Nat) : Edit ProgramSession Statement := do
  let (i, t) ← active
  match t.statements[index]? with
  | none => Edit.fail (.statementNotFound index)
  | some statement =>
    putTrigger i { t with statements := t.statements.eraseIdx index }
    return statement

/-- The list with the items at a position and at the next one exchanged. -/
def swapNext {α : Type} : Nat → List α → List α
  | 0, a :: b :: rest => b :: a :: rest
  | n + 1, a :: rest => a :: swapNext n rest
  | _, l => l

/-- Moves a statement one position up; the first one cannot be moved. -/
def moveUp (index : Nat) : Edit ProgramSession Bool := do
  let (i, t) ← active
  if t.statements.length ≤ index then Edit.fail (.statementNotFound index)
  else
    match index with
    | 0 => return false
    | index + 1 =>
      putTrigger i { t with statements := swapNext index t.statements }
      return true

/-- Moves a statement one position down; the last one cannot be moved. -/
def moveDown (index : Nat) : Edit ProgramSession Bool := do
  let (i, t) ← active
  if t.statements.length ≤ index then Edit.fail (.statementNotFound index)
  else if index + 1 = t.statements.length then return false
  else
    putTrigger i { t with statements := swapNext index t.statements }
    return true

end ProgramSession
end FactoryScript
