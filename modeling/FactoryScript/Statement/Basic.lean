import FactoryScript.Resource
import FactoryScript.Side

/-!
# Statements

A trigger runs statements in order. Statements move resources between labelled blocks and a
buffer, forget labels, or branch on a condition; a branch owns the statements inside it.
-/

namespace FactoryScript

structure Retention where
  count : UInt32
  /-- The amount counts for each matching resource by itself. -/
  each : Bool
  deriving DecidableEq, Repr

/-- A movement from or to the blocks with one label. -/
structure Transfer where
  quantity : Option UInt32
  retain : Option Retention
  kind : ResourceKind
  /-- The bare identifier; the wildcard matches everything. -/
  resourceId : String
  /-- Resources that stay, written as one text. -/
  except : Option String
  label : String
  /-- Every labelled block is addressed by itself. -/
  each : Bool
  side : Option Side
  /-- The slots to use, written as one text. -/
  slots : Option String
  deriving DecidableEq, Repr

namespace Transfer

def ofLabel (label : String) : Transfer where
  quantity := none
  retain := none
  kind := .item
  resourceId := wildcard
  except := none
  label := label
  each := false
  side := none
  slots := none

def withQuantity (t : Transfer) (n : UInt32) : Transfer := { t with quantity := some n }

def withRetention (t : Transfer) (n : UInt32) (each : Bool) : Transfer :=
  { t with retain := some ⟨n, each⟩ }

def withResource (t : Transfer) (kind : ResourceKind) (id : String) : Transfer :=
  { t with kind := kind, resourceId := id }

def withItem (t : Transfer) (id : String) : Transfer := t.withResource .item id

def withExcept (t : Transfer) (resources : String) : Transfer := { t with except := some resources }

def withEach (t : Transfer) : Transfer := { t with each := true }

def withSide (t : Transfer) (side : Side) : Transfer := { t with side := some side }

def withSlots (t : Transfer) (slots : String) : Transfer := { t with slots := some slots }

end Transfer

inductive Statement
  /-- Takes resources from blocks into the buffer. -/
  | input (t : Transfer)
  /-- Moves resources from the buffer into blocks. -/
  | output (t : Transfer)
  /-- Runs one of two lists of statements. An empty list of alternatives is the same as none. -/
  | branch (condition : String) (thenBranch elseBranch : List Statement)
  /-- Drops remembered labels; without labels, all of them. -/
  | forget (labels : Option String)

namespace Statement

def keyword : Statement → String
  | input _ => "input"
  | output _ => "output"
  | branch .. => "if"
  | forget _ => "forget"

def guardedBy (s : Statement) (condition : String) : Statement := branch condition [s] []

/-- Puts a statement into the alternative of a condition. -/
def alternativeOf (s : Statement) (condition : String) : Statement := branch condition [] [s]

mutual

/-- The number of statements in a statement, itself included. -/
def size : Statement → Nat
  | branch _ thenBranch elseBranch => 1 + sizeAll thenBranch + sizeAll elseBranch
  | _ => 1

/-- The number of statements in a list, those inside branches included. -/
def sizeAll : List Statement → Nat
  | [] => 0
  | s :: rest => s.size + sizeAll rest

end

end Statement
end FactoryScript
