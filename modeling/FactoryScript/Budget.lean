import FactoryScript.Note

/-!
# The size budget

A device takes programs up to a number of characters. The budget only warns: from nine tenths of
the maximum on, a measurement is marked. The two sides of that test are products of 64-bit words,
and if one of them is no word there is no measurement. A session keeps the script of its model, and
how large it is; replacing the script warns when its size comes close to the budget, once for each
time that it does.
-/

namespace FactoryScript

structure BudgetStatus where
  /-- The number of characters, that is, of Unicode scalar values. -/
  count : Nat
  max : UInt64
  /-- Set above nine tenths of the maximum. -/
  warning : Bool
  deriving DecidableEq, Repr

namespace BudgetStatus

def text (s : BudgetStatus) : String := s.count.repr ++ " / " ++ s.max.toNat.repr

def isOver (s : BudgetStatus) : Bool := s.max.toNat < s.count

end BudgetStatus

/-- A product that is no 64-bit word. -/
structure Overflow where
  factor : Nat
  times : Nat
  deriving DecidableEq, Repr

/-- The product of two numbers as a word. -/
def wordProduct (n k : Nat) : Except Overflow UInt64 :=
  if n * k < UInt64.size then .ok (.ofNat (n * k)) else .error ⟨n, k⟩

/-- The largest number of characters that a program should have. -/
structure Budget where
  max : UInt64
  deriving DecidableEq, Repr

namespace Budget

def device : Budget := ⟨32300⟩

/-- Measures a script, with the test carried out on words. -/
def measure (b : Budget) (code : String) : Except Overflow BudgetStatus := do
  let used ← wordProduct code.length 10
  let allowed ← wordProduct b.max.toNat 9
  return ⟨code.length, b.max, allowed < used⟩

/-- The status of a script. For the budget of the device this is what a measurement gives of every
script that a memory can hold (`measure_device`). -/
def status (b : Budget) (code : String) : BudgetStatus :=
  ⟨code.length, b.max, 9 * b.max.toNat < 10 * code.length⟩

end Budget

/-- The script of a session. -/
structure Generated where
  code : String
  status : BudgetStatus
  deriving DecidableEq, Repr

namespace Generated

def empty : Generated := ⟨"", Budget.device.status ""⟩

def ofCode (code : String) : Generated := ⟨code, Budget.device.status code⟩

/-- The warning about a script of a kind. -/
def warning (kind : String) (status : BudgetStatus) : Note :=
  ⟨.warn, "Generated " ++ kind ++ " code is close to the size budget (" ++ status.text ++ ")"⟩

/-- What replacing a script by another one tells. -/
def notes (old new : Generated) (kind : String) : List Note :=
  if new.status.warning && !old.status.warning then [warning kind new.status] else []

end Generated
end FactoryScript
