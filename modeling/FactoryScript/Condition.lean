import FactoryScript.Count
import FactoryScript.Named
import FactoryScript.Json.Record

/-!
# Conditions

The condition of an `if` is free text. A `ConditionForm` holds the parts from which the usual ones
are built: `[<set operator> ]<label> has <comparison> <quantity> <resource>`.
-/

namespace FactoryScript

/-- How the inventories behind a label are taken together. -/
inductive SetOperator
  | overall | some | every | each | one | lone
  deriving DecidableEq, Repr

def SetOperator.name : SetOperator → String
  | .overall => "overall" | .some => "some" | .every => "every" | .each => "each" | .one => "one"
  | .lone => "lone"

/-- The keyword in a condition; the total over all inventories has none. -/
def SetOperator.keyword? (op : SetOperator) : Option String :=
  if op = .overall then none else op.name

instance : Named SetOperator where
  all := [.overall, .some, .every, .each, .one, .lone]
  name := SetOperator.name
  mem_all op := by cases op <;> decide
  nodup_names := by decide

inductive Comparison
  | gt | lt | eq | ge | le
  deriving DecidableEq, Repr

def Comparison.name : Comparison → String
  | .gt => "gt" | .lt => "lt" | .eq => "eq" | .ge => "ge" | .le => "le"

def Comparison.symbol : Comparison → String
  | .gt => ">" | .lt => "<" | .eq => "=" | .ge => ">=" | .le => "<="

instance : Named Comparison where
  all := [.gt, .lt, .eq, .ge, .le]
  name := Comparison.name
  mem_all c := by cases c <;> decide
  nodup_names := by decide

structure ConditionForm where
  setOperator : SetOperator
  label : String
  comparison : Comparison
  /-- A numeral, checked when the condition is built. -/
  quantity : String
  resourceId : String
  deriving DecidableEq, Repr

namespace ConditionForm

/-- What a new form holds. -/
def initial : ConditionForm := ⟨.overall, "a", .gt, "0", "iron_ingot"⟩

/-- The quantity, which unlike other counts has to be given. -/
def count (f : ConditionForm) : Except NotACount UInt32 :=
  match Count.read "condition quantity" f.quantity with
  | .ok (some n) => .ok n
  | .ok none => .error ⟨"condition quantity", f.quantity⟩
  | .error e => .error e

def textWith (f : ConditionForm) (n : UInt32) : String :=
  (match f.setOperator.keyword? with | some k => k ++ " " | none => "") ++
    f.label ++ " has " ++ f.comparison.symbol ++ " " ++ Count.text n ++ " " ++ f.resourceId

def text (f : ConditionForm) : Except NotACount String := f.count.map f.textWith

def toJson (f : ConditionForm) : Json :=
  .object [("set_op", .string f.setOperator.name), ("label", .string f.label),
    ("comparison", .string f.comparison.name), ("quantity", .string f.quantity),
    ("resource_id", .string f.resourceId)]

def fields : Fields Json ConditionForm :=
  Fields.done ConditionForm.mk
    |>.optional "set_op" Json.readName .overall
    |>.required "label" Json.readText
    |>.optional "comparison" Json.readName .gt
    |>.required "quantity" Json.readText
    |>.required "resource_id" Json.readText

def read : Reader ConditionForm := Json.readRecord fields

end ConditionForm
end FactoryScript
