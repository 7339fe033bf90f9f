import FactoryScript.Text.Basic

/-!
# Counts typed into text fields

A count field is free text. Blank text leaves the count unset; any other text must be a numeral
below `2 ^ 32`, possibly with a plus sign and leading zeros, and possibly with white space around
it.
-/

namespace FactoryScript

structure NotACount where
  field : String
  value : String
  deriving DecidableEq, Repr

def NotACount.message (e : NotACount) : String :=
  e.field ++ " must be a non-negative integer, got '" ++ e.value ++ "'"

namespace Count

def digitValue (c : Char) : Nat := c.toNat - '0'.toNat

def ofDigits (cs : List Char) : Nat := cs.foldl (fun n c => 10 * n + digitValue c) 0

/-- Reads one or more ASCII digits, leading zeros included. -/
def numeral? (cs : List Char) : Option Nat :=
  if cs ≠ [] ∧ cs.all Char.isDigit = true then some (ofDigits cs) else none

/-- A number as a 32-bit count, if it is small enough. -/
def ofNat? (n : Nat) : Option UInt32 := if n < UInt32.size then some (UInt32.ofNat n) else none

/-- Reads a numeral with at most one plus sign in front. -/
def signed? : List Char → Option UInt32
  | '+' :: cs => (numeral? cs).bind ofNat?
  | cs => (numeral? cs).bind ofNat?

/-- Reads the text of the field called `field`. -/
def read (field text : String) : Except NotACount (Option UInt32) :=
  if Text.blank text then .ok none
  else
    match signed? (Text.trim text).toList with
    | some n => .ok (some n)
    | none => .error ⟨field, text⟩

def text (n : UInt32) : String := n.toNat.repr

end Count
end FactoryScript
