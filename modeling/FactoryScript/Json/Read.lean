import FactoryScript.Count
import FactoryScript.Named
import FactoryScript.Json.Scan

/-!
# Reading values

A reader takes a JSON value to a value of the domain, or reports the first fault it meets in the
order of the text. The readers here are those of single values and of lists; records are in
`Json.Record`.
-/

namespace FactoryScript

abbrev Reader (α : Type) := Json → Except Fault α

namespace Json

/-- A document may nest so many arrays and objects. -/
def maxDepth : Nat := 127

mutual

/-- The first fault of a value that is taken as it is, whatever its kind, where `room` more
containers may be nested. -/
def firstFault (room : Nat) : Json → Option Fault
  | .flaw f => some f.value
  | .array items => if room = 0 then some .malformed else firstFaultItems (room - 1) items
  | .object members => if room = 0 then some .malformed else firstFaultMembers (room - 1) members
  | _ => none

def firstFaultItems (room : Nat) : List Json → Option Fault
  | [] => none
  | v :: rest => firstFault room v <|> firstFaultItems room rest

def firstFaultMembers (room : Nat) : List (String × Json) → Option Fault
  | [] => none
  | (_, v) :: rest => firstFault room v <|> firstFaultMembers room rest

end

mutual

/-- The first fault that hinders skipping a value. -/
def skipFault : Json → Option Fault
  | .flaw f => f.skip
  | .array items => skipFaultItems items
  | .object members => skipFaultMembers members
  | _ => none

def skipFaultItems : List Json → Option Fault
  | [] => none
  | v :: rest => skipFault v <|> skipFaultItems rest

def skipFaultMembers : List (String × Json) → Option Fault
  | [] => none
  | (_, v) :: rest => skipFault v <|> skipFaultMembers rest

end

private def guarded : Option Fault → Except Fault Unit
  | none => .ok ()
  | some f => .error f

def take (room : Nat) (v : Json) : Except Fault Unit := guarded (v.firstFault room)

def skip (v : Json) : Except Fault Unit := guarded v.skipFault

/-- Skips the value of a key that nobody knows. -/
def skipMember : Json → Except Fault Unit
  | .flaw f => guarded (if f.inMember then some f.value else f.skip)
  | v => v.skip

def unexpected {α : Type} : Reader α
  | .flaw f => .error f.value
  | _ => .error .mismatch

def readText : Reader String
  | .string s => .ok s
  | v => unexpected v

def readFlag : Reader Bool
  | .bool b => .ok b
  | v => unexpected v

/-- The number as a count: digits alone, and below `2 ^ 32`. -/
def count? (numeral : String) : Option UInt32 := (Count.numeral? numeral.toList).bind Count.ofNat?

def readCount : Reader UInt32
  | .number numeral => match count? numeral with
    | some n => .ok n
    | none => .error .mismatch
  | v => unexpected v

/-- An interval: a count, with 0 raised to 1. -/
def readInterval (v : Json) : Except Fault UInt32 := (readCount v).map (max 1)

def readOptional {α : Type} (read : Reader α) : Reader (Option α)
  | .null => .ok none
  | v => (read v).map some

def named {α : Type} [Named α] (s : String) : Except Fault α :=
  match Named.ofName? s with
  | some a => .ok a
  | none => .error .mismatch

/-- Nothing may follow the only member of an object. -/
def endMembers : List (String × Json) → Except Fault Unit
  | [] => .ok ()
  | (_, .flaw f) :: _ => .error f.surplus
  | _ => .error .malformed

/-- A name from an enumeration, which may also be written as the only key of an object, with the
value `null`. The key is checked before its value is looked at. -/
def readName {α : Type} [Named α] : Reader α
  | .string s => named s
  | .object ((s, .flaw f) :: _) =>
    if f.inMember then .error f.value else (named s : Except Fault α).bind fun _ => .error f.value
  | .object ((s, .null) :: rest) => (named s).bind fun a => (endMembers rest).map fun _ => a
  | .object (_ :: _) => .error .mismatch
  | .flaw f => .error f.name
  | _ => .error .malformed

def readList {α : Type} (read : Reader α) : Reader (List α)
  | .array items => items.mapM read
  | v => unexpected v

/-- The fault of an item after the last one that is wanted. -/
def surplusFault : Json → Fault
  | .flaw f => f.surplus
  | _ => .malformed

end Json

namespace Reader

/-- Reads a document from its text: a value, and nothing after it but white space. -/
def ofText {α : Type} (read : Reader α) (text : String) : Except Fault α :=
  let scanned := Json.scan text
  match read scanned.value with
  | .error f => .error f
  | .ok a => if scanned.ends then .ok a else .error .malformed

/-- Reads a document that is given as a value: there is no text whose form could be at fault. -/
def ofValue {α : Type} (read : Reader α) (v : Json) : Except Fault α :=
  match read v with
  | .ok a => .ok a
  | .error (.refused reason) => .error (.refused reason)
  | .error _ => .error .mismatch

end Reader
end FactoryScript
