/-!
# JSON values and what can be wrong with them

Documents are JSON. A value keeps its members in order and its numbers as written. A text that is
no JSON is read as well as possible: a `Json.flaw` stands where the reading met an error, so that a
decoder, which walks a document in the order of the text, meets either its own objection or the
flaw first, and reports that one.
-/

namespace FactoryScript

inductive Fault
  /-- The text is no JSON, or nests too deeply. -/
  | malformed
  /-- The text ends too early. -/
  | truncated
  /-- The text is JSON and no document of the expected kind. -/
  | mismatch
  /-- The document has the right form and its contents are refused. -/
  | refused (reason : String)
  deriving DecidableEq, Repr

/-- An error in a text. What it amounts to depends on what is wanted at its place: someone who
skips a value looks at it less closely than someone who reads it. -/
structure Flaw where
  /-- For a reader that takes a value of any kind. -/
  value : Fault
  /-- For a reader that expects a name from an enumeration. -/
  name : Fault
  /-- For a reader that skips the value; nothing if it can be skipped. -/
  skip : Option Fault
  /-- For a reader that expects the end of the enclosing array. -/
  surplus : Fault
  /-- The error stands where a member of an object should be: it concerns whoever reads the object,
  and no key goes with it. -/
  inMember : Bool
  deriving DecidableEq, Repr

namespace Flaw

def all (f : Fault) : Flaw := ⟨f, f, some f, .malformed, false⟩

/-- A character that cannot stand here. -/
def misplaced : Flaw := all .malformed

/-- The text ends where a value, a key or a colon has to follow. -/
def cut : Flaw := all .truncated

/-- The text ends where an array or an object could have been closed. -/
def unclosed : Flaw := { cut with surplus := .truncated }

/-- The text ends inside `null`, `true` or `false`. -/
def cutWord : Flaw := { cut with name := .malformed }

/-- The text ends inside a number. -/
def cutNumber : Flaw := { cutWord with skip := some .malformed }

/-- A complete value that can be skipped and not read: a string with a lone surrogate, or a number
beyond the range of floating point. -/
def unreadable : Flaw := { misplaced with skip := none }

/-- The text ends inside a string that has a lone surrogate. -/
def cutUnreadable : Flaw := { misplaced with skip := some .truncated }

def asMember (f : Flaw) : Flaw := { f with inMember := true }

end Flaw

/-- A JSON value, perhaps with flaws. -/
inductive Json
  | null
  | bool (b : Bool)
  | number (numeral : String)
  | string (s : String)
  | array (items : List Json)
  | object (members : List (String × Json))
  | flaw (f : Flaw)

namespace Json

def count (n : Nat) : Json := .number n.repr

mutual

def depth : Json → Nat
  | .array items => depthItems items + 1
  | .object members => depthMembers members + 1
  | _ => 0

def depthItems : List Json → Nat
  | [] => 0
  | v :: rest => max v.depth (depthItems rest)

def depthMembers : List (String × Json) → Nat
  | [] => 0
  | (_, v) :: rest => max v.depth (depthMembers rest)

end

end Json
end FactoryScript
