/-!
# JSON strings

The inside of a JSON string as a machine that takes one character at a time. Escapes of surrogates
have to come in pairs. A lone one leaves a string that can be skipped and not read, and the machine
goes on.
-/

namespace FactoryScript.Json

inductive Escape
  | none
  | started
  /-- In a code unit, with this many digits to come, perhaps after a high surrogate. -/
  | unit (left code : Nat) (high : Option Nat)
  /-- After a high surrogate, which another escape must follow. -/
  | paired (high : Nat)
  /-- After the backslash that follows a high surrogate. -/
  | pairedStarted (high : Nat)
  /-- After a character that is no digit of a code unit. The escape is malformed if the text has
  this many more bytes, and cut off if it does not. -/
  | spoilt (bytes : Nat)
  deriving DecidableEq, Repr

structure Quoted where
  /-- The characters read, last one first. -/
  done : List Char
  /-- A lone surrogate has been met. -/
  lone : Bool
  escape : Escape
  deriving DecidableEq, Repr

namespace Quoted

def start : Quoted := ⟨[], false, .none⟩

inductive Step
  | more (q : Quoted)
  | closed (q : Quoted)
  | broken
  deriving DecidableEq, Repr

def push (q : Quoted) (c : Char) : Quoted := { q with done := c :: q.done, escape := .none }

def markLone (q : Quoted) : Quoted := { q with lone := true, escape := .none }

def text (q : Quoted) : String := String.ofList q.done.reverse

def hexValue? (c : Char) : Option Nat :=
  if c.isDigit then some (c.toNat - '0'.toNat)
  else if 'a' ≤ c ∧ c ≤ 'f' then some (c.toNat - 'a'.toNat + 10)
  else if 'A' ≤ c ∧ c ≤ 'F' then some (c.toNat - 'A'.toNat + 10)
  else none

/-- The character that a backslash and one more character stand for. -/
def escaped? (c : Char) : Option Char :=
  if c = '"' ∨ c = '\\' ∨ c = '/' then some c
  else if c = 'b' then some '\x08'
  else if c = 'f' then some '\x0c'
  else if c = 'n' then some '\x0a'
  else if c = 'r' then some '\x0d'
  else if c = 't' then some '\x09'
  else none

def isHigh (code : Nat) : Bool := 0xD800 ≤ code && code ≤ 0xDBFF

def isLow (code : Nat) : Bool := 0xDC00 ≤ code && code ≤ 0xDFFF

def unit (q : Quoted) (code : Nat) : Option Nat → Quoted
  | none =>
    if isHigh code then { q with escape := .paired code }
    else if isLow code then q.markLone
    else q.push (Char.ofNat code)
  | some high =>
    if isLow code then q.push (Char.ofNat (0x10000 + (high - 0xD800) * 0x400 + (code - 0xDC00)))
    else q.markLone

/-- A character outside an escape. -/
def plain (q : Quoted) (c : Char) : Step :=
  if c = '"' then .closed q
  else if c = '\\' then .more { q with escape := .started }
  else if c.toNat < 0x20 then .broken
  else .more (q.push c)

def escaped (q : Quoted) (c : Char) : Step :=
  if c = 'u' then .more { q with escape := .unit 4 0 none }
  else
    match escaped? c with
    | some d => .more (q.push d)
    | none => .broken

/-- A character in a malformed code unit that wants so many more bytes. -/
def spoil (q : Quoted) (bytes : Nat) (c : Char) : Step :=
  if bytes ≤ c.utf8Size then .broken else .more { q with escape := .spoilt (bytes - c.utf8Size) }

def step (q : Quoted) (c : Char) : Step :=
  match q.escape with
  | .none => q.plain c
  | .started => q.escaped c
  | .unit left code high =>
    match hexValue? c with
    | none => q.spoil left c
    | some d =>
      if left ≤ 1 then .more (q.unit (16 * code + d) high)
      else .more { q with escape := .unit (left - 1) (16 * code + d) high }
  | .paired high =>
    if c = '\\' then .more { q with escape := .pairedStarted high } else q.markLone.plain c
  | .pairedStarted high =>
    if c = 'u' then .more { q with escape := .unit 4 0 (some high) } else q.markLone.escaped c
  | .spoilt bytes => q.spoil bytes c

end Quoted
end FactoryScript.Json
