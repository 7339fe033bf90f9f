import FactoryScript.Json.Basic
import FactoryScript.Json.Numeral
import FactoryScript.Json.Quoted

/-!
# Reading JSON text

`Json.scan` reads a text from its first character to its last, as a machine with a stack of open
containers. It never fails: where the text is no JSON the value gets a flaw, the containers open at
that place are closed around it, and the rest of the text is left unread.
-/

namespace FactoryScript.Json

inductive Frame
  /-- An array and its items, last one first. -/
  | items (done : List Json)
  /-- An object between two members. -/
  | members (done : List (String × Json))
  /-- An object that waits for the value of a key. -/
  | member (done : List (String × Json)) (key : String)

/-- What the text goes on with. -/
inductive Mode
  | value
  /-- A value, or the end of an array that has no items yet. -/
  | firstItem
  | key
  /-- A key, or the end of an object that has no members yet. -/
  | firstKey
  | colon
  | next
  /-- The rest of a string, which is a key or a value. -/
  | text (isKey : Bool) (q : Quoted)
  | word (rest : List Char) (v : Json)
  | number (done : List Char) (phase : Numeral.Phase)

inductive Progress
  | reading (frames : List Frame) (mode : Mode)
  | finished (v : Json)
  /-- The value is complete, and something other than white space follows it. -/
  | trailing (v : Json)
  /-- The rest of the text cannot be read. -/
  | stopped (v : Json)

namespace Progress

/-- Closes the open containers around a last value. -/
def close (v : Json) : List Frame → Json
  | [] => v
  | .items done :: frames => close (.array (v :: done).reverse) frames
  | .members done :: frames => close (.object (("", v) :: done).reverse) frames
  | .member done key :: frames => close (.object ((key, v) :: done).reverse) frames

/-- The value of a text that is read up to an error. -/
def broken (f : Flaw) (frames : List Frame) : Json :=
  match frames with
  | .members _ :: _ => close (.flaw f.asMember) frames
  | _ => close (.flaw f) frames

def stop (f : Flaw) (frames : List Frame) : Progress := .stopped (broken f frames)

def emit (v : Json) : List Frame → Progress
  | [] => .finished v
  | .items done :: frames => .reading (.items (v :: done) :: frames) .next
  | .members done :: frames => .reading (.members (("", v) :: done) :: frames) .next
  | .member done key :: frames => .reading (.members ((key, v) :: done) :: frames) .next

def numberValue (done : List Char) : Json :=
  let numeral := done.reverse
  if Numeral.exceedsRange numeral then .flaw .unreadable else .number (String.ofList numeral)

def textValue (q : Quoted) : Json := if q.lone then .flaw .unreadable else .string q.text

/-- The white space of JSON. -/
def isSpace (c : Char) : Bool := c = ' ' || c = '\n' || c = '\t' || c = '\r'

def openValue (frames : List Frame) (c : Char) : Progress :=
  if c = '"' then .reading frames (.text false .start)
  else if c = '[' then .reading (.items [] :: frames) .firstItem
  else if c = '\x7b' then .reading (.members [] :: frames) .firstKey
  else if c = 'n' then .reading frames (.word ['u', 'l', 'l'] .null)
  else if c = 't' then .reading frames (.word ['r', 'u', 'e'] (.bool true))
  else if c = 'f' then .reading frames (.word ['a', 'l', 's', 'e'] (.bool false))
  else
    match Numeral.Phase.start? c with
    | some phase => .reading frames (.number [c] phase)
    | none => stop .misplaced frames

def openKey (frames : List Frame) (c : Char) : Progress :=
  if c = '"' then .reading frames (.text true .start) else stop .misplaced frames

def afterValue (frames : List Frame) (c : Char) : Progress :=
  match frames with
  | .items done :: outer =>
    if c = ',' then .reading frames .value
    else if c = ']' then emit (.array done.reverse) outer
    else stop .misplaced frames
  | .members done :: outer =>
    if c = ',' then .reading frames .key
    else if c = '\x7d' then emit (.object done.reverse) outer
    else stop .misplaced frames
  | _ => stop .misplaced frames

/-- A key is complete. In place of a key with a lone surrogate stands a flaw, and what follows it
is read on for those who only skip it. -/
def closeKey (frames : List Frame) (q : Quoted) : Progress :=
  match frames with
  | .members done :: outer =>
    if q.lone then
      .reading (.member (("", .flaw Flaw.unreadable.asMember) :: done) "" :: outer) .colon
    else .reading (.member done q.text :: outer) .colon
  | _ => stop .misplaced frames

/-- A character after a complete value, or the first one that is no part of it. -/
def settled (p : Progress) (c : Char) : Progress :=
  match p with
  | .reading frames .next =>
    if isSpace c then p else afterValue frames c
  | .finished v => if isSpace c then p else .trailing v
  | _ => p

def step (p : Progress) (c : Char) : Progress :=
  match p with
  | .reading frames .value => if isSpace c then p else openValue frames c
  | .reading frames .firstItem =>
    if isSpace c then p
    else if c = ']' then
      match frames with
      | .items done :: outer => emit (.array done.reverse) outer
      | _ => stop .misplaced frames
    else openValue frames c
  | .reading frames .key => if isSpace c then p else openKey frames c
  | .reading frames .firstKey =>
    if isSpace c then p
    else if c = '\x7d' then
      match frames with
      | .members done :: outer => emit (.object done.reverse) outer
      | _ => stop .misplaced frames
    else openKey frames c
  | .reading frames .colon =>
    if isSpace c then p
    else if c = ':' then .reading frames .value
    else stop .misplaced frames
  | .reading frames (.text isKey q) =>
    match q.step c with
    | .more q => .reading frames (.text isKey q)
    | .closed q => if isKey then closeKey frames q else emit (textValue q) frames
    | .broken => stop .misplaced frames
  | .reading frames (.word rest v) =>
    match rest with
    | [] => stop .misplaced frames
    | d :: rest =>
      if c = d then if rest.isEmpty then emit v frames else .reading frames (.word rest v)
      else stop .misplaced frames
  | .reading frames (.number done phase) =>
    match phase.next? c with
    | some phase => .reading frames (.number (c :: done) phase)
    | none =>
      if phase.complete && !(phase == .zero && c.isDigit) then
        settled (emit (numberValue done) frames) c
      else stop .misplaced frames
  | p => settled p c

end Progress

/-- What a text holds: a value, and whether the text ends with it. -/
structure Scanned where
  value : Json
  ends : Bool

namespace Progress

/-- The flaw of a text that ends in this mode. -/
def flawAtEnd : Mode → Flaw
  | .firstItem | .next => .unclosed
  | .text _ q => if q.lone then .cutUnreadable else .cut
  | .word .. => .cutWord
  | .number .. => .cutNumber
  | _ => .cut

private def valueAtEnd : Progress → Json
  | .reading frames mode => broken (flawAtEnd mode) frames
  | .finished v | .trailing v | .stopped v => v

def finish : Progress → Scanned
  | .trailing v => ⟨v, false⟩
  | .reading frames (.number done phase) =>
    if phase.complete then ⟨valueAtEnd (emit (numberValue done) frames), true⟩
    else ⟨broken .cutNumber frames, true⟩
  | p => ⟨valueAtEnd p, true⟩

def start : Progress := .reading [] .value

end Progress

def scan (text : String) : Scanned := (text.toList.foldl Progress.step Progress.start).finish

end FactoryScript.Json
