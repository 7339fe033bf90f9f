import FactoryScript.Json.Record
import FactoryScript.Statement.Basic

/-!
# Statements in documents

A statement is an object with the member `statement`, which names its kind and may stand anywhere
in it, and the members of that kind. The object is taken as a whole before its members are looked
at, all but the kind, which is read where it stands.
-/

namespace FactoryScript

inductive StatementTag
  | input | output | branch | forget
  deriving DecidableEq, Repr

def StatementTag.name : StatementTag → String
  | .input => "input" | .output => "output" | .branch => "if" | .forget => "forget"

instance : Named StatementTag where
  all := [.input, .output, .branch, .forget]
  name := StatementTag.name
  mem_all t := by cases t <;> decide
  nodup_names := by decide

namespace Retention

def toJson (r : Retention) : Json :=
  .object [("count", .count r.count.toNat), ("each", .bool r.each)]

def fields : Fields Json Retention :=
  Fields.done Retention.mk
    |>.required "count" Json.readCount
    |>.optional "each" Json.readFlag false

def read : Reader Retention := Json.readRecord fields

end Retention

namespace Transfer

def members (t : Transfer) : List (String × Json) :=
  Json.optionalMember "quantity" (fun n => .count n.toNat) t.quantity ++
    Json.optionalMember "retain" Retention.toJson t.retain ++
    [("kind", .string t.kind.name), ("resource_id", .string t.resourceId)] ++
    Json.optionalMember "except" .string t.except ++
    [("label", .string t.label), ("each", .bool t.each)] ++
    Json.optionalMember "side" (fun s => .string s.keyword) t.side ++
    Json.optionalMember "slots" .string t.slots

def fields : Fields Json Transfer :=
  Fields.done Transfer.mk
    |>.optional "quantity" (Json.readOptional Json.readCount) none
    |>.optional "retain" (Json.readOptional Retention.read) none
    |>.optional "kind" Json.takenName .item
    |>.optional "resource_id" Json.readText wildcard
    |>.optional "except" (Json.readOptional Json.readText) none
    |>.required "label" Json.readText
    |>.optional "each" Json.readFlag false
    |>.optional "side" (Json.readOptional Json.takenName) none
    |>.optional "slots" (Json.readOptional Json.readText) none

end Transfer

namespace Statement

/-- A member of a statement: its value, and the statements that the value lists. -/
structure Part where
  value : Json
  statements : Except Fault (List Statement)

def fieldsOf : StatementTag → Fields Part Statement
  | .input => .comap Part.value (Transfer.fields.map input)
  | .output => .comap Part.value (Transfer.fields.map output)
  | .forget =>
    .comap Part.value
      ((Fields.done forget).optional "labels" (Json.readOptional Json.readText) none)
  | .branch =>
    (Fields.done branch)
      |>.required "condition" (fun p => Json.readText p.value)
      |>.optional "then_branch" Part.statements []
      |>.optional "else_branch" Part.statements []

def tagKey : String := "statement"

/-- Reads the members of a statement, one of which has to be the kind. -/
def ofParts (parts : List (String × Part)) : Except Fault Statement :=
  match Json.splitTag tagKey Part.value parts with
  | some (tag, rest) => (fieldsOf tag).ofMembers Json.pass rest
  | none => .error .mismatch

/-- Reads a statement whose kind and members are given by position. -/
def ofPositions : List Part → Except Fault Statement
  | [] => .error .mismatch
  | tag :: parts =>
    match (tag.value.tag? : Option StatementTag) with
    | some tag =>
      match (fieldsOf tag).ofItems parts with
      | .ok (s, []) => .ok s
      | _ => .error .mismatch
    | none => .error .mismatch

mutual

/-- The statement of a value that has been taken as a whole. -/
def ofJson : Json → Except Fault Statement
  | .object members => ofParts (memberParts members)
  | .array items => ofPositions (itemParts items)
  | _ => .error .mismatch

/-- The list of statements of a value that has been taken as a whole. -/
def listOfJson : Json → Except Fault (List Statement)
  | .array items => ofJsonAll items
  | _ => .error .mismatch

def ofJsonAll : List Json → Except Fault (List Statement)
  | [] => .ok []
  | v :: rest =>
    match ofJson v, ofJsonAll rest with
    | .ok s, .ok statements => .ok (s :: statements)
    | _, _ => .error .mismatch

def memberParts : List (String × Json) → List (String × Part)
  | [] => []
  | (key, v) :: rest => (key, ⟨v, listOfJson v⟩) :: memberParts rest

def itemParts : List Json → List Part
  | [] => []
  | v :: rest => ⟨v, listOfJson v⟩ :: itemParts rest

end

/-- Reads the kind where it stands: here it has to be a name. -/
def readTag (v : Json) : Except Fault Unit :=
  match v with
  | .string s => match (Named.ofName? s : Option StatementTag) with
    | some _ => .ok ()
    | none => .error .mismatch
  | v => Json.unexpected v

/-- Takes the members of a statement one after the other. -/
def takeMembers (room : Nat) : Bool → List (String × Json) → Except Fault Unit
  | _, [] => .ok ()
  | tagged, (key, v) :: rest =>
    if key = tagKey then
      if tagged then .error .mismatch
      else (readTag v).bind fun _ => takeMembers room true rest
    else (v.take room).bind fun _ => takeMembers room tagged rest

/-- Takes the items of a statement whose kind comes first. -/
def takeItems (room : Nat) : List Json → Except Fault Unit
  | [] => .error .mismatch
  | tag :: rest => (readTag tag).bind fun _ => rest.forM (Json.take room)

/-- Reads a statement where `room` more containers may be nested. -/
def read (room : Nat) : Reader Statement
  | .object members =>
    if room = 0 then .error .malformed
    else (takeMembers (room - 1) false members).bind fun _ => Json.settle (ofJson (.object members))
  | .array items =>
    if room = 0 then .error .malformed
    else (takeItems (room - 1) items).bind fun _ => Json.settle (ofJson (.array items))
  | v => Json.unexpected v

mutual

def toJson : Statement → Json
  | input t => .object ((tagKey, .string "input") :: t.members)
  | output t => .object ((tagKey, .string "output") :: t.members)
  | forget labels =>
    .object ((tagKey, .string "forget") :: Json.optionalMember "labels" .string labels)
  | branch condition thenBranch elseBranch =>
    .object ([(tagKey, .string "if"), ("condition", .string condition),
        ("then_branch", .array (toJsonAll thenBranch))] ++
      if elseBranch.isEmpty then [] else [("else_branch", .array (toJsonAll elseBranch))])

def toJsonAll : List Statement → List Json
  | [] => []
  | s :: rest => s.toJson :: toJsonAll rest

end

end Statement
end FactoryScript
