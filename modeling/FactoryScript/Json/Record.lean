import FactoryScript.Json.Read

/-!
# Reading records

`Fields V α` describes a record of type `α` whose fields are read from values of type `V`. One
description serves both written forms: an object, whose members come in any order and may include
unknown ones, and an array, which gives the fields by position. Either form is read along the text.
-/

namespace FactoryScript

/-- The fields of a record. A field has a key, a reader, perhaps a default, and, while a record is
being read, perhaps a value. -/
inductive Fields (V : Type) : Type → Type 1
  | done {α : Type} (a : α) : Fields V α
  /-- One field after all others. -/
  | field {α β : Type} (rest : Fields V (β → α)) (key : String) (read : V → Except Fault β)
      (fallback got : Option β) : Fields V α

namespace Fields
variable {V W : Type}

/-- Adds a field that has to be given. -/
def required {α β : Type} (rest : Fields V (β → α)) (key : String)
    (read : V → Except Fault β) : Fields V α :=
  .field rest key read none none

/-- Adds a field with a default. -/
def optional {α β : Type} (rest : Fields V (β → α)) (key : String)
    (read : V → Except Fault β) (fallback : β) : Fields V α :=
  .field rest key read (some fallback) none

/-- The same record, read from other values. -/
def comap (g : W → V) {α : Type} : Fields V α → Fields W α
  | .done a => .done a
  | .field rest key read fallback got =>
    .field (rest.comap g) key (fun w => read (g w)) fallback got

def map {α β : Type} (g : α → β) : Fields V α → Fields V β
  | .done a => .done (g a)
  | .field rest key read fallback got => .field (rest.map fun f b => g (f b)) key read fallback got

/-- The keys, in the order of the fields. -/
def keys {α : Type} : Fields V α → List String
  | .done _ => []
  | .field rest key .. => rest.keys ++ [key]

/-- Reads one member; `none` if no field has its key. A second value for a field is refused before
it is looked at. -/
def put {α : Type} (key : String) (v : V) : Fields V α → Option (Except Fault (Fields V α))
  | .done _ => none
  | .field rest k read fallback got =>
    if key = k then
      some <| match got with
        | some _ => .error .mismatch
        | none => (read v).map fun b => .field rest k read fallback (some b)
    else (rest.put key v).map fun r => r.map fun rest => .field rest k read fallback got

def finish {α : Type} : Fields V α → Except Fault α
  | .done a => .ok a
  | .field rest _ _ fallback got =>
    match rest.finish, got <|> fallback with
    | .ok f, some b => .ok (f b)
    | .error e, _ => .error e
    | .ok _, none => .error .mismatch

/-- Reads one member of an object; `other` takes the values of unknown keys. -/
def putMember {α : Type} (other : V → Except Fault Unit) (f : Fields V α) (member : String × V) :
    Except Fault (Fields V α) :=
  match f.put member.1 member.2 with
  | some r => r
  | none => (other member.2).map fun _ => f

def ofMembers {α : Type} (other : V → Except Fault Unit) (f : Fields V α)
    (members : List (String × V)) : Except Fault α :=
  (members.foldlM (putMember other) f).bind finish

/-- Reads the items of an array, and gives those that are left over. -/
def ofItems {α : Type} : Fields V α → List V → Except Fault (α × List V)
  | .done a, items => .ok (a, items)
  | .field rest _ read fallback _, items =>
    match rest.ofItems items with
    | .error e => .error e
    | .ok (f, v :: items) => (read v).map fun b => (f b, items)
    | .ok (f, []) =>
      match fallback with
      | some b => .ok (f b, [])
      | none => .error .mismatch

end Fields

/-- Reads a record along the text. -/
def Json.readRecord {α : Type} (f : Fields Json α) : Reader α
  | .object members => f.ofMembers Json.skipMember members
  | .array items =>
    match f.ofItems items with
    | .error e => .error e
    | .ok (a, []) => .ok a
    | .ok (_, v :: _) => .error v.surplusFault
  | v => Json.unexpected v

/-! ## Tagged objects

Some objects have a member, the tag, that says which other members to expect. Since the tag may
stand anywhere, such an object is first taken as a whole (`Json.take`), without regard to what its
members mean; after that nothing in it is malformed, and all that can be wrong with it is its kind.
-/

namespace Json

/-- The tag as a value of an enumeration: its name, or its position among the names. -/
def tag? {α : Type} [Named α] : Json → Option α
  | .string s => Named.ofName? s
  | .number numeral => (Count.numeral? numeral.toList).bind Named.ofIndex?
  | _ => none

/-- The tag of an object, which exactly one member has to give, and the other members. -/
def splitTag {α V : Type} [Named α] (key : String) (value : V → Json)
    (members : List (String × V)) : Option (α × List (String × V)) :=
  match members.filter fun m => m.1 == key with
  | [(_, v)] => (value v).tag?.map fun a => (a, members.filter fun m => m.1 != key)
  | _ => none

/-- A name from an enumeration in an object that has been taken as a whole. There an empty object is
as good as a `null` beside a name that is written as a key. -/
def takenName {α : Type} [Named α] : Reader α
  | .string s | .object [(s, .null)] | .object [(s, .object [])] => named s
  | _ => .error .mismatch

/-- The reading of an object that has been taken as a whole: it fails for one reason only. -/
def settle {α : Type} : Except Fault α → Except Fault α
  | .ok a => .ok a
  | .error _ => .error .mismatch

/-- Unknown members of an object that has been taken as a whole need no second look. -/
def pass {V : Type} (_ : V) : Except Fault Unit := .ok ()

/-- A member that is left out when it has no value. -/
def optionalMember {α : Type} (key : String) (write : α → Json) (a : Option α) :
    List (String × Json) :=
  (a.map fun a => (key, write a)).toList

end Json
end FactoryScript
