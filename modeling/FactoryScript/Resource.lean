import FactoryScript.Named
import FactoryScript.Text.Basic

/-!
# Resources

A script names a resource by one token: the marker of its kind followed by the bare identifier.
A blank identifier stands for every resource of the kind; for items that token is the wildcard,
for the other kinds it is the marker alone.
-/

namespace FactoryScript

/-- What can be moved. -/
inductive ResourceKind
  | item | fluid | energy | gas
  deriving DecidableEq, Repr

/-- The token that matches every item. -/
def wildcard : String := "*"

namespace ResourceKind

def name : ResourceKind → String
  | item => "item" | fluid => "fluid" | energy => "energy" | gas => "gas"

/-- What a token of this kind starts with. -/
def marker : ResourceKind → String
  | item => "" | fluid => "fluid::" | energy => "fe::" | gas => "gas::"

end ResourceKind

instance : Named ResourceKind where
  all := [.item, .fluid, .energy, .gas]
  name := ResourceKind.name
  mem_all k := by cases k <;> decide
  nodup_names := by decide

/-- The kind that a lower-case word names; energy has a short name too. -/
def ResourceKind.ofWord? (word : String) : Option ResourceKind :=
  if word = "fe" then some .energy else Named.ofName? word

/-- Reads a kind as typed: case and surrounding white space do not matter. -/
def ResourceKind.parse (s : String) : Except String ResourceKind :=
  let word := (Text.trim s).toLower
  match ofWord? word with
  | some kind => .ok kind
  | none => .error ("unknown resource kind: " ++ word)

namespace Resource

def token (kind : ResourceKind) (id : String) : String :=
  if Text.blank id then
    match kind with
    | .item => wildcard
    | kind => kind.marker
  else kind.marker ++ id

/-- The token of a resource for the dialects that write no token at all for a blank item. -/
def filter (kind : ResourceKind) (id : String) : Option String :=
  if kind = .item ∧ Text.blank id = true then none else some (token kind id)

end Resource
end FactoryScript
