import FactoryScript.Resource
import FactoryScript.Side
import FactoryScript.Json.Record

/-!
# Endpoints

The nodes of a graph and the rows of a wizard say the same about one end of a movement: where it is,
what is moved, and how much of it.
-/

namespace FactoryScript

structure Endpoint where
  label : String
  side : SideFilter
  kind : ResourceKind
  /-- The bare identifier; blank for anything of the kind. -/
  resourceId : String
  /-- Free text, written as it is when it is not blank. -/
  quantity : String
  deriving DecidableEq, Repr

namespace Endpoint

/-- Anything, from or to any side of the blocks with a label. -/
def ofLabel (label : String) : Endpoint := ⟨label, .any, .item, "", ""⟩

def withSide (e : Endpoint) (side : SideFilter) : Endpoint := { e with side := side }

def withResource (e : Endpoint) (kind : ResourceKind) (id : String) : Endpoint :=
  { e with kind := kind, resourceId := id }

def withQuantity (e : Endpoint) (quantity : String) : Endpoint := { e with quantity := quantity }

/-- The word for the resource; none for any item. -/
def resourceWord? (e : Endpoint) : Option String := Resource.filter e.kind e.resourceId

/-- The word for the amount; none if it is blank. -/
def quantityWord? (e : Endpoint) : Option String := Text.nonBlank? (Text.trim e.quantity)

def members (e : Endpoint) : List (String × Json) :=
  [("label", .string e.label), ("side", .string e.side.name), ("kind", .string e.kind.name),
    ("resource_id", .string e.resourceId), ("quantity", .string e.quantity)]

/-- Adds the fields of an endpoint to a record that is made from one. -/
def addFields {α : Type} (rest : Fields Json (Endpoint → α)) : Fields Json α :=
  rest.map (fun make label side kind resourceId quantity =>
      make ⟨label, side, kind, resourceId, quantity⟩)
    |>.required "label" Json.readText
    |>.optional "side" Json.readName .any
    |>.optional "kind" Json.readName .item
    |>.optional "resource_id" Json.readText ""
    |>.optional "quantity" Json.readText ""

end Endpoint
end FactoryScript
