import FactoryScript.Named
import FactoryScript.Text.Basic

/-!
# Sides of a block

A statement may name one of ten sides. The nodes of a graph and the rows of a wizard know only the
six sides that do not depend on where a block faces, and `SideFilter.any` stands for all of them.
-/

namespace FactoryScript

inductive Side
  | top | bottom | north | south | east | west | left | right | front | back
  deriving DecidableEq, Repr

def Side.keyword : Side → String
  | top => "top" | bottom => "bottom" | north => "north" | south => "south" | east => "east"
  | west => "west" | left => "left" | right => "right" | front => "front" | back => "back"

instance : Named Side where
  all := [.top, .bottom, .north, .south, .east, .west, .left, .right, .front, .back]
  name := Side.keyword
  mem_all s := by cases s <;> decide
  nodup_names := by decide

/-- The side of a node or a wizard row: one fixed face, or any. -/
inductive SideFilter
  | any | top | bottom | north | south | east | west
  deriving DecidableEq, Repr

namespace SideFilter

/-- The addressed side; a filter that admits any side addresses none. -/
def side? : SideFilter → Option Side
  | any => none
  | top => some .top
  | bottom => some .bottom
  | north => some .north
  | south => some .south
  | east => some .east
  | west => some .west

def keyword? (s : SideFilter) : Option String := s.side?.map Side.keyword

def name (s : SideFilter) : String := s.keyword?.getD "any"

end SideFilter

instance : Named SideFilter where
  all := [.any, .top, .bottom, .north, .south, .east, .west]
  name := SideFilter.name
  mem_all s := by cases s <;> decide
  nodup_names := by decide

/-- Reads a side as typed: case and surrounding white space do not matter, blank means any. -/
def SideFilter.parse (s : String) : Except String SideFilter :=
  let key := (Text.trim s).toLower
  if key = "" then .ok .any
  else
    match Named.ofName? key with
    | some side => .ok side
    | none => .error ("unknown side: " ++ key)

end FactoryScript
