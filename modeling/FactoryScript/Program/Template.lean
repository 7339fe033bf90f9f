import FactoryScript.Program.Basic

/-!
# Templates

Programs to start from.
-/

namespace FactoryScript

inductive Template
  /-- Moves everything from `a` to `b`. -/
  | simpleMove
  /-- Feeds ore into a furnace and collects what comes out. -/
  | smelting
  /-- Sorts ingots into one storage for each metal. -/
  | sorting
  /-- Moves water between two tanks. -/
  | fluid
  deriving DecidableEq, Repr

namespace Template

def name : Template → String
  | simpleMove => "simple_move"
  | smelting => "smelting"
  | sorting => "sorting"
  | fluid => "fluid"

end Template

instance : Named Template where
  all := [.simpleMove, .smelting, .sorting, .fluid]
  name := Template.name
  mem_all t := by cases t <;> decide
  nodup_names := by decide

def Template.unknown (s : String) : String :=
  "Unknown template: " ++ s ++ " (expected one of simple_move, smelting, sorting, fluid)"

/-- Reads a name as typed: white space around it does not matter, its case does. -/
def Template.parse (s : String) : Except String Template :=
  match Named.ofName? (Text.trim s) with
  | some t => .ok t
  | none => .error (unknown s)

namespace Template

open Statement (input output)

/-- A statement that moves one kind of ingot out, if there is any. -/
def sortIngot (ingot storage : String) : Statement :=
  .branch ("input has > 0 " ++ ingot)
    [input ((Transfer.ofLabel "input").withItem ingot), output (.ofLabel storage)] []

def program : Template → Program
  | simpleMove =>
    ⟨"简单物品移动", [.every 20 [input (.ofLabel "a"), output (.ofLabel "b")]]⟩
  | smelting =>
    ⟨"自动熔炼系统",
      [.every 20
        [input ((Transfer.ofLabel "chest").withItem "iron_ore"),
          output ((Transfer.ofLabel "furnace").withSide .top)],
      .every 20
        [input ((Transfer.ofLabel "furnace").withSide .bottom), output (.ofLabel "output")]]⟩
  | sorting =>
    ⟨"自动分类系统",
      [.every 20 [sortIngot "iron_ingot" "iron_storage", sortIngot "gold_ingot" "gold_storage"]]⟩
  | fluid =>
    ⟨"流体传输",
      [.every 20
        [input ((Transfer.ofLabel "tank_a").withResource .fluid "minecraft:water"),
          output (.ofLabel "tank_b")]]⟩

end Template
end FactoryScript
