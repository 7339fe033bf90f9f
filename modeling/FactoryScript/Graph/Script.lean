import FactoryScript.Count
import FactoryScript.Graph.Basic
import FactoryScript.Text.Basic

/-!
# The script of a graph

A trigger with connections becomes one block. The connections are grouped by source, in the order in
which the sources first appear; each group is one `input` line for its source, and one `output`
line for each target. A trigger without connections has no block.
-/

namespace FactoryScript

def Node.line (n : Node) (keyword direction : String) : String :=
  " ".intercalate <|
    [keyword] ++ n.endpoint.quantityWord?.toList ++ n.endpoint.resourceWord?.toList ++
      [direction, n.endpoint.label] ++
      (match n.endpoint.side.keyword? with | some side => [side, "side"] | none => [])

/-- The targets of each source, in the order of first appearance. -/
abbrev TargetGroups := List (NodeId × List NodeId)

namespace TargetGroups

/-- Adds a connection to the group of its source, which is a new one if the source is new. -/
def insert (c : Connection) : TargetGroups → TargetGroups
  | [] => [(c.source, [c.target])]
  | (source, targets) :: rest =>
    if source = c.source then (source, targets ++ [c.target]) :: rest
    else (source, targets) :: insert c rest

def ofConnections (cs : List Connection) : TargetGroups := cs.foldl (fun g c => g.insert c) []

end TargetGroups

namespace GraphTrigger

def header (t : GraphTrigger) : String :=
  match t.kind with
  | .scheduled => "every " ++ Count.text t.tickInterval ++ " ticks do"
  | .redstonePulse => pulseHeader

def groupLines (t : GraphTrigger) (source : NodeId) (targets : List NodeId) : List String :=
  match t.node? source with
  | none => []
  | some n =>
    (flatIndent ++ n.line "input" "from") ::
      (targets.filterMap t.node?).map fun n => flatIndent ++ n.line "output" "to"

/-- The lines of the block, from the header to `end`. -/
def lines (t : GraphTrigger) : List String :=
  [t.header] ++
    ((TargetGroups.ofConnections t.connections).flatMap fun g => t.groupLines g.1 g.2) ++
    [blockEnd]

def block? (t : GraphTrigger) : Option String :=
  if t.connections.isEmpty then none else some ("\n".intercalate t.lines)

end GraphTrigger

namespace Graph

/-- The script of a graph in which nothing is connected. -/
def placeholder : String := "// connect two nodes in a trigger to generate code"

/-- The whole script: the blocks with an empty line between them. -/
def script (triggers : List GraphTrigger) : String :=
  let blocks := triggers.filterMap GraphTrigger.block?
  if blocks.isEmpty then placeholder else Text.trimEnd ("\n\n".intercalate blocks)

end Graph
end FactoryScript
