import FactoryScript.Graph.Basic
import FactoryScript.Json.Record

/-!
# Graphs in documents

The stored form of a trigger has all of it but the counter, which is recomputed from the numbers of
the nodes. Loading adds the nodes and then the connections one by one, so it refuses what the
operations refuse.
-/

namespace FactoryScript

namespace NodeId

def toJson (id : NodeId) : Json := .count id.val.toNat

def read : Reader NodeId := fun v => (Json.readCount v).map mk

end NodeId

namespace Node

def toJson (n : Node) : Json := .object (("id", n.id.toJson) :: n.endpoint.members)

def fields : Fields Json Node :=
  Endpoint.addFields <| Fields.done Node.mk |>.required "id" NodeId.read

def read : Reader Node := Json.readRecord fields

end Node

namespace Connection

def toJson (c : Connection) : Json :=
  .object [("source", c.source.toJson), ("target", c.target.toJson)]

def fields : Fields Json Connection :=
  Fields.done Connection.mk
    |>.required "source" NodeId.read
    |>.required "target" NodeId.read

def read : Reader Connection := Json.readRecord fields

end Connection

structure StoredTrigger where
  name : String
  kind : Firing
  tickInterval : UInt32
  nodes : List Node
  connections : List Connection
  deriving DecidableEq, Repr

namespace StoredTrigger

def fields : Fields Json StoredTrigger :=
  Fields.done StoredTrigger.mk
    |>.optional "name" Json.readText ""
    |>.optional "kind" Json.readName .scheduled
    |>.optional "tick_interval" Json.readInterval defaultInterval
    |>.optional "nodes" (Json.readList Node.read) []
    |>.optional "connections" (Json.readList Connection.read) []

def toJson (s : StoredTrigger) : Json :=
  .object [("name", .string s.name), ("kind", .string s.kind.name),
    ("tick_interval", .count s.tickInterval.toNat), ("nodes", .array (s.nodes.map Node.toJson)),
    ("connections", .array (s.connections.map Connection.toJson))]

/-- Builds the trigger, or refuses it for its first repeated number or, if there is none, its first
missing end of a connection. -/
def load (s : StoredTrigger) : Except GraphError GraphTrigger := do
  let empty : GraphTrigger := { GraphTrigger.ofName s.name with
    kind := s.kind
    tickInterval := s.tickInterval }
  let t ← s.nodes.foldlM GraphTrigger.insertNode empty
  s.connections.foldlM (fun t c => (t.connect c).map Prod.snd) t

end StoredTrigger

namespace GraphTrigger

def toStored (t : GraphTrigger) : StoredTrigger :=
  ⟨t.name, t.kind, t.tickInterval, t.nodes, t.connections⟩

def toJson (t : GraphTrigger) : Json := t.toStored.toJson

def read : Reader GraphTrigger := fun v =>
  match Json.readRecord StoredTrigger.fields v with
  | .error f => .error f
  | .ok s =>
    match s.load with
    | .ok t => .ok t
    | .error e => .error (.refused e.message)

end GraphTrigger

namespace Graph

def read : Reader (List GraphTrigger) := Json.readList GraphTrigger.read

def toJson (triggers : List GraphTrigger) : Json := .array (triggers.map GraphTrigger.toJson)

end Graph
end FactoryScript
