import FactoryScript.Endpoint
import FactoryScript.Firing

/-!
# Graphs

The trigger of a graph has nodes and directed connections between them. A connection refers to its
ends by the numbers of the nodes, so that removing a node is a matter of dropping the connections
that mention its number. The operations keep the numbers of the nodes distinct, the pairs of the
connections distinct, and both ends of each connection among the nodes.
-/

namespace FactoryScript

/-- The number of a node, which names it within its trigger. -/
structure NodeId where
  val : UInt32
  deriving DecidableEq, Repr

namespace NodeId

def text (id : NodeId) : String := "n" ++ Count.text id.val

def last : NodeId := ⟨4294967295⟩

/-- The next number; the largest one has no successor. -/
def next (id : NodeId) : NodeId := if id = last then last else ⟨id.val + 1⟩

end NodeId

inductive GraphError
  | nodeNotFound (id : NodeId)
  | duplicateNode (id : NodeId)
  deriving DecidableEq, Repr

def GraphError.message : GraphError → String
  | nodeNotFound id => "Node not found: " ++ id.text
  | duplicateNode id => "Duplicate node id: " ++ id.text

structure Node where
  id : NodeId
  endpoint : Endpoint
  deriving DecidableEq, Repr

structure Connection where
  source : NodeId
  target : NodeId
  deriving DecidableEq, Repr

namespace Connection

def flip (c : Connection) : Connection := ⟨c.target, c.source⟩

def touches (c : Connection) (id : NodeId) : Bool := c.source == id || c.target == id

end Connection

structure GraphTrigger where
  name : String
  kind : Firing
  tickInterval : UInt32
  nodes : List Node
  connections : List Connection
  /-- The number for the next node, until the numbers run out. -/
  counter : NodeId
  deriving DecidableEq, Repr

namespace GraphTrigger

/-- A scheduled trigger with an empty graph. -/
def ofName (name : String) : GraphTrigger := ⟨name, .scheduled, defaultInterval, [], [], ⟨0⟩⟩

/-! ## Looking up -/

def node? (t : GraphTrigger) (id : NodeId) : Option Node := t.nodes.find? fun n => n.id == id

def nodeByLabel? (t : GraphTrigger) (label : String) : Option Node :=
  t.nodes.find? fun n => n.endpoint.label == label

def hasNode (t : GraphTrigger) (id : NodeId) : Bool := (t.node? id).isSome

def hasConnection (t : GraphTrigger) (c : Connection) : Bool := t.connections.contains c

/-! ## Nodes -/

/-- The lowest number that no node has; below the largest number, one more candidate than there are
nodes is enough. -/
def lowestFree (t : GraphTrigger) : NodeId :=
  let candidates := (List.range (min (t.nodes.length + 1) NodeId.last.val.toNat)).map fun n =>
    NodeId.mk (.ofNat n)
  (candidates.find? fun id => !t.hasNode id).getD .last

/-- The number for a new node: that of the counter, and once the counter has run out the lowest
free one. -/
def freshId (t : GraphTrigger) : NodeId := if t.counter = .last then t.lowestFree else t.counter

/-- Adds a node; its number is `freshId`. -/
def addNode (t : GraphTrigger) (label : String) : GraphTrigger :=
  { t with nodes := t.nodes ++ [⟨t.freshId, .ofLabel label⟩], counter := t.counter.next }

/-- Adds a node that has a number already; from then on the counter is above that number. -/
def insertNode (t : GraphTrigger) (n : Node) : Except GraphError GraphTrigger :=
  if t.hasNode n.id then .error (.duplicateNode n.id)
  else
    let next := n.id.next
    .ok { t with
      nodes := t.nodes ++ [n]
      counter := if t.counter.val < next.val then next else t.counter }

/-- Removes a node and every connection that touches it. -/
def removeNode (t : GraphTrigger) (id : NodeId) : Except GraphError (Node × GraphTrigger) :=
  match t.node? id with
  | some n =>
    .ok (n, { t with
      nodes := t.nodes.eraseP fun n => n.id == id
      connections := t.connections.filter fun c => !c.touches id })
  | none => .error (.nodeNotFound id)

def replaceFirst {α : Type} (p : α → Bool) (f : α → α) : List α → List α
  | [] => []
  | a :: rest => if p a then f a :: rest else a :: replaceFirst p f rest

/-- Changes a node; nothing changes if there is no such node. -/
def updateNode (t : GraphTrigger) (id : NodeId) (f : Node → Node) : GraphTrigger :=
  { t with nodes := replaceFirst (fun n => n.id == id) f t.nodes }

def letters : List String := "abcdefghijklmnopqrstuvwxyz".toList.map Char.toString

/-- The label for a new node: the first letter that labels no node, or `x`. -/
def freeLabel (t : GraphTrigger) : String :=
  (letters.find? fun s => (t.nodeByLabel? s).isNone).getD "x"

/-! ## Connections -/

/-- Connects two nodes. A connection from a node to itself and one that exists already are not
added. The first missing end is reported. -/
def connect (t : GraphTrigger) (c : Connection) : Except GraphError (Bool × GraphTrigger) :=
  if !t.hasNode c.source then .error (.nodeNotFound c.source)
  else if !t.hasNode c.target then .error (.nodeNotFound c.target)
  else if c.source = c.target ∨ t.hasConnection c = true then .ok (false, t)
  else .ok (true, { t with connections := t.connections ++ [c] })

/-- Removes a connection, and says whether there was one. -/
def disconnect (t : GraphTrigger) (c : Connection) : Bool × GraphTrigger :=
  (t.hasConnection c, { t with connections := t.connections.filter (· != c) })

/-- Turns a connection round where it stands, unless the result exists already, and says whether
there was one to turn. -/
def reverse (t : GraphTrigger) (c : Connection) : Bool × GraphTrigger :=
  if t.hasConnection c.flip then (false, t)
  else (t.hasConnection c,
    { t with connections := replaceFirst (· == c) Connection.flip t.connections })

/-! ## Whole triggers -/

/-- A trigger with the nodes `a` and `b` and a connection from the first to the second. -/
def starter (name : String) : GraphTrigger :=
  let t := (ofName name).addNode "a"
  let u := t.addNode "b"
  { u with connections := [⟨(ofName name).freshId, t.freshId⟩] }

def atLeastOne (t : GraphTrigger) : GraphTrigger := { t with tickInterval := max 1 t.tickInterval }

end GraphTrigger
end FactoryScript
