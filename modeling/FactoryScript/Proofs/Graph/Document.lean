import FactoryScript.Graph.Document
import FactoryScript.Proofs.Graph.Load
import FactoryScript.Proofs.Json.Compact
import FactoryScript.Proofs.Json.Written

/-!
# Graphs come back from their documents

The document of a trigger has all of the trigger but its counter. Reading it gives the stored form
with an interval of 0 raised to 1 (`StoredTrigger.readRecord_toJson`), and loading that refuses
nothing if the connections join nodes with numbers of their own (`GraphTrigger.ofText_eq`).
-/

namespace FactoryScript

open Json (PlainItems PlainMembers)

/-! ## Nodes and connections -/

theorem NodeId.read_toJson (id : NodeId) : read id.toJson = .ok id :=
  congrArg (Except.map mk) (Json.readCount_count id.val)

theorem NodeId.plain_toJson (id : NodeId) : id.toJson.Plain := Json.plain_count id.val

/-- The members of an endpoint are written for the fields that reading them adds. -/
theorem Endpoint.written {α : Type} {rest : Fields Json (Endpoint → α)}
    {members : List (String × Json)} {make : Endpoint → α} (h : rest.Written members make)
    (e : Endpoint) : (addFields rest).Written (members ++ e.members) (make e) := by
  have hmembers : members ++ e.members =
      members ++ [("label", .string e.label)] ++ [("side", .string e.side.name)] ++
        [("kind", .string e.kind.name)] ++ [("resource_id", .string e.resourceId)] ++
        [("quantity", .string e.quantity)] := by
    simp [Endpoint.members]
  rw [hmembers]
  refine h.map (fun make label side kind resourceId quantity =>
      make ⟨label, side, kind, resourceId, quantity⟩)
    |>.given ?_
    |>.given ?_
    |>.given ?_
    |>.given ?_
    |>.given ?_
  · rfl
  · exact Json.readName_name e.side
  · exact Json.readName_name e.kind
  · rfl
  · rfl

theorem Node.read_toJson (n : Node) : read n.toJson = .ok n := by
  have hid : ((Fields.done Node.mk).required "id" NodeId.read).Written [("id", n.id.toJson)]
      (Node.mk n.id) := .given (.done Node.mk) n.id.read_toJson
  exact (n.endpoint.written hid).ofMembers (by decide)

theorem Node.plain_toJson (n : Node) : n.toJson.Plain :=
  ⟨n.id.plain_toJson, trivial, trivial, trivial, trivial, trivial, trivial⟩

theorem Connection.read_toJson (c : Connection) : read c.toJson = .ok c := by
  have hwritten : fields.Written [("source", c.source.toJson), ("target", c.target.toJson)] c :=
    .given (.given (.done Connection.mk) c.source.read_toJson) c.target.read_toJson
  exact hwritten.ofMembers (by decide)

theorem Connection.plain_toJson (c : Connection) : c.toJson.Plain :=
  ⟨c.source.plain_toJson, c.target.plain_toJson, trivial⟩

/-! ## Stored triggers -/

namespace StoredTrigger

def atLeastOne (s : StoredTrigger) : StoredTrigger :=
  { s with tickInterval := max 1 s.tickInterval }

/-- A stored trigger comes back with its interval raised to at least one. -/
theorem readRecord_toJson (s : StoredTrigger) :
    Json.readRecord fields s.toJson = .ok s.atLeastOne := by
  have hwritten : fields.Written [("name", .string s.name), ("kind", .string s.kind.name),
      ("tick_interval", .count s.tickInterval.toNat), ("nodes", .array (s.nodes.map Node.toJson)),
      ("connections", .array (s.connections.map Connection.toJson))] s.atLeastOne := by
    refine Fields.Written.done StoredTrigger.mk
      |>.given ?_
      |>.given ?_
      |>.given ?_
      |>.given ?_
      |>.given ?_
    · rfl
    · exact Json.readName_name s.kind
    · exact congrArg (Except.map (max 1)) (Json.readCount_count s.tickInterval)
    · exact Json.readList_map Node.read_toJson s.nodes
    · exact Json.readList_map Connection.read_toJson s.connections
  exact hwritten.ofMembers (by decide)

theorem plain_toJson (s : StoredTrigger) : s.toJson.Plain := by
  have hnodes : PlainItems (s.nodes.map Node.toJson) :=
    Json.plainItems_iff.2 (List.forall_mem_map.2 fun n _ => n.plain_toJson)
  have hcs : PlainItems (s.connections.map Connection.toJson) :=
    Json.plainItems_iff.2 (List.forall_mem_map.2 fun c _ => c.plain_toJson)
  exact ⟨trivial, trivial, Json.plain_count s.tickInterval, hnodes, hcs, trivial⟩

end StoredTrigger

/-! ## Triggers -/

namespace GraphTrigger
variable {t : GraphTrigger}

theorem read_toJson (t : GraphTrigger) : read t.toJson =
    t.toStored.atLeastOne.load.mapError fun e => .refused e.message := by
  rw [read, toJson, StoredTrigger.readRecord_toJson]
  dsimp only
  cases t.toStored.atLeastOne.load <;> rfl

/-- The numbers that occur in the connections. -/
def ends (t : GraphTrigger) : List NodeId := t.connections.flatMap Connection.ends

/-- The trigger as it comes back from its document. -/
def restored (t : GraphTrigger) : GraphTrigger := t.toStored.atLeastOne.trigger

theorem ofText_eq (hids : t.ids.Nodup) (hends : ∀ i ∈ t.ends, i ∈ t.ids) :
    read.ofText t.toJson.compact = .ok t.restored := by
  have hplain : t.toJson.Plain := t.toStored.plain_toJson
  have hverdict := StoredTrigger.Verdict.sound (s := t.toStored.atLeastOne) hids hends
  rw [hplain.ofText_eq, read_toJson, hverdict.load_eq]
  rfl

end GraphTrigger
end FactoryScript
