import FactoryScript.Proofs.Graph.Document
import FactoryScript.Proofs.Json.Record

/-!
# Graphs in storage

The stored text of a list of triggers is read as triggers that differ in their counters at most, and
in intervals of 0 (`Graph.ofText_toJson`). The counter that is recomputed may be lower than the one
before, but it is still ahead of the numbers in use, so new nodes get new numbers
(`GraphTrigger.Survives`). A trigger whose numbers have been overwritten is read back if its numbers
are still distinct and its connections still end at nodes.
-/

namespace FactoryScript

/-! ## Counters -/

namespace StoredTrigger
variable {ids : List NodeId} {counter : NodeId}

/-- A counter that is ahead of some numbers stays behind no counter that they raise. -/
theorem toNat_foldl_raise_le {start : NodeId} (hstart : start.val.toNat ≤ counter.val.toNat)
    (h : counter ≠ .last → ∀ id ∈ ids, id.val.toNat < counter.val.toNat) :
    (ids.foldl NodeId.raise start).val.toNat ≤ counter.val.toNat := by
  induction ids generalizing start with
  | nil => exact hstart
  | cons id rest ih =>
    refine ih ?_ fun hne i hi => h hne i (List.mem_cons_of_mem _ hi)
    rw [NodeId.toNat_raise]
    refine Nat.max_le.2 ⟨hstart, ?_⟩
    by_cases hlast : counter = .last
    · rw [hlast]
      exact Nat.min_le_right ..
    · exact Nat.le_trans (Nat.min_le_left ..) (h hlast id List.mem_cons_self)

theorem counterAfter_le (h : counter ≠ .last → ∀ id ∈ ids, id.val.toNat < counter.val.toNat) :
    (counterAfter ids).val ≤ counter.val := by
  rw [← foldl_raise_zero, UInt32.le_iff_toNat_le]
  exact toNat_foldl_raise_le (Nat.zero_le _) h

theorem properConnections_eq {cs : List Connection} (hcs : cs.Nodup)
    (hloops : ∀ c ∈ cs, c.source ≠ c.target) : properConnections cs = cs := by
  have hkept : cs.filter (fun c => c.source ≠ c.target) = cs :=
    List.filter_eq_self.2 fun c hc => by simpa using hloops c hc
  rw [properConnections, hkept, List.eraseDups_of_nodup hcs]

end StoredTrigger

/-! ## One trigger -/

namespace GraphTrigger
variable {t u : GraphTrigger}

/-- What is left of a trigger after it has been stored and read again. -/
structure Survives (t u : GraphTrigger) : Prop where
  name : u.name = t.name
  kind : u.kind = t.kind
  tickInterval : u.tickInterval = if t.tickInterval = 0 then 1 else t.tickInterval
  nodes : u.nodes = t.nodes
  connections : u.connections = t.connections
  counter : u.counter.val ≤ t.counter.val
  addNode : u.nodes.length < UInt32.size → ∀ label,
    (u.addNode label).nodes = u.nodes ++ [⟨u.freshId, .ofLabel label⟩] ∧ u.freshId ∉ u.ids

/-- Both ends of every connection are nodes. -/
def Connected (t : GraphTrigger) : Prop :=
  ∀ c ∈ t.connections, c.source ∈ t.ids ∧ c.target ∈ t.ids

theorem connected_iff : t.Connected ↔ ∀ i ∈ t.ends, i ∈ t.ids := by
  rw [ends, List.forall_mem_flatMap]
  simp [Connected, Connection.ends]

theorem WellFormed.connected (ht : t.WellFormed) : t.Connected := fun c hc =>
  ⟨ht.source_mem c hc, ht.target_mem c hc⟩

theorem load_toStored (hids : t.ids.Nodup) (ht : t.Connected) :
    t.toStored.atLeastOne.load = .ok t.restored :=
  (StoredTrigger.Verdict.sound (s := t.toStored.atLeastOne) hids (connected_iff.1 ht)).load_eq

theorem Invariant.survives (ht : t.Invariant) : t.Survives t.restored := by
  have hrestored : t.restored.Invariant := .load (load_toStored ht.nodup_ids ht.connected)
  refine ⟨rfl, rfl, ?_, rfl, ?_, ?_, fun hlength label => ⟨rfl, ?_⟩⟩
  · exact UInt32.max_one_eq t.tickInterval
  · exact StoredTrigger.properConnections_eq ht.nodup_connections ht.source_ne_target
  · exact StoredTrigger.counterAfter_le ht.counterAhead
  · exact freshId_notMem_ids hrestored.counterAhead fun _ => hlength

/-- A trigger is read back from its own text unless two nodes have one number or a connection ends
at no node. -/
theorem exists_ofText_iff (t : GraphTrigger) :
    (∃ u, read.ofText t.toJson.compact = .ok u) ↔ t.ids.Nodup ∧ t.Connected := by
  refine ⟨?_, fun ⟨hids, ht⟩ => ⟨_, ofText_eq hids (connected_iff.1 ht)⟩⟩
  rintro ⟨u, hu⟩
  have hplain : t.toJson.Plain := t.toStored.plain_toJson
  rw [hplain.ofText_eq, read_toJson] at hu
  obtain ⟨r, hr⟩ := StoredTrigger.Verdict.exists_verdict t.toStored.atLeastOne
  rw [hr.load_eq] at hu
  cases hr with
  | repeated | missing => cases hu
  | sound hids hends => exact ⟨hids, connected_iff.2 hends⟩

end GraphTrigger

/-! ## Lists of triggers -/

namespace Graph

theorem plain_toJson (triggers : List GraphTrigger) : (toJson triggers).Plain :=
  Json.plainItems_iff.2 (List.forall_mem_map.2 fun t _ => t.toStored.plain_toJson)

theorem ofText_eq {triggers : List GraphTrigger}
    (h : ∀ t ∈ triggers, t.ids.Nodup ∧ t.Connected) :
    read.ofText (toJson triggers).compact = .ok (triggers.map GraphTrigger.restored) := by
  rw [(plain_toJson triggers).ofText_eq]
  refine Json.readList_map_of fun t ht => ?_
  rw [GraphTrigger.read_toJson, GraphTrigger.load_toStored (h t ht).1 (h t ht).2]
  rfl

/-- Sound triggers survive storage, and a trigger whose numbers have been overwritten is read back
exactly if its numbers are distinct and its connections end at nodes. -/
theorem ofText_toJson (triggers : List GraphTrigger) :
    ((∀ t ∈ triggers, t.Invariant) →
      ∃ loaded, read.ofText (toJson triggers).compact = .ok loaded ∧
        List.Forall₂ GraphTrigger.Survives triggers loaded) ∧
    ∀ t : GraphTrigger, (∃ u, GraphTrigger.read.ofText t.toJson.compact = .ok u) ↔
      t.ids.Nodup ∧ t.Connected := by
  refine ⟨fun h => ⟨triggers.map GraphTrigger.restored, ofText_eq ?_, ?_⟩,
    GraphTrigger.exists_ofText_iff⟩
  · exact fun t ht => ⟨(h t ht).nodup_ids, (h t ht).connected⟩
  · refine List.forall₂_map_right_iff.2 (List.forall₂_same.2 ?_)
    exact fun t ht => (h t ht).survives

/-- A trigger whose numbers have run out, with texts that have to be escaped. -/
def worn : GraphTrigger :=
  ⟨"", .redstonePulse, 0, [⟨.last, .ofLabel "a \"chest\"\n"⟩, ⟨⟨0⟩, .ofLabel "\\é"⟩],
    [⟨⟨0⟩, .last⟩, ⟨.last, ⟨0⟩⟩], .last⟩

theorem ofText_toJson_worn :
    let twice := worn.updateNode ⟨0⟩ fun n => { n with id := .last }
    let moved := (GraphTrigger.ofName "g").addNode "a"
      |>.updateNode ⟨0⟩ fun n => { n with id := ⟨7⟩ }
    (∃ loaded, read.ofText (toJson [worn, .starter "g"]).compact = .ok loaded ∧
      List.Forall₂ GraphTrigger.Survives [worn, .starter "g"] loaded) ∧
    (¬ ∃ u, GraphTrigger.read.ofText twice.toJson.compact = .ok u) ∧
    ∃ u, GraphTrigger.read.ofText moved.toJson.compact = .ok u := by
  intro twice moved
  have hworn : worn.Invariant := by
    refine ⟨⟨by decide, by decide, by decide, by decide, by decide⟩, ?_⟩
    exact fun h => absurd rfl h
  obtain ⟨hlist, hsingle⟩ := ofText_toJson [worn, .starter "g"]
  refine ⟨hlist ?_, ?_, (hsingle moved).2 ⟨by decide, nofun⟩⟩
  · simpa using ⟨hworn, GraphTrigger.Invariant.starter "g"⟩
  · rw [hsingle twice]
    rintro ⟨hids, -⟩
    revert hids
    decide

end Graph
end FactoryScript
