import FactoryScript.Proofs.Graph.Invariant
import FactoryScript.Proofs.Run

/-!
# Runs of a graph trigger

The operations on a trigger come in any order and with any numbers, known or not. One that fails
changes nothing. The only thing that is asked of a run is that a node is added only while there are
fewer nodes than numbers.
-/

namespace FactoryScript.GraphTrigger

/-- What can be done to a trigger. -/
inductive Op
  | addNode (label : String)
  | removeNode (id : NodeId)
  | connect (c : Connection)
  | disconnect (c : Connection)
  | reverse (c : Connection)
  /-- Changes a node in any way that leaves its number alone. -/
  | updateNode (id : NodeId) (f : Node → Node) (keepsId : ∀ n, n.id = id → (f n).id = id)
  /-- Changes what is no part of the graph. -/
  | change (c : TriggerChange)
  /-- Stores the trigger and loads what has been stored. -/
  | reload

/-- The trigger that an operation gives, or this one if the operation failed. -/
def orSame (t : GraphTrigger) : Except GraphError GraphTrigger → GraphTrigger
  | .ok u => u
  | .error _ => t

namespace Op

/-- The trigger after an operation. -/
def apply : Op → GraphTrigger → GraphTrigger
  | addNode label, t => t.addNode label
  | removeNode id, t => t.orSame ((t.removeNode id).map Prod.snd)
  | connect c, t => t.orSame ((t.connect c).map Prod.snd)
  | disconnect c, t => (t.disconnect c).2
  | reverse c, t => (t.reverse c).2
  | updateNode id f _, t => t.updateNode id f
  | change c, t => c.apply t
  | reload, t => t.orSame t.toStored.load

/-- There has to be a number for a new node. -/
def Allowed : Op → GraphTrigger → Prop
  | addNode _, t => t.nodes.length < UInt32.size
  | _, _ => True

end Op

/-- The triggers with which runs start. -/
inductive Initial : GraphTrigger → Prop
  | ofName (name : String) : Initial (ofName name)
  | starter (name : String) : Initial (starter name)
  | load {s : StoredTrigger} {t : GraphTrigger} (h : s.load = .ok t) : Initial t

/-- One operation leads from the first trigger to the second. -/
def Step (t u : GraphTrigger) : Prop := ∃ op : Op, op.Allowed t ∧ op.apply t = u

/-- Some run leads to the trigger. -/
def Reached : GraphTrigger → Prop := Reachable Initial Step

variable {t u : GraphTrigger}

/-- What holds before an operation and of its result holds after it, whether it fails or not. -/
theorem orSame_of {P : GraphTrigger → Prop} {r : Except GraphError GraphTrigger} (ht : P t)
    (hr : ∀ u, r = .ok u → P u) : P (t.orSame r) := by
  cases r with
  | ok u => exact hr u rfl
  | error _ => exact ht

/-! ## The invariant -/

theorem Initial.invariant (h : Initial t) : t.Invariant := by
  cases h with
  | ofName name => exact .ofName name
  | starter name => exact .starter name
  | load h => exact .load h

/-- One operation keeps the invariant. -/
theorem Invariant.apply {op : Op} (ht : t.Invariant) (hop : op.Allowed t) :
    (op.apply t).Invariant := by
  cases op with
  | addNode label => exact ht.addNode hop label
  | removeNode id =>
    refine orSame_of ht fun u hu => ?_
    obtain ⟨⟨_, _⟩, h, rfl⟩ := Except.map_eq_ok_iff.1 hu
    exact ht.removeNode h
  | connect c =>
    refine orSame_of ht fun u hu => ?_
    obtain ⟨⟨_, _⟩, h, rfl⟩ := Except.map_eq_ok_iff.1 hu
    exact ht.connect h
  | disconnect c => exact ht.disconnect c
  | reverse c => exact ht.reverse c
  | updateNode id f keepsId => exact ht.updateNode keepsId
  | change c => exact ht.congr rfl rfl rfl
  | reload => exact orSame_of ht fun u hu => .load hu

/-! ## The interval -/

theorem tickInterval_connect {c : Connection} {added : Bool} (h : t.connect c = .ok (added, u)) :
    u.tickInterval = t.tickInterval := by
  rw [connect] at h
  repeat' split at h
  all_goals cases h
  all_goals rfl

private theorem tickInterval_orSame {r : Except GraphError GraphTrigger}
    (hr : ∀ u, r = .ok u → u.tickInterval = t.tickInterval) :
    (t.orSame r).tickInterval = t.tickInterval :=
  orSame_of (P := fun u => u.tickInterval = t.tickInterval) rfl hr

/-- Neither nodes nor connections have a say in the interval. -/
theorem tickInterval_load {s : StoredTrigger} (h : s.load = .ok t) :
    t.tickInterval = s.tickInterval := by
  obtain ⟨loaded, hnodes, hcs⟩ := Except.bind_eq_ok_iff.1 h
  have hloaded : loaded.tickInterval = s.tickInterval := by
    refine Except.foldlM_ok_of_step (P := fun u => u.tickInterval = s.tickInterval)
      (fun u n v hu hv => ?_) rfl hnodes
    rw [insertNode] at hv
    split at hv <;> cases hv
    exact hu
  refine Except.foldlM_ok_of_step (P := fun u => u.tickInterval = s.tickInterval)
    (fun u c v hu hv => ?_) hloaded hcs
  obtain ⟨⟨added, w⟩, hw, rfl⟩ := Except.map_eq_ok_iff.1 hv
  exact (tickInterval_connect hw).trans hu

/-- Only a change of the trigger's own fields changes the interval. -/
theorem Op.tickInterval_apply {op : Op} (h : ∀ c, op ≠ .change c) :
    (op.apply t).tickInterval = t.tickInterval := by
  cases op with
  | addNode | disconnect | updateNode => rfl
  | change c => exact absurd rfl (h c)
  | removeNode id =>
    refine tickInterval_orSame fun u hu => ?_
    obtain ⟨⟨n, _⟩, h, rfl⟩ := Except.map_eq_ok_iff.1 hu
    rw [GraphTrigger.removeNode] at h
    split at h <;> cases h
    rfl
  | connect c =>
    refine tickInterval_orSame fun u hu => ?_
    obtain ⟨⟨_, _⟩, h, rfl⟩ := Except.map_eq_ok_iff.1 hu
    exact tickInterval_connect h
  | reverse c =>
    rw [apply, GraphTrigger.reverse]
    split <;> rfl
  | reload => exact tickInterval_orSame fun u hu => tickInterval_load hu

/-! ## Runs -/

theorem Reached.invariant (h : Reached t) : t.Invariant :=
  Reachable.invariant (fun _ => Initial.invariant)
    (fun _ _ ht ⟨_, hop, hu⟩ => hu ▸ ht.apply hop) h

/-- In every state of every run the numbers of the nodes are distinct, the connections are distinct,
none of them is a loop, and each has both ends among the nodes. -/
theorem wellFormed_of_reached (h : Reached t) : t.WellFormed := h.invariant.toWellFormed

/-- A trigger that uses the largest number, so that its counter has run out. -/
def exhausted : GraphTrigger :=
  ⟨"", .scheduled, 20, [⟨.last, .ofLabel "a"⟩, ⟨⟨0⟩, .ofLabel "b"⟩], [⟨.last, ⟨0⟩⟩], .last⟩

/-- The counter of a loaded trigger may have run out at once; a node can be added all the same. -/
theorem wellFormed_addNode_exhausted :
    exhausted.toStored.load = .ok exhausted ∧ exhausted.freshId = ⟨1⟩ ∧
      Reached (exhausted.addNode "c") ∧ (exhausted.addNode "c").WellFormed := by
  have hload : exhausted.toStored.load = .ok exhausted := rfl
  have hrun : Reached (exhausted.addNode "c") :=
    (Reachable.of_initial (Initial.load hload)).next
      ⟨.addNode "c", (by decide : exhausted.nodes.length < UInt32.size), rfl⟩
  exact ⟨hload, rfl, hrun, wellFormed_of_reached hrun⟩

end FactoryScript.GraphTrigger
