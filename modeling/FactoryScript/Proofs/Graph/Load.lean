import FactoryScript.Proofs.Graph.Invariant
import FactoryScript.Proofs.List

/-!
# Loading stored triggers

Loading goes through the nodes and then through the connections, and stops at the first fault. What
comes of it is told without the loops: `StoredTrigger.Verdict` says which fault counts as the first
one, and what the trigger is when there is none (`load_eq_iff_verdict`).
-/

namespace FactoryScript

/-! ## Numbers -/

namespace NodeId

/-- The counter after a number has been used. -/
def raise (counter id : NodeId) : NodeId :=
  if counter.val < id.next.val then id.next else counter

/-- Past the last number the counter stays where it is. -/
theorem toNat_next_eq_min (id : NodeId) :
    id.next.val.toNat = min (id.val.toNat + 1) last.val.toNat := by
  by_cases h : id = last
  · subst h
    rfl
  · have hlt := id.val.toNat_lt
    have hne : id.val.toNat ≠ 4294967295 := fun heq => h (eq_last_iff.2 heq)
    have hlast : last.val.toNat = 4294967295 := rfl
    rw [toNat_next h]
    omega

theorem toNat_raise (counter id : NodeId) : (counter.raise id).val.toNat =
    max counter.val.toNat (min (id.val.toNat + 1) last.val.toNat) := by
  rw [← toNat_next_eq_min, raise]
  split <;> rename_i h <;> rw [UInt32.lt_iff_toNat_lt] at h <;> omega

end NodeId

/-- The source comes first. -/
def Connection.ends (c : Connection) : List NodeId := [c.source, c.target]

namespace StoredTrigger

def ids (s : StoredTrigger) : List NodeId := s.nodes.map Node.id

/-- The ends of the connections, in their order. -/
def ends (s : StoredTrigger) : List NodeId := s.connections.flatMap Connection.ends

/-- The connections that count: no loops, and of equal ones only the first. -/
def properConnections (cs : List Connection) : List Connection :=
  (cs.filter fun c => c.source ≠ c.target).eraseDups

/-- The number after the largest one, if there is such a number. -/
def counterAfter (ids : List NodeId) : NodeId :=
  match (ids.map fun id => id.val.toNat).max? with
  | none => ⟨0⟩
  | some largest => ⟨.ofNat (min (largest + 1) NodeId.last.val.toNat)⟩

/-- The trigger of a document without faults. -/
def trigger (s : StoredTrigger) : GraphTrigger :=
  ⟨s.name, s.kind, s.tickInterval, s.nodes, properConnections s.connections, counterAfter s.ids⟩

/-- What loading a stored trigger comes to. -/
inductive Verdict (s : StoredTrigger) : Except GraphError GraphTrigger → Prop
  /-- A node has the number of an earlier one, and all earlier ones have numbers of their own. -/
  | repeated {before after : List Node} {n : Node} (hnodes : s.nodes = before ++ n :: after)
    (hbefore : (before.map Node.id).Nodup) (hn : n.id ∈ before.map Node.id) :
    Verdict s (.error (.duplicateNode n.id))
  /-- All nodes have numbers of their own, an end of a connection is no node, and all earlier ends
  are nodes. -/
  | missing {before after : List NodeId} {id : NodeId} (hids : s.ids.Nodup)
    (hends : s.ends = before ++ id :: after) (hbefore : ∀ i ∈ before, i ∈ s.ids)
    (hid : id ∉ s.ids) : Verdict s (.error (.nodeNotFound id))
  | sound (hids : s.ids.Nodup) (hends : ∀ i ∈ s.ends, i ∈ s.ids) : Verdict s (.ok s.trigger)

/-! ## Nodes -/

section
variable {t : GraphTrigger} {n : Node} {ns : List Node}

theorem insertNode_of_notMem (h : n.id ∉ t.ids) : t.insertNode n =
    .ok { t with nodes := t.nodes ++ [n], counter := t.counter.raise n.id } := by
  rw [GraphTrigger.insertNode, if_neg (by rwa [GraphTrigger.hasNode_eq_true_iff])]
  rfl

theorem insertNode_of_mem (h : n.id ∈ t.ids) : t.insertNode n = .error (.duplicateNode n.id) := by
  rw [GraphTrigger.insertNode, if_pos (GraphTrigger.hasNode_eq_true_iff.2 h)]

/-- The trigger with more nodes. -/
def withNodes (t : GraphTrigger) (ns : List Node) : GraphTrigger :=
  { t with nodes := t.nodes ++ ns, counter := (ns.map Node.id).foldl NodeId.raise t.counter }

theorem ids_withNodes : (withNodes t ns).ids = t.ids ++ ns.map Node.id := List.map_append

/-- Nodes with distinct numbers are all inserted, in their order. -/
theorem foldlM_insertNode (h : (t.ids ++ ns.map Node.id).Nodup) :
    ns.foldlM GraphTrigger.insertNode t = .ok (withNodes t ns) := by
  induction ns generalizing t with
  | nil => simp [withNodes, pure, Except.pure]
  | cons n rest ih =>
    rw [List.map_cons, List.append_cons] at h
    have hn : n.id ∉ t.ids := fun hmem =>
      (List.nodup_append.1 (List.nodup_append.1 h).1).2.2 _ hmem _ List.mem_cons_self rfl
    have hids : (withNodes t [n]).ids = t.ids ++ [n.id] := ids_withNodes
    have hstep : t.insertNode n = .ok (withNodes t [n]) := insertNode_of_notMem hn
    have hrest := ih (t := withNodes t [n]) (by rwa [hids])
    rw [List.foldlM_cons, hstep]
    exact hrest.trans (by simp [withNodes])

end

/-! ## The counter -/

/-- What is known of the counter once there has been a largest number. -/
private theorem toNat_foldl_raise {ids : List NodeId} {counter : NodeId} {largest : Nat}
    (h : counter.val.toNat = min (largest + 1) NodeId.last.val.toNat) :
    (ids.foldl NodeId.raise counter).val.toNat =
      min ((ids.map fun id => id.val.toNat).foldl max largest + 1) NodeId.last.val.toNat := by
  induction ids generalizing counter largest with
  | nil => exact h
  | cons id rest ih =>
    rw [List.foldl_cons, List.map_cons, List.foldl_cons]
    refine ih ?_
    rw [NodeId.toNat_raise, h]
    omega

/-- The counter goes above every number that is loaded, or stays at the last one. -/
theorem foldl_raise_zero (ids : List NodeId) : ids.foldl NodeId.raise ⟨0⟩ = counterAfter ids := by
  cases ids with
  | nil => rfl
  | cons id rest =>
    have hzero : (NodeId.raise ⟨0⟩ id).val.toNat =
        min (id.val.toNat + 1) NodeId.last.val.toNat := by
      rw [NodeId.toNat_raise]
      exact Nat.max_eq_right (Nat.zero_le _)
    have hfold := @toNat_foldl_raise rest _ _ hzero
    have hmin : ∀ n, min n NodeId.last.val.toNat < UInt32.size := fun n =>
      Nat.lt_of_le_of_lt (Nat.min_le_right ..) (by decide)
    rw [counterAfter, List.map_cons, List.max?_cons', List.foldl_cons]
    refine congrArg NodeId.mk (UInt32.toNat_inj.1 ?_)
    exact hfold.trans (UInt32.toNat_ofNat_of_lt' (hmin _)).symm

/-! ## Connections -/

section
variable {t : GraphTrigger} {cs : List Connection}

/-- One more connection is kept unless it is a loop or was kept before. -/
theorem properConnections_concat (done : List Connection) (c : Connection) :
    properConnections (done ++ [c]) =
      if c.source = c.target ∨ c ∈ properConnections done then properConnections done
      else properConnections done ++ [c] := by
  by_cases hloop : c.source = c.target
  · rw [if_pos (.inl hloop), properConnections, List.filter_append]
    simp [hloop, properConnections]
  · rw [properConnections, List.filter_append]
    simp only [ne_eq, hloop, not_false_eq_true, decide_true, List.filter_cons_of_pos,
      List.filter_nil, List.eraseDups_concat, false_or, properConnections, List.mem_eraseDups]

/-- The trigger with those connections of a list that count. -/
def withConnections (t : GraphTrigger) (cs : List Connection) : GraphTrigger :=
  { t with connections := properConnections cs }

/-- Connecting two nodes that are there adds what counts as one more proper connection. -/
theorem connect_withConnections {c : Connection} (done : List Connection) (hs : c.source ∈ t.ids)
    (ht : c.target ∈ t.ids) : ((withConnections t done).connect c).map Prod.snd =
      .ok (withConnections t (done ++ [c])) := by
  have hsource : (withConnections t done).hasNode c.source = true :=
    GraphTrigger.hasNode_eq_true_iff.2 hs
  have htarget : (withConnections t done).hasNode c.target = true :=
    GraphTrigger.hasNode_eq_true_iff.2 ht
  have hknown : (withConnections t done).hasConnection c = true ↔ c ∈ properConnections done :=
    GraphTrigger.hasConnection_eq_true_iff
  rw [GraphTrigger.connect, if_neg (by simp [hsource]), if_neg (by simp [htarget]),
    withConnections.eq_def t (done ++ [c]), properConnections_concat]
  split <;> rename_i h <;> rw [hknown] at h
  · rw [if_pos h]
    rfl
  · rw [if_neg h]
    rfl

theorem connect_of_source_notMem {c : Connection} (h : c.source ∉ t.ids) :
    t.connect c = .error (.nodeNotFound c.source) := by
  rw [GraphTrigger.connect, if_pos (by simpa using GraphTrigger.hasNode_eq_false_iff.2 h)]

theorem connect_of_target_notMem {c : Connection} (hs : c.source ∈ t.ids) (ht : c.target ∉ t.ids) :
    t.connect c = .error (.nodeNotFound c.target) := by
  rw [GraphTrigger.connect, if_neg (by simpa using GraphTrigger.hasNode_eq_true_iff.2 hs),
    if_pos (by simpa using GraphTrigger.hasNode_eq_false_iff.2 ht)]

/-- One step of the loop over the connections. -/
def addConnection (t : GraphTrigger) (c : Connection) : Except GraphError GraphTrigger :=
  (t.connect c).map Prod.snd

/-- Connections whose ends are all there are added in their order, without loops and repetitions. -/
theorem foldlM_addConnection {done : List Connection}
    (h : ∀ i ∈ cs.flatMap Connection.ends, i ∈ t.ids) :
    cs.foldlM addConnection (withConnections t done) = .ok (withConnections t (done ++ cs)) := by
  induction cs generalizing done with
  | nil => simp [pure, Except.pure]
  | cons c rest ih =>
    rw [List.flatMap_cons, List.forall_mem_append] at h
    obtain ⟨hc, hrest⟩ := h
    have hstep : addConnection (withConnections t done) c = .ok (withConnections t (done ++ [c])) :=
      connect_withConnections done (hc _ (by simp [Connection.ends]))
        (hc _ (by simp [Connection.ends]))
    rw [List.foldlM_cons, hstep]
    exact (ih hrest).trans (by rw [List.append_assoc, List.singleton_append])

/-- The loop stops at the first end that is missing. -/
theorem foldlM_addConnection_of_missing {done : List Connection} {before after : List NodeId}
    {id : NodeId} (hends : cs.flatMap Connection.ends = before ++ id :: after)
    (hbefore : ∀ i ∈ before, i ∈ t.ids) (hid : id ∉ t.ids) :
    cs.foldlM addConnection (withConnections t done) = .error (.nodeNotFound id) := by
  induction cs generalizing done before with
  | nil => simp at hends
  | cons c rest ih =>
    rw [List.foldlM_cons]
    -- the missing end is the source of this connection, its target, or an end of a later one
    cases before with
    | nil =>
      obtain ⟨rfl, -⟩ := List.cons.inj hends
      rw [addConnection, connect_of_source_notMem (t := withConnections t done) hid]
      rfl
    | cons source before =>
      obtain ⟨hsource, htail⟩ := List.cons.inj hends
      obtain ⟨hs, hbefore⟩ := List.forall_mem_cons.1 hbefore
      rw [← hsource] at hs
      cases before with
      | nil =>
        obtain ⟨rfl, -⟩ := List.cons.inj htail
        rw [addConnection, connect_of_target_notMem (t := withConnections t done) hs hid]
        rfl
      | cons target before =>
        obtain ⟨htarget, hrest⟩ := List.cons.inj htail
        obtain ⟨ht, hbefore⟩ := List.forall_mem_cons.1 hbefore
        rw [← htarget] at ht
        rw [addConnection, connect_withConnections done hs ht]
        exact ih hrest hbefore

end

/-! ## Loading -/

variable {s : StoredTrigger}

/-- The trigger before its nodes and connections are added. -/
def bare (s : StoredTrigger) : GraphTrigger := ⟨s.name, s.kind, s.tickInterval, [], [], ⟨0⟩⟩

theorem load_eq (s : StoredTrigger) : s.load =
    (s.nodes.foldlM GraphTrigger.insertNode s.bare).bind
      fun t => s.connections.foldlM addConnection t := rfl

theorem load_eq_of_nodup (h : s.ids.Nodup) :
    s.load =
      s.connections.foldlM addConnection (withConnections (withNodes s.bare s.nodes) []) := by
  rw [load_eq, foldlM_insertNode (t := s.bare) h]
  rfl

theorem withConnections_withNodes_bare :
    withConnections (withNodes s.bare s.nodes) s.connections = s.trigger := by
  rw [trigger, ← foldl_raise_zero]
  rfl

namespace Verdict
variable {r : Except GraphError GraphTrigger}

/-- What is found first, in the order of nodes and then connections, decides; a trigger with no
fault is loaded. -/
theorem load_eq (h : s.Verdict r) : s.load = r := by
  cases h with
  | @repeated before after n hnodes hbefore hn =>
    have hinsert : before.foldlM GraphTrigger.insertNode s.bare = .ok (withNodes s.bare before) :=
      foldlM_insertNode (t := s.bare) hbefore
    have hrepeated : (withNodes s.bare before).insertNode n = .error (.duplicateNode n.id) :=
      insertNode_of_mem hn
    rw [StoredTrigger.load_eq, hnodes, List.foldlM_append, hinsert]
    change Except.bind (List.foldlM _ _ (n :: after)) _ = _
    rw [List.foldlM_cons, hrepeated]
    rfl
  | missing hids hends hbefore hid =>
    rw [load_eq_of_nodup hids]
    exact foldlM_addConnection_of_missing hends hbefore hid
  | sound hids hends =>
    rw [load_eq_of_nodup hids, foldlM_addConnection (t := withNodes s.bare s.nodes) hends,
      List.nil_append, withConnections_withNodes_bare]

/-- There is always a first fault or none. -/
theorem exists_verdict (s : StoredTrigger) : ∃ r, s.Verdict r := by
  by_cases hids : s.ids.Nodup
  · by_cases hends : ∀ i ∈ s.ends, i ∈ s.ids
    · exact ⟨_, sound hids hends⟩
    · obtain ⟨before, id, after, heq, hbefore, hid⟩ :=
        List.exists_first (p := (· ∉ s.ids)) (by simpa using hends)
      exact ⟨_, missing hids heq (fun i hi => not_not.1 (hbefore i hi)) hid⟩
  · obtain ⟨before, n, after, hnodes, hbefore, hn⟩ := List.exists_first_repeated hids
    exact ⟨_, repeated hnodes hbefore hn⟩

end Verdict

/-- Every stored trigger is loaded or refused, and exactly for the reasons that `Verdict` gives. -/
theorem load_eq_iff_verdict {r : Except GraphError GraphTrigger} : s.load = r ↔ s.Verdict r := by
  refine ⟨fun h => ?_, Verdict.load_eq⟩
  obtain ⟨r', hr'⟩ := Verdict.exists_verdict s
  rw [← h, hr'.load_eq]
  exact hr'

/-- A repeated number is reported before an end that is missing. -/
example : load ⟨"", .scheduled, 20, [⟨⟨3⟩, .ofLabel "a"⟩, ⟨⟨3⟩, .ofLabel "b"⟩], [⟨⟨9⟩, ⟨3⟩⟩]⟩ =
    .error (.duplicateNode ⟨3⟩) := rfl

end StoredTrigger
end FactoryScript
