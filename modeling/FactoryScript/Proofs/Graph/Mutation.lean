import FactoryScript.Proofs.Graph.Run

/-!
# What mutations do

Connecting two nodes, disconnecting them, turning a connection round and removing a node each make
one change to a graph, or none at all, and the answer tells which it was. A connection and a number
stand at one place only in a sound graph, so a change is told by what stands before and after that
place (`disconnect_of_split`, `reverse_of_split`, `removeNode_of_split`). From these accounts follow
the order that is kept, and which operation takes back which (`mutations_exact`).
-/

namespace FactoryScript

/-! ## Order -/

/-- The items that two lists share stand in the same order in both. -/
def SameOrder {α : Type} [DecidableEq α] (l l' : List α) : Prop :=
  l.filter (· ∈ l') = l'.filter (· ∈ l)

section SameOrder
variable {α : Type} [DecidableEq α] {before after gone new l : List α}

/-- Of a list of which a part has been replaced, the old items that are still there are those around
that part. -/
private theorem filter_mem_replaced (h : ∀ a ∈ gone, a ∉ before ++ (new ++ after)) :
    (before ++ (gone ++ after)).filter (· ∈ before ++ (new ++ after)) = before ++ after := by
  have hgone : gone.filter (· ∈ before ++ (new ++ after)) = [] := by
    rw [List.filter_eq_nil_iff]
    exact fun a ha => by simpa using h a ha
  have hkept : ∀ l : List α, l ⊆ before ++ (new ++ after) →
      l.filter (· ∈ before ++ (new ++ after)) = l := fun l hl =>
    List.filter_eq_self.2 fun a ha => decide_eq_true (hl ha)
  rw [List.filter_append, List.filter_append, hgone, List.nil_append,
    hkept before (List.subset_append_left _ _),
    hkept after (List.subset_append_of_subset_right _ (List.subset_append_right _ _))]

/-- Putting new items in the place of others leaves the order of the rest alone. -/
theorem sameOrder_of_replaced (hgone : ∀ a ∈ gone, a ∉ before ++ (new ++ after))
    (hnew : ∀ a ∈ new, a ∉ before ++ (gone ++ after)) :
    SameOrder (before ++ (gone ++ after)) (before ++ (new ++ after)) :=
  (filter_mem_replaced hgone).trans (filter_mem_replaced hnew).symm

theorem sameOrder_filter (p : α → Bool) (l : List α) : SameOrder l (l.filter p) := by
  have hself : (l.filter p).filter (· ∈ l) = l.filter p :=
    List.filter_eq_self.2 fun a ha => decide_eq_true (List.mem_of_mem_filter ha)
  rw [SameOrder, hself]
  refine List.filter_congr fun a ha => ?_
  rw [Bool.eq_iff_iff, decide_eq_true_iff, List.mem_filter, and_iff_right ha]

end SameOrder

theorem Connection.flip_flip (c : Connection) : c.flip.flip = c := rfl

theorem Connection.flip_ne {c : Connection} (h : c.source ≠ c.target) : c.flip ≠ c := fun heq =>
  h (congrArg Connection.target heq)

namespace GraphTrigger

section replaceFirst
variable {α : Type} {p : α → Bool} {f : α → α} {before after : List α} {a : α}

/-- Nothing is replaced where nothing passes the test. -/
theorem replaceFirst_of_forall_not (h : ∀ b ∈ before, p b = false) :
    replaceFirst p f before = before := by
  induction before with
  | nil => rfl
  | cons b rest ih =>
    obtain ⟨hb, hrest⟩ := List.forall_mem_cons.1 h
    rw [replaceFirst, hb, ih hrest]
    rfl

/-- What is replaced is the first item that passes, in its place. -/
theorem replaceFirst_split (h : ∀ b ∈ before, p b = false) (ha : p a = true) :
    replaceFirst p f (before ++ a :: after) = before ++ f a :: after := by
  induction before with
  | nil => rw [List.nil_append, replaceFirst, if_pos ha, List.nil_append]
  | cons b rest ih =>
    obtain ⟨hb, hrest⟩ := List.forall_mem_cons.1 h
    rw [List.cons_append, replaceFirst, hb, ih hrest]
    rfl

end replaceFirst

variable {t u : GraphTrigger} {c : Connection} {id : NodeId} {n : Node}

/-! ## Connecting -/

theorem connect_of_source_missing (h : c.source ∉ t.ids) :
    t.connect c = .error (.nodeNotFound c.source) := by
  rw [connect, hasNode_eq_false_iff.2 h]
  rfl

theorem connect_of_target_missing (hs : c.source ∈ t.ids) (h : c.target ∉ t.ids) :
    t.connect c = .error (.nodeNotFound c.target) := by
  rw [connect, hasNode_eq_true_iff.2 hs, hasNode_eq_false_iff.2 h]
  rfl

theorem connect_of_ends (hs : c.source ∈ t.ids) (ht : c.target ∈ t.ids) :
    t.connect c = if c.source = c.target ∨ c ∈ t.connections then .ok (false, t)
      else .ok (true, { t with connections := t.connections ++ [c] }) := by
  rw [connect, hasNode_eq_true_iff.2 hs, hasNode_eq_true_iff.2 ht]
  simp only [Bool.not_true, Bool.false_eq_true, if_false, hasConnection_eq_true_iff]

theorem eq_of_connect (h : t.connect c = .ok (false, u)) : u = t := by
  rw [connect] at h
  split_ifs at h <;> cases h
  rfl

/-- The first end that is missing is reported. Otherwise the connection is added as the last one,
exactly if it is new and no loop. -/
structure ConnectExact (t : GraphTrigger) (c : Connection) : Prop where
  source_missing : c.source ∉ t.ids → t.connect c = .error (.nodeNotFound c.source)
  target_missing : c.source ∈ t.ids → c.target ∉ t.ids →
    t.connect c = .error (.nodeNotFound c.target)
  added_iff (u : GraphTrigger) : t.connect c = .ok (true, u) ↔
    (c.source ∈ t.ids ∧ c.target ∈ t.ids ∧ c.source ≠ c.target ∧ c ∉ t.connections) ∧
      u = { t with connections := t.connections ++ [c] }
  refused : c.source ∈ t.ids → c.target ∈ t.ids → c.source = c.target ∨ c ∈ t.connections →
    t.connect c = .ok (false, t)

/-- The checks of connecting come in the order of the two ends. -/
theorem connectExact (t : GraphTrigger) (c : Connection) : ConnectExact t c where
  source_missing := connect_of_source_missing
  target_missing := connect_of_target_missing
  added_iff u := by
    by_cases hs : c.source ∈ t.ids
    swap
    · rw [connect_of_source_missing hs]
      exact ⟨nofun, fun h => absurd h.1.1 hs⟩
    by_cases ht : c.target ∈ t.ids
    swap
    · rw [connect_of_target_missing hs ht]
      exact ⟨nofun, fun h => absurd h.1.2.1 ht⟩
    rw [connect_of_ends hs ht]
    split <;> rename_i hold
    · exact ⟨nofun, fun h => absurd hold (not_or.2 h.1.2.2)⟩
    · rw [Except.ok.injEq, Prod.mk.injEq, and_iff_right rfl, eq_comm]
      exact ⟨fun h => ⟨⟨hs, ht, not_or.1 hold⟩, h⟩, And.right⟩
  refused hs ht hold := by rw [connect_of_ends hs ht, if_pos hold]

/-! ## Disconnecting -/

theorem disconnect_of_notMem (h : c ∉ t.connections) : t.disconnect c = (false, t) := by
  have hkept : t.connections.filter (· != c) = t.connections :=
    List.filter_eq_self.2 fun d hd => bne_iff_ne.2 (ne_of_mem_of_not_mem hd h)
  rw [disconnect, hkept, Bool.eq_false_iff.2 (mt hasConnection_eq_true_iff.1 h)]

theorem disconnect_of_false (h : (t.disconnect c).1 = false) : (t.disconnect c).2 = t := by
  have hc : c ∉ t.connections := fun hc => Bool.false_ne_true (h ▸ hasConnection_eq_true_iff.2 hc)
  rw [disconnect_of_notMem hc]

/-- Of distinct connections exactly the one that is named goes, and the others keep their order. -/
theorem disconnect_of_split {before after : List Connection} (hcs : t.connections.Nodup)
    (h : t.connections = before ++ c :: after) :
    t.disconnect c = (true, { t with connections := before ++ after }) := by
  have hmem : c ∈ t.connections := by simp [h]
  have hnew : c ∉ before ++ after := (List.nodup_cons.1 (List.nodup_middle.1 (h ▸ hcs))).1
  have hkept : t.connections.filter (· != c) = before ++ after := by
    rw [h, List.filter_append, List.filter_cons_of_neg (by simp), ← List.filter_append]
    exact List.filter_eq_self.2 fun d hd => bne_iff_ne.2 (ne_of_mem_of_not_mem hd hnew)
  rw [disconnect, hkept, hasConnection_eq_true_iff.2 hmem]

/-- A connection that is there is taken out of its place. -/
structure DisconnectExact (t : GraphTrigger) (c : Connection) : Prop where
  true_iff : (t.disconnect c).1 = true ↔ c ∈ t.connections
  removed (before after : List Connection) : t.connections = before ++ c :: after →
    c ∉ before ++ after ∧ t.disconnect c = (true, { t with connections := before ++ after })
  absent : c ∉ t.connections → t.disconnect c = (false, t)

theorem disconnectExact (hcs : t.connections.Nodup) (c : Connection) : DisconnectExact t c where
  true_iff := hasConnection_eq_true_iff
  removed _ _ h :=
    ⟨(List.nodup_cons.1 (List.nodup_middle.1 (h ▸ hcs))).1, disconnect_of_split hcs h⟩
  absent := disconnect_of_notMem

/-! ## Turning round -/

/-- There must be a connection to turn, and none the other way yet. -/
theorem reverse_of_refused (h : c ∉ t.connections ∨ c.flip ∈ t.connections) :
    t.reverse c = (false, t) := by
  rw [reverse]
  split <;> rename_i hflip
  · rfl
  · rw [hasConnection_eq_true_iff] at hflip
    have hc := h.resolve_right hflip
    have hkept : replaceFirst (· == c) Connection.flip t.connections = t.connections :=
      replaceFirst_of_forall_not fun d hd => beq_false_of_ne (ne_of_mem_of_not_mem hd hc)
    rw [hkept, Bool.eq_false_iff.2 (mt hasConnection_eq_true_iff.1 hc)]

theorem reverse_of_false (h : (t.reverse c).1 = false) : (t.reverse c).2 = t := by
  have hrefused : c ∉ t.connections ∨ c.flip ∈ t.connections := by
    rw [reverse] at h
    split at h <;> rename_i hflip
    · exact .inr (hasConnection_eq_true_iff.1 hflip)
    · exact .inl fun hc => Bool.false_ne_true (h ▸ hasConnection_eq_true_iff.2 hc)
  rw [reverse_of_refused hrefused]

/-- The turned connection takes the place of the old one. -/
theorem reverse_of_split {before after : List Connection} (hcs : t.connections.Nodup)
    (h : t.connections = before ++ c :: after) (hflip : c.flip ∉ t.connections) :
    t.reverse c = (true, { t with connections := before ++ c.flip :: after }) := by
  have hmem : c ∈ t.connections := by simp [h]
  have hnew : c ∉ before ++ after := (List.nodup_cons.1 (List.nodup_middle.1 (h ▸ hcs))).1
  have hturned : replaceFirst (· == c) Connection.flip t.connections =
      before ++ c.flip :: after := by
    rw [h]
    exact replaceFirst_split (fun d hd => beq_false_of_ne fun heq =>
      hnew (heq ▸ List.mem_append_left _ hd)) (beq_self_eq_true c)
  rw [reverse, if_neg (mt hasConnection_eq_true_iff.1 hflip), hturned,
    hasConnection_eq_true_iff.2 hmem]

/-- A connection that is there is turned round where it stands, unless the other direction is there
as well. -/
structure ReverseExact (t : GraphTrigger) (c : Connection) : Prop where
  true_iff : (t.reverse c).1 = true ↔ c ∈ t.connections ∧ c.flip ∉ t.connections
  turned (before after : List Connection) : t.connections = before ++ c :: after →
    c.flip ∉ t.connections →
    t.reverse c = (true, { t with connections := before ++ c.flip :: after })
  refused : c ∉ t.connections ∨ c.flip ∈ t.connections → t.reverse c = (false, t)

/-- Turning is told exactly when it has happened. -/
theorem reverseExact (hcs : t.connections.Nodup) (c : Connection) : ReverseExact t c where
  true_iff := by
    by_cases h : c ∉ t.connections ∨ c.flip ∈ t.connections
    · rw [reverse_of_refused h]
      exact ⟨nofun, fun ⟨hc, hflip⟩ => absurd h (not_or.2 ⟨not_not.2 hc, hflip⟩)⟩
    · obtain ⟨hc, hflip⟩ := not_or.1 h
      obtain ⟨before, after, hsplit⟩ := List.append_of_mem (not_not.1 hc)
      rw [reverse_of_split hcs hsplit hflip]
      exact ⟨fun _ => ⟨not_not.1 hc, hflip⟩, fun _ => rfl⟩
  turned _ _ h hflip := reverse_of_split hcs h hflip
  refused := reverse_of_refused

/-! ## Changing a node -/

theorem updateNode_of_notMem {f : Node → Node} (h : id ∉ t.ids) : t.updateNode id f = t := by
  have hkept : replaceFirst (fun n => n.id == id) f t.nodes = t.nodes :=
    replaceFirst_of_forall_not fun n hn => beq_false_of_ne
      (ne_of_mem_of_not_mem (List.mem_map_of_mem hn) h)
  rw [updateNode, hkept]

/-! ## Removing a node -/

theorem removeNode_of_notMem (h : id ∉ t.ids) : t.removeNode id = .error (.nodeNotFound id) := by
  have hnone : t.node? id = none := by
    have hfalse := hasNode_eq_false_iff.2 h
    rwa [hasNode, Option.isSome_eq_false_iff, Option.isNone_iff_eq_none] at hfalse
  rw [removeNode, hnone]

/-- The trigger without a node, of which the nodes before and after it are left. -/
def without (t : GraphTrigger) (id : NodeId) (before after : List Node) : GraphTrigger :=
  { t with
    nodes := before ++ after
    connections := t.connections.filter fun c => c.source != id && c.target != id }

/-- A node is taken out of its place, with all connections at it. -/
theorem removeNode_of_split {before after : List Node} (hids : t.ids.Nodup)
    (h : t.nodes = before ++ n :: after) :
    t.removeNode n.id = .ok (n, t.without n.id before after) := by
  have hnew : ∀ m ∈ before, (m.id == n.id) = false := by
    intro m hm
    rw [ids, h, List.map_append, List.map_cons] at hids
    refine beq_false_of_ne fun heq => (List.nodup_cons.1 (List.nodup_middle.1 hids)).1 ?_
    exact List.mem_append_left _ (heq ▸ List.mem_map_of_mem hm)
  have hfound : t.node? n.id = some n := by
    rw [node?, h, List.find?_append, List.find?_eq_none.2 fun m hm => by simp [hnew m hm]]
    simp
  have herased : (t.nodes.eraseP fun m => m.id == n.id) = before ++ after := by
    rw [h, List.eraseP_append_right _ fun m hm => by simp [hnew m hm],
      List.eraseP_cons_of_pos (by simp)]
  have hkept : (t.connections.filter fun c => !c.touches n.id) =
      t.connections.filter fun c => c.source != n.id && c.target != n.id :=
    List.filter_congr fun c _ => Bool.not_or ..
  rw [removeNode, hfound]
  simp only [herased, hkept, without]

/-- A node that is there is taken out of its place, with the connections that touch it. -/
structure RemoveExact (t : GraphTrigger) (id : NodeId) : Prop where
  ok_iff : (∃ n u, t.removeNode id = .ok (n, u)) ↔ id ∈ t.ids
  removed (before after : List Node) (n : Node) : t.nodes = before ++ n :: after → n.id = id →
    t.removeNode id = .ok (n, t.without id before after)
  missing : id ∉ t.ids → t.removeNode id = .error (.nodeNotFound id)

/-- A number that is in use is that of one node. -/
theorem exists_split_of_mem_ids (h : id ∈ t.ids) :
    ∃ before n after, t.nodes = before ++ n :: after ∧ n.id = id := by
  obtain ⟨n, hn, hid⟩ := List.mem_map.1 h
  obtain ⟨before, after, hsplit⟩ := List.append_of_mem hn
  exact ⟨before, n, after, hsplit, hid⟩

/-- Removing fails exactly for numbers that no node has. -/
theorem removeExact (hids : t.ids.Nodup) (id : NodeId) : RemoveExact t id where
  ok_iff := by
    refine ⟨fun ⟨n, u, h⟩ => by_contra fun hid => ?_, fun hid => ?_⟩
    · rw [removeNode_of_notMem hid] at h
      cases h
    · obtain ⟨before, n, after, hsplit, rfl⟩ := exists_split_of_mem_ids hid
      exact ⟨n, _, removeNode_of_split hids hsplit⟩
  removed before after n h hid := by
    subst hid
    exact removeNode_of_split hids h
  missing := removeNode_of_notMem

/-! ## Mutations -/

/-- An operation that takes something out of a graph, or adds or turns a connection. -/
inductive Mutation
  | connect (c : Connection)
  | disconnect (c : Connection)
  | reverse (c : Connection)
  | removeNode (id : NodeId)

namespace Mutation

def op : Mutation → Op
  | connect c => .connect c
  | disconnect c => .disconnect c
  | reverse c => .reverse c
  | removeNode id => .removeNode id

/-- The answer says that something has been done. -/
def reported : Mutation → GraphTrigger → Bool
  | connect c, t => match t.connect c with | .ok (added, _) => added | .error _ => false
  | disconnect c, t => (t.disconnect c).1
  | reverse c, t => (t.reverse c).1
  | removeNode id, t => (t.removeNode id).toBool

end Mutation

/-- What a mutation can make of a trigger: nothing, or other connections in one place, or a node
less. -/
inductive Effect (t : GraphTrigger) : Bool → GraphTrigger → Prop
  | nothing : Effect t false t
  | connections (before gone new after : List Connection)
    (h : t.connections = before ++ (gone ++ after)) (hne : gone ≠ new)
    (hgone : ∀ c ∈ gone, c ∉ before ++ (new ++ after))
    (hnew : ∀ c ∈ new, c ∉ before ++ (gone ++ after)) :
    Effect t true { t with connections := before ++ (new ++ after) }
  | node {before after : List Node} {n : Node} (h : t.nodes = before ++ n :: after)
    (hgone : n ∉ before ++ after) : Effect t true (t.without n.id before after)

/-- Connecting adds one connection at the end, or changes nothing and says so. -/
theorem effect_connect (c : Connection) :
    t.Effect ((Mutation.connect c).reported t) ((Op.connect c).apply t) := by
  rw [Mutation.reported, Op.apply]
  by_cases hs : c.source ∈ t.ids
  swap
  · rw [connect_of_source_missing hs]
    exact .nothing
  by_cases ht : c.target ∈ t.ids
  swap
  · rw [connect_of_target_missing hs ht]
    exact .nothing
  rw [connect_of_ends hs ht]
  split_ifs with hold
  · exact .nothing
  · have hne : [] ≠ [c] := (List.cons_ne_nil c []).symm
    exact .connections t.connections [] [c] [] (by simp) hne (List.forall_mem_nil _)
      (by simpa using (not_or.1 hold).2)

/-- Disconnecting takes one connection out, or changes nothing and says so. -/
theorem effect_disconnect (hcs : t.connections.Nodup) (c : Connection) :
    t.Effect (t.disconnect c).1 (t.disconnect c).2 := by
  by_cases hc : c ∈ t.connections
  · obtain ⟨before, after, h⟩ := List.append_of_mem hc
    obtain ⟨hgone, hremoved⟩ := (disconnectExact hcs c).removed before after h
    rw [hremoved]
    exact .connections before [c] [] after h (List.cons_ne_nil _ _) (by simpa using hgone) nofun
  · rw [disconnect_of_notMem hc]
    exact .nothing

/-- Turning puts one connection in the place of another, or changes nothing and says so. -/
theorem effect_reverse (ht : t.WellFormed) (c : Connection) :
    t.Effect (t.reverse c).1 (t.reverse c).2 := by
  by_cases hrefused : c ∉ t.connections ∨ c.flip ∈ t.connections
  · rw [reverse_of_refused hrefused]
    exact .nothing
  · obtain ⟨hc, hflip⟩ := not_or.1 hrefused
    rw [not_not] at hc
    obtain ⟨before, after, h⟩ := List.append_of_mem hc
    have hne : c.flip ≠ c := Connection.flip_ne (ht.source_ne_target c hc)
    have hgone : c ∉ before ++ after :=
      (List.nodup_cons.1 (List.nodup_middle.1 (h ▸ ht.nodup_connections))).1
    rw [reverse_of_split ht.nodup_connections h hflip]
    refine .connections before [c] [c.flip] after h (by simpa using hne.symm) ?_ ?_
    · simpa [hne.symm] using hgone
    · simpa [h] using hflip

/-- Removing a node takes it out with its connections, or changes nothing and fails. -/
theorem effect_removeNode (hids : t.ids.Nodup) (id : NodeId) :
    t.Effect ((Mutation.removeNode id).reported t) ((Op.removeNode id).apply t) := by
  rw [Mutation.reported, Op.apply]
  by_cases hid : id ∈ t.ids
  · obtain ⟨before, n, after, h, rfl⟩ := exists_split_of_mem_ids hid
    have hgone : n ∉ before ++ after :=
      (List.nodup_cons.1 (List.nodup_middle.1 (h ▸ hids.of_map))).1
    rw [removeNode_of_split hids h]
    exact .node h hgone
  · rw [removeNode_of_notMem hid]
    exact .nothing

theorem effect (ht : t.WellFormed) (m : Mutation) : t.Effect (m.reported t) (m.op.apply t) := by
  cases m with
  | connect c => exact effect_connect c
  | disconnect c => exact effect_disconnect ht.nodup_connections c
  | reverse c => exact effect_reverse ht c
  | removeNode id => exact effect_removeNode ht.nodup_ids id

namespace Effect
variable {reported : Bool}

/-- A mutation says that it changed something exactly if it did. -/
theorem reported_iff (h : t.Effect reported u) : reported = true ↔ u ≠ t := by
  cases h with
  | nothing => exact ⟨nofun, fun h => absurd rfl h⟩
  | connections before gone new after h hne hgone hnew =>
    refine ⟨fun _ heq => hne ?_, fun _ => rfl⟩
    have hcs := congrArg GraphTrigger.connections heq
    rw [h, List.append_cancel_left_eq, List.append_cancel_right_eq] at hcs
    exact hcs.symm
  | node h hgone =>
    refine ⟨fun _ heq => ?_, fun _ => rfl⟩
    have hlength := congrArg (fun t => t.nodes.length) heq
    simp [without, h] at hlength

/-- What a mutation leaves is in the order that it had. -/
theorem sameOrder (h : t.Effect reported u) :
    SameOrder t.nodes u.nodes ∧ SameOrder t.connections u.connections := by
  cases h with
  | nothing => exact ⟨rfl, rfl⟩
  | connections before gone new after h hne hgone hnew =>
    refine ⟨rfl, ?_⟩
    rw [h]
    exact sameOrder_of_replaced hgone hnew
  | @node before after n h hgone =>
    refine ⟨?_, sameOrder_filter _ _⟩
    rw [h]
    change SameOrder (before ++ ([n] ++ after)) (before ++ ([] ++ after))
    exact sameOrder_of_replaced (by simpa using hgone) nofun

theorem counter_eq (h : t.Effect reported u) : u.counter = t.counter := by
  cases h <;> rfl

end Effect

/-! ## Taking back -/

/-- The connection that was added last is taken back from its place. -/
theorem disconnect_of_connect (hcs : t.connections.Nodup) (h : t.connect c = .ok (true, u)) :
    u.disconnect c = (true, t) := by
  obtain ⟨⟨-, -, -, hnew⟩, rfl⟩ := ((connectExact t c).added_iff u).1 h
  have hnodup : (t.connections ++ [c]).Nodup := by
    rw [← List.concat_eq_append]
    exact hcs.concat hnew
  have hlast : ({ t with connections := t.connections ++ [c] } : GraphTrigger).connections =
      t.connections ++ c :: [] := rfl
  rw [disconnect_of_split hnodup hlast, List.append_nil]

/-- Turning twice puts the connection back where it was. -/
theorem reverse_of_reverse (ht : t.WellFormed) (h : t.reverse c = (true, u)) :
    u.reverse c.flip = (true, t) := by
  obtain ⟨hc, hflip⟩ := (reverseExact ht.nodup_connections c).true_iff.1 (by rw [h])
  obtain ⟨before, after, hsplit⟩ := List.append_of_mem hc
  rw [reverse_of_split ht.nodup_connections hsplit hflip] at h
  cases h
  have hne : c ≠ c.flip := (Connection.flip_ne (ht.source_ne_target c hc)).symm
  have hnodup := List.nodup_middle.1 (hsplit ▸ ht.nodup_connections)
  have hnew : c.flip ∉ before ++ after := fun hmem =>
    hflip (hsplit ▸ List.perm_middle.mem_iff.2 (List.mem_cons_of_mem c hmem))
  have hturned : (before ++ c.flip :: after).Nodup :=
    List.nodup_middle.2 (List.nodup_cons.2 ⟨hnew, (List.nodup_cons.1 hnodup).2⟩)
  have hback : c.flip.flip ∉ before ++ c.flip :: after := by
    rw [c.flip_flip, List.perm_middle.mem_iff]
    exact List.not_mem_cons_of_ne_of_not_mem hne (List.nodup_cons.1 hnodup).1
  rw [reverse_of_split (c := c.flip) hturned rfl hback, c.flip_flip, ← hsplit]

/-! ## The contract -/

/-- Every mutation of the trigger does what its answer says and nothing else. -/
structure ExactMutations (t : GraphTrigger) : Prop where
  connect (c : Connection) : ConnectExact t c
  disconnect (c : Connection) : DisconnectExact t c
  reverse (c : Connection) : ReverseExact t c
  removeNode (id : NodeId) : RemoveExact t id
  /-- An answer that nothing has been done, or a failure, is one that leaves the trigger as it was,
  and no other answer is. -/
  reported_iff (m : Mutation) : m.reported t = true ↔ m.op.apply t ≠ t
  sameOrder (m : Mutation) : SameOrder t.nodes (m.op.apply t).nodes ∧
    SameOrder t.connections (m.op.apply t).connections
  counter_eq (m : Mutation) : (m.op.apply t).counter = t.counter
  disconnect_connect (c : Connection) (u : GraphTrigger) :
    t.connect c = .ok (true, u) → u.disconnect c = (true, t)
  reverse_reverse (c : Connection) (u : GraphTrigger) :
    t.reverse c = (true, u) → u.reverse c.flip = (true, t)

/-- In a sound graph every mutation changes exactly what it is about, and reports exactly whether it
did; what it leaves keeps its order, the counter stands, and connecting and turning round can be
taken back. -/
theorem mutations_exact (ht : t.WellFormed) : t.ExactMutations where
  connect := connectExact t
  disconnect := disconnectExact ht.nodup_connections
  reverse := reverseExact ht.nodup_connections
  removeNode := removeExact ht.nodup_ids
  reported_iff m := (effect ht m).reported_iff
  sameOrder m := (effect ht m).sameOrder
  counter_eq m := (effect ht m).counter_eq
  disconnect_connect _ _ := disconnect_of_connect ht.nodup_connections
  reverse_reverse _ _ := reverse_of_reverse ht

/-- Three nodes in a circle. -/
def circle : GraphTrigger :=
  ⟨"", .scheduled, 20, [⟨⟨0⟩, .ofLabel "a"⟩, ⟨⟨1⟩, .ofLabel "b"⟩, ⟨⟨2⟩, .ofLabel "c"⟩],
    [⟨⟨0⟩, ⟨1⟩⟩, ⟨⟨1⟩, ⟨2⟩⟩, ⟨⟨2⟩, ⟨0⟩⟩], ⟨3⟩⟩

/-- The second connection of a circle is turned round and back, a third node is missing, and without
the node in the middle one connection is left. -/
theorem mutations_exact_circle :
    circle.WellFormed ∧
      (circle.reverse ⟨⟨1⟩, ⟨2⟩⟩).2.connections = [⟨⟨0⟩, ⟨1⟩⟩, ⟨⟨2⟩, ⟨1⟩⟩, ⟨⟨2⟩, ⟨0⟩⟩] ∧
      (circle.reverse ⟨⟨1⟩, ⟨2⟩⟩).2.reverse ⟨⟨2⟩, ⟨1⟩⟩ = (true, circle) ∧
      circle.connect ⟨⟨3⟩, ⟨4⟩⟩ = .error (.nodeNotFound ⟨3⟩) ∧
      ((Mutation.removeNode ⟨1⟩).op.apply circle).connections = [⟨⟨2⟩, ⟨0⟩⟩] ∧
      (Mutation.removeNode ⟨1⟩).op.apply circle ≠ circle := by
  have hsound : circle.WellFormed := ⟨by decide, by decide, by decide, by decide, by decide⟩
  have h := mutations_exact hsound
  exact ⟨hsound, rfl, h.reverse_reverse ⟨⟨1⟩, ⟨2⟩⟩ _ rfl,
    (h.connect ⟨⟨3⟩, ⟨4⟩⟩).source_missing (by decide), rfl,
    (h.reported_iff (.removeNode ⟨1⟩)).1 rfl⟩

end GraphTrigger
end FactoryScript
