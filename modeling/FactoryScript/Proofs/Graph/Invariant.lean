import FactoryScript.Graph.Document
import FactoryScript.Proofs.Run
import FactoryScript.Session.Graph
import Mathlib.Data.List.Nodup
import Mathlib.Logic.Relation

/-!
# The invariant of a graph trigger

The numbers of the nodes of a trigger are distinct, its connections are distinct, none of them is a
loop, and each has both ends among the nodes (`GraphTrigger.WellFormed`). What makes this hold along
a run is the counter for new nodes: until it has run out it is above every number in use
(`CounterAhead`). After that the lowest free number is taken, and since there are more numbers than
nodes there is one (`freshId_notMem_ids`). Each operation keeps both (`Invariant.apply`), and so
does every run of operations from a new or a loaded trigger (`wellFormed_of_reached`).
-/

namespace FactoryScript

/-! ## Numbers -/

namespace NodeId

theorem eq_last_iff {id : NodeId} : id = last ↔ id.val.toNat = 4294967295 := by
  obtain ⟨n⟩ := id
  simp only [last, mk.injEq, ← UInt32.toNat_inj]
  rfl

theorem toNat_le_last (id : NodeId) : id.val.toNat ≤ last.val.toNat :=
  Nat.le_of_lt_succ id.val.toNat_lt

theorem ne_last_of_le {a b : NodeId} (hb : b ≠ last) (h : a.val.toNat ≤ b.val.toNat) :
    a ≠ last := by
  rintro rfl
  exact hb (eq_last_iff.2 (Nat.le_antisymm b.toNat_le_last h))

theorem toNat_next {id : NodeId} (h : id ≠ last) : id.next.val.toNat = id.val.toNat + 1 := by
  have hlt := id.val.toNat_lt
  rw [Ne, eq_last_iff] at h
  rw [next, if_neg (by rwa [eq_last_iff]), UInt32.toNat_add]
  simp only [UInt32.toNat_one]
  omega

theorem toNat_le_next {id : NodeId} : id.val.toNat ≤ id.next.val.toNat := by
  by_cases h : id = last
  · subst h
    exact Nat.le_refl _
  · exact toNat_next h ▸ Nat.le_succ _

end NodeId

namespace GraphTrigger

/-! ## Changing one item of a list -/

section replaceFirst
variable {α β : Type} {p : α → Bool} {f : α → α} {l : List α}

/-- What is in the list afterwards was there before, or has replaced what was. -/
theorem of_mem_replaceFirst {b : α} (h : b ∈ replaceFirst p f l) :
    b ∈ l ∨ ∃ a ∈ l, p a = true ∧ b = f a := by
  induction l with
  | nil => cases h
  | cons a rest ih =>
    rw [replaceFirst] at h
    split at h <;> rename_i hp
    · rcases List.mem_cons.1 h with rfl | h
      · exact .inr ⟨a, List.mem_cons_self, hp, rfl⟩
      · exact .inl (List.mem_cons_of_mem _ h)
    · rcases List.mem_cons.1 h with rfl | h
      · exact .inl List.mem_cons_self
      rcases ih h with h | ⟨c, hc, hpc, rfl⟩
      · exact .inl (List.mem_cons_of_mem _ h)
      · exact .inr ⟨c, List.mem_cons_of_mem _ hc, hpc, rfl⟩

/-- A replacement does not show where what is asked of the items is the same for both. -/
theorem map_replaceFirst {g : α → β} (h : ∀ a, p a = true → g (f a) = g a) :
    (replaceFirst p f l).map g = l.map g := by
  induction l with
  | nil => rfl
  | cons a rest ih =>
    rw [replaceFirst]
    split <;> rename_i hp
    · simp only [List.map_cons, h a hp]
    · simp only [List.map_cons, ih]

/-- A replacement that is new to the list keeps its items distinct. -/
theorem nodup_replaceFirst (hl : l.Nodup) (h : ∀ a ∈ l, p a = true → f a ∉ l) :
    (replaceFirst p f l).Nodup := by
  induction l with
  | nil => exact hl
  | cons a rest ih =>
    obtain ⟨ha, hrest⟩ := List.nodup_cons.1 hl
    rw [replaceFirst]
    split <;> rename_i hp
    · refine List.nodup_cons.2 ⟨fun hf => ?_, hrest⟩
      exact h a List.mem_cons_self hp (List.mem_cons_of_mem _ hf)
    · refine List.nodup_cons.2 ⟨fun hm => ?_, ih hrest fun b hb hpb hf => ?_⟩
      · rcases of_mem_replaceFirst hm with hm | ⟨b, hb, hpb, rfl⟩
        · exact ha hm
        · exact h b (List.mem_cons_of_mem _ hb) hpb List.mem_cons_self
      · exact h b (List.mem_cons_of_mem _ hb) hpb (List.mem_cons_of_mem _ hf)

end replaceFirst

/-! ## The invariant -/

/-- The numbers in use. -/
def ids (t : GraphTrigger) : List NodeId := t.nodes.map Node.id

/-- The graph of a trigger is sound: numbers name nodes, and connections are distinct pairs of
distinct nodes. -/
structure WellFormed (t : GraphTrigger) : Prop where
  nodup_ids : t.ids.Nodup
  nodup_connections : t.connections.Nodup
  source_ne_target : ∀ c ∈ t.connections, c.source ≠ c.target
  source_mem : ∀ c ∈ t.connections, c.source ∈ t.ids
  target_mem : ∀ c ∈ t.connections, c.target ∈ t.ids

/-- Until the counter has run out it is above every number in use. -/
def CounterAhead (t : GraphTrigger) : Prop :=
  t.counter ≠ .last → ∀ id ∈ t.ids, id.val.toNat < t.counter.val.toNat

/-- What every operation keeps. -/
structure Invariant (t : GraphTrigger) : Prop extends WellFormed t where
  counterAhead : t.CounterAhead

variable {t u : GraphTrigger}

theorem hasNode_eq_true_iff {id : NodeId} : t.hasNode id = true ↔ id ∈ t.ids := by
  simp [hasNode, node?, ids, List.find?_isSome]

theorem hasNode_eq_false_iff {id : NodeId} : t.hasNode id = false ↔ id ∉ t.ids := by
  rw [← hasNode_eq_true_iff, Bool.not_eq_true]

theorem hasConnection_eq_true_iff {c : Connection} :
    t.hasConnection c = true ↔ c ∈ t.connections := by
  simp [hasConnection]

theorem ids_updateNode {id : NodeId} {f : Node → Node} (hf : ∀ n, n.id = id → (f n).id = id) :
    (t.updateNode id f).ids = t.ids :=
  map_replaceFirst fun n hn => by rw [hf n (eq_of_beq hn), eq_of_beq hn]

theorem ids_addNode (t : GraphTrigger) (label : String) :
    (t.addNode label).ids = t.ids ++ [t.freshId] := List.map_append

/-- Without a node of one number there are nodes of all other numbers still. -/
theorem mem_ids_eraseP {id i : NodeId} (hi : i ∈ t.ids) (hne : i ≠ id) :
    i ∈ (t.nodes.eraseP fun n => n.id == id).map Node.id := by
  obtain ⟨m, hm, rfl⟩ := List.mem_map.1 hi
  exact List.mem_map_of_mem ((List.mem_eraseP_of_neg (by simpa using hne)).2 hm)

/-! ## New numbers -/

/-- The numbers that are tried once the counter has run out. -/
private def candidates (t : GraphTrigger) : List NodeId :=
  (List.range (min (t.nodes.length + 1) NodeId.last.val.toNat)).map fun n => ⟨.ofNat n⟩

private theorem toNat_of_lt {n m : Nat} (h : n < min m NodeId.last.val.toNat) :
    (UInt32.ofNat n).toNat = n :=
  UInt32.toNat_ofNat_of_lt' (Nat.lt_trans (Nat.lt_of_lt_of_le h (Nat.min_le_right ..)) (by decide))

private theorem nodup_candidates : t.candidates.Nodup := by
  refine List.Nodup.map_on (fun n hn m hm h => ?_) List.nodup_range
  rw [← toNat_of_lt (List.mem_range.1 hn), ← toNat_of_lt (List.mem_range.1 hm)]
  exact congrArg (fun id => id.val.toNat) h

private theorem last_notMem_candidates : NodeId.last ∉ t.candidates := by
  intro h
  obtain ⟨n, hn, h⟩ := List.mem_map.1 h
  have hn := List.mem_range.1 hn
  have hlast : n = NodeId.last.val.toNat := by rw [← h, toNat_of_lt hn]
  omega

/-- If every candidate is in use, there are so many nodes that only the last number can be free. -/
private theorem last_le_length (h : t.candidates ⊆ t.ids) :
    NodeId.last.val.toNat ≤ t.nodes.length := by
  have hle := nodup_candidates.length_le_of_subset h
  simp only [candidates, ids, List.length_map, List.length_range] at hle
  omega

private theorem lowestFree_eq :
    t.lowestFree = (t.candidates.find? fun id => !t.hasNode id).getD .last := rfl

private theorem candidates_subset_ids (h : (t.candidates.find? fun id => !t.hasNode id) = none) :
    t.candidates ⊆ t.ids := fun _ hid => by
  have := List.find?_eq_none.1 h _ hid
  simpa [hasNode_eq_true_iff] using this

/-- With fewer nodes than numbers, some number below the last one is free, or the last one is. -/
theorem lowestFree_notMem_ids (h : t.nodes.length < UInt32.size) : t.lowestFree ∉ t.ids := by
  rw [lowestFree_eq]
  cases hf : t.candidates.find? fun id => !t.hasNode id with
  | some id =>
    have hid := List.find?_some hf
    simpa [hasNode_eq_false_iff] using hid
  | none =>
    have hused := candidates_subset_ids hf
    -- with the last number in use as well there would be more numbers in use than nodes
    intro hlast
    have hle := (List.nodup_cons.2 ⟨last_notMem_candidates, nodup_candidates⟩).length_le_of_subset
      (List.cons_subset.2 ⟨hlast, hused⟩)
    have hmany := last_le_length hused
    have hsize : UInt32.size = NodeId.last.val.toNat + 1 := rfl
    simp only [candidates, ids, List.length_cons, List.length_map, List.length_range] at hle
    omega

/-- Every number below the lowest free one is in use. -/
theorem lowestFree_le {id : NodeId} (hid : id ∉ t.ids) : t.lowestFree.val ≤ id.val := by
  have hfree : (!t.hasNode id) = true := by rw [hasNode_eq_false_iff.2 hid, Bool.not_false]
  rw [lowestFree_eq, UInt32.le_iff_toNat_le]
  by_contra hlt
  rw [Nat.not_le] at hlt
  cases hf : t.candidates.find? fun id => !t.hasNode id with
  | some first =>
    -- the candidates are tried from the lowest one on, so the number would have come first
    rw [hf, Option.getD_some] at hlt
    rw [candidates, List.find?_map] at hf
    obtain ⟨n, hn, rfl⟩ := Option.map_eq_some_iff.1 hf
    obtain ⟨-, hmem, hbelow⟩ := List.find?_range_eq_some.1 hn
    rw [toNat_of_lt (List.mem_range.1 hmem)] at hlt
    have hused := hbelow id.val.toNat hlt
    rw [Function.comp_apply, UInt32.ofNat_toNat, hfree] at hused
    cases hused
  | none =>
    rw [hf, Option.getD_none] at hlt
    have hmany := last_le_length (candidates_subset_ids hf)
    have hmem : id ∈ t.candidates := by
      refine List.mem_map.2 ⟨id.val.toNat, List.mem_range.2 ?_, by rw [UInt32.ofNat_toNat]⟩
      omega
    exact hid (candidates_subset_ids hf hmem)

/-- The number of a new node is not in use. -/
theorem freshId_notMem_ids (ht : t.CounterAhead)
    (h : t.counter = .last → t.nodes.length < UInt32.size) : t.freshId ∉ t.ids := by
  rw [freshId]
  split <;> rename_i hc
  · exact lowestFree_notMem_ids (h hc)
  · exact fun hm => Nat.lt_irrefl _ (ht hc _ hm)

/-- The counter stays ahead if it is moved beyond each new number. -/
private theorem CounterAhead.append {id : NodeId} (ht : t.CounterAhead)
    (hids : u.ids = t.ids ++ [id]) (hmono : t.counter.val.toNat ≤ u.counter.val.toNat)
    (hnext : id.next.val.toNat ≤ u.counter.val.toNat) : u.CounterAhead := by
  intro hu i hi
  rw [hids, List.mem_append, List.mem_singleton] at hi
  rcases hi with hi | rfl
  · exact Nat.lt_of_lt_of_le (ht (NodeId.ne_last_of_le hu hmono) i hi) hmono
  · have hne := NodeId.ne_last_of_le hu (Nat.le_trans NodeId.toNat_le_next hnext)
    rw [NodeId.toNat_next hne] at hnext
    exact hnext

/-! ## What each operation keeps -/

namespace Invariant

theorem ofName (name : String) : (ofName name).Invariant where
  nodup_ids := List.nodup_nil
  nodup_connections := List.nodup_nil
  source_ne_target _ hc := nomatch hc
  source_mem _ hc := nomatch hc
  target_mem _ hc := nomatch hc
  counterAhead _ _ hid := nomatch hid

/-- A trigger that gets a node with a new number, and otherwise at most a higher counter. -/
private theorem appendNode {n : Node} (ht : t.Invariant) (hn : n.id ∉ t.ids)
    (hnodes : u.nodes = t.nodes ++ [n]) (hcs : u.connections = t.connections)
    (hu : u.CounterAhead) : u.Invariant := by
  have hids : u.ids = t.ids ++ [n.id] := by rw [ids, ids, hnodes, List.map_append]; rfl
  have hmem : ∀ id ∈ t.ids, id ∈ u.ids := fun id hid => hids ▸ List.mem_append_left _ hid
  refine ⟨⟨?_, ?_, ?_, ?_, ?_⟩, hu⟩
  · rw [hids, ← List.concat_eq_append]
    exact ht.nodup_ids.concat hn
  · exact hcs ▸ ht.nodup_connections
  · exact hcs ▸ ht.source_ne_target
  · exact fun c hc => hmem _ (ht.source_mem c (hcs ▸ hc))
  · exact fun c hc => hmem _ (ht.target_mem c (hcs ▸ hc))

/-- A new node gets a number that no node has, whether the counter still runs or is used up. -/
theorem addNode (ht : t.Invariant) (h : t.nodes.length < UInt32.size) (label : String) :
    (t.addNode label).Invariant := by
  refine ht.appendNode (n := ⟨t.freshId, .ofLabel label⟩)
    (freshId_notMem_ids ht.counterAhead fun _ => h) rfl rfl
    (ht.counterAhead.append (t.ids_addNode label) NodeId.toNat_le_next ?_)
  change t.freshId.next.val.toNat ≤ t.counter.next.val.toNat
  by_cases hc : t.counter = .last
  · rw [hc]
    exact NodeId.toNat_le_last _
  · have hfresh : t.freshId = t.counter := if_neg hc
    exact Nat.le_of_eq (congrArg (·.next.val.toNat) hfresh)

/-- Loading a node is refused if its number is taken, and raises the counter above it otherwise. -/
theorem insertNode {n : Node} (ht : t.Invariant) (h : t.insertNode n = .ok u) : u.Invariant := by
  rw [GraphTrigger.insertNode] at h
  split at h <;> rename_i hn
  · cases h
  cases h
  rw [hasNode_eq_true_iff] at hn
  have hids : (t.nodes ++ [n]).map Node.id = t.ids ++ [n.id] := List.map_append
  refine ht.appendNode hn rfl rfl (ht.counterAhead.append hids ?_ ?_) <;> dsimp only <;>
    split <;> rename_i hlt <;> rw [UInt32.lt_iff_toNat_lt] at hlt <;> omega

/-- Fewer connections keep the invariant, as long as none of them has lost an end. -/
private theorem restrict (ht : t.Invariant) (hids : u.ids.Sublist t.ids)
    (hcs : u.connections.Sublist t.connections) (hc : u.counter = t.counter)
    (hends : ∀ c ∈ u.connections, c.source ∈ u.ids ∧ c.target ∈ u.ids) : u.Invariant where
  nodup_ids := ht.nodup_ids.sublist hids
  nodup_connections := ht.nodup_connections.sublist hcs
  source_ne_target c hmem := ht.source_ne_target c (hcs.subset hmem)
  source_mem c hmem := (hends c hmem).1
  target_mem c hmem := (hends c hmem).2
  counterAhead hu id hid := by
    rw [hc] at hu ⊢
    exact ht.counterAhead hu id (hids.subset hid)

/-- The connections at the node go with it, so that none is left without an end. -/
theorem removeNode {id : NodeId} {n : Node} (ht : t.Invariant)
    (h : t.removeNode id = .ok (n, u)) : u.Invariant := by
  rw [GraphTrigger.removeNode] at h
  split at h
  · cases h
    refine ht.restrict (List.eraseP_sublist.map _) List.filter_sublist rfl fun c hc => ?_
    obtain ⟨hc, hid⟩ := List.mem_filter.1 hc
    simp only [Connection.touches, Bool.not_eq_true', Bool.or_eq_false_iff, beq_eq_false_iff_ne]
      at hid
    exact ⟨mem_ids_eraseP (ht.source_mem c hc) hid.1, mem_ids_eraseP (ht.target_mem c hc) hid.2⟩
  · cases h

/-- A connection is added only between two nodes that are there, and only if it is new. -/
theorem connect {c : Connection} {added : Bool} (ht : t.Invariant)
    (h : t.connect c = .ok (added, u)) : u.Invariant := by
  rw [GraphTrigger.connect] at h
  split at h <;> rename_i hs
  · cases h
  split at h <;> rename_i ht'
  · cases h
  split at h <;> rename_i hnew <;> cases h
  · exact ht
  simp only [Bool.not_eq_true', Bool.not_eq_false, hasNode_eq_true_iff] at hs ht'
  simp only [hasConnection_eq_true_iff, not_or] at hnew
  have hcs : ∀ {P : Connection → Prop}, (∀ d ∈ t.connections, P d) → P c →
      ∀ d ∈ t.connections ++ [c], P d := fun h hc => List.forall_mem_append.2 ⟨h, by simpa using hc⟩
  refine ⟨⟨ht.nodup_ids, ?_, ?_, ?_, ?_⟩, ht.counterAhead⟩
  · rw [← List.concat_eq_append]
    exact ht.nodup_connections.concat hnew.2
  · exact hcs ht.source_ne_target hnew.1
  · exact hcs ht.source_mem hs
  · exact hcs ht.target_mem ht'

theorem disconnect (ht : t.Invariant) (c : Connection) : (t.disconnect c).2.Invariant :=
  ht.restrict (List.Sublist.refl _) List.filter_sublist rfl fun d hd =>
    have hd := (List.mem_filter.1 hd).1
    ⟨ht.source_mem d hd, ht.target_mem d hd⟩

/-- The turned connection has the same two ends, and is refused if it is there already. -/
theorem reverse (ht : t.Invariant) (c : Connection) : (t.reverse c).2.Invariant := by
  rw [GraphTrigger.reverse]
  split <;> rename_i hflip
  · exact ht
  rw [hasConnection_eq_true_iff] at hflip
  -- a connection of the result was there before, or it is the other direction of one that was
  have hcs : ∀ {P : Connection → Prop}, (∀ d ∈ t.connections, P d ∧ P d.flip) →
      ∀ d ∈ replaceFirst (· == c) Connection.flip t.connections, P d := by
    intro P h d hd
    rcases of_mem_replaceFirst hd with hd | ⟨e, he, -, rfl⟩
    · exact (h d hd).1
    · exact (h e he).2
  refine ⟨⟨ht.nodup_ids, ?_, ?_, ?_, ?_⟩, ht.counterAhead⟩
  · refine nodup_replaceFirst ht.nodup_connections fun d _ hd => ?_
    rwa [eq_of_beq hd]
  · exact hcs fun d hd => ⟨ht.source_ne_target d hd, (ht.source_ne_target d hd).symm⟩
  · exact hcs fun d hd => ⟨ht.source_mem d hd, ht.target_mem d hd⟩
  · exact hcs fun d hd => ⟨ht.target_mem d hd, ht.source_mem d hd⟩

/-- The invariant is about the numbers of the nodes, the connections and the counter alone. -/
theorem congr (ht : t.Invariant) (hids : u.ids = t.ids) (hcs : u.connections = t.connections)
    (hc : u.counter = t.counter) : u.Invariant :=
  ht.restrict (hids ▸ List.Sublist.refl _) (hcs ▸ List.Sublist.refl _) hc fun c hmem => by
    rw [hcs] at hmem
    rw [hids]
    exact ⟨ht.source_mem c hmem, ht.target_mem c hmem⟩

theorem updateNode {id : NodeId} {f : Node → Node} (ht : t.Invariant)
    (hf : ∀ n, n.id = id → (f n).id = id) : (t.updateNode id f).Invariant :=
  ht.congr (ids_updateNode hf) rfl rfl

/-- A loaded trigger was built by the operations, from one without nodes. -/
theorem load {s : StoredTrigger} (h : s.load = .ok t) : t.Invariant := by
  obtain ⟨loaded, hnodes, hcs⟩ := Except.bind_eq_ok_iff.1 h
  have hloaded : loaded.Invariant := by
    refine Except.foldlM_ok_of_step (fun _ _ _ => insertNode) ?_ hnodes
    exact (ofName s.name).congr rfl rfl rfl
  refine Except.foldlM_ok_of_step (fun a c b ha hb => ?_) hloaded hcs
  obtain ⟨⟨added, _⟩, hconnect, rfl⟩ := Except.map_eq_ok_iff.1 hb
  exact ha.connect hconnect

/-- A new trigger begins with two connected nodes. -/
theorem starter (name : String) : (starter name).Invariant := by
  have hids : (GraphTrigger.starter name).ids = [⟨0⟩, ⟨1⟩] := rfl
  have hcs : (GraphTrigger.starter name).connections = [⟨⟨0⟩, ⟨1⟩⟩] := rfl
  have hc : (GraphTrigger.starter name).counter = ⟨2⟩ := rfl
  refine ⟨⟨?_, ?_, ?_, ?_, ?_⟩, ?_⟩
  · rw [hids]
    decide
  · rw [hcs]
    exact List.nodup_singleton _
  · rw [hcs]
    decide
  · rw [hids, hcs]
    decide
  · rw [hids, hcs]
    decide
  · rw [CounterAhead, hids, hc]
    decide

end Invariant
end GraphTrigger
end FactoryScript
