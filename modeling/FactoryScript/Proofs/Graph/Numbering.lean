import FactoryScript.Proofs.Graph.Renaming
import FactoryScript.Proofs.Graph.Run
import FactoryScript.Proofs.Graph.Storage

/-!
# The numbers that a run gives

A trigger remembers no number that is gone, but its counter never moves back
(`Numbering.counter_le`). Hence, until it runs out, the counter is above every number that a node
has had in the course of a run, not only above those in use (`used_lt_counter`). Once it has run out
it stays so, and the least free number is taken. Either way nothing is connected to the number of a
new node, since connections end at nodes along every run, whatever the numbers of the nodes are
(`Connected.apply`).
-/

namespace FactoryScript.GraphTrigger

variable {first t u : GraphTrigger} {ops more : List Op} {op : Op} {id : NodeId}

/-! ## Runs as lists of operations -/

/-- The trigger after some operations. -/
def after (t : GraphTrigger) (ops : List Op) : GraphTrigger := ops.foldl (fun t op => op.apply t) t

/-- The number has been that of a node, before the first operation or after some of them. -/
def Used (first : GraphTrigger) (ops : List Op) (id : NodeId) : Prop :=
  ∃ done, done <+: ops ∧ id ∈ (first.after done).ids

/-- The operation is one on the trigger itself. Storing and loading give another trigger, whose
counter starts from the numbers that are left. -/
def Op.InPlace : Op → Prop
  | reload => False
  | addNode _ | removeNode _ | connect _ | disconnect _ | reverse _ | updateNode ..
  | change _ => True

theorem after_append (t : GraphTrigger) (ops more : List Op) :
    t.after (ops ++ more) = (t.after ops).after more := List.foldl_append

theorem after_concat (t : GraphTrigger) (ops : List Op) (op : Op) :
    t.after (ops ++ [op]) = op.apply (t.after ops) := after_append ..

theorem used_of_mem (h : id ∈ (first.after ops).ids) : Used first ops id :=
  ⟨ops, List.prefix_rfl, h⟩

theorem used_nil : Used first [] id ↔ id ∈ first.ids := by
  refine ⟨fun ⟨done, hdone, h⟩ => ?_, fun h => ⟨[], List.prefix_rfl, h⟩⟩
  rw [List.prefix_nil.1 hdone] at h
  exact h

theorem used_concat :
    Used first (ops ++ [op]) id ↔ id ∈ (op.apply (first.after ops)).ids ∨ Used first ops id := by
  simp only [Used, List.prefix_concat_iff, or_and_right, exists_or, exists_eq_left, after_concat]

theorem Used.append (h : Used first ops id) (more : List Op) : Used first (ops ++ more) id :=
  let ⟨done, hdone, hid⟩ := h
  ⟨done, hdone.trans (List.prefix_append ..), hid⟩

/-! ## What one operation does to the numbers -/

/-- Either no number comes in, or that of a new node does and the counter moves on. -/
inductive Numbering (t u : GraphTrigger) : Prop
  | kept (hcounter : u.counter = t.counter) (hids : u.ids ⊆ t.ids)
  | added (hcounter : u.counter = t.counter.next) (hids : u.ids = t.ids ++ [t.freshId])

/-- An operation that adds and removes no node leaves counter and numbers alone. -/
theorem Op.InPlace.numbering (h : op.InPlace) (t : GraphTrigger) : Numbering t (op.apply t) := by
  have hsame : Numbering t t := .kept rfl (List.Subset.refl _)
  cases op with
  | addNode label => exact .added rfl (t.ids_addNode label)
  | removeNode id =>
    refine orSame_of hsame fun u hu => ?_
    obtain ⟨⟨n, _⟩, hremoved, rfl⟩ := Except.map_eq_ok_iff.1 hu
    rw [GraphTrigger.removeNode] at hremoved
    split at hremoved <;> cases hremoved
    exact .kept rfl (List.map_subset _ List.eraseP_subset)
  | connect c =>
    refine orSame_of hsame fun u hu => ?_
    obtain ⟨⟨_, _⟩, hconnected, rfl⟩ := Except.map_eq_ok_iff.1 hu
    rw [GraphTrigger.connect] at hconnected
    split_ifs at hconnected <;> cases hconnected
    · exact hsame
    · exact .kept rfl (List.Subset.refl _)
  | disconnect | change => exact .kept rfl (List.Subset.refl _)
  | reverse c =>
    rw [Op.apply, GraphTrigger.reverse]
    split
    · exact hsame
    · exact .kept rfl (List.Subset.refl _)
  | updateNode id f keepsId =>
    exact .kept rfl fun i hi => ids_updateNode keepsId ▸ hi
  | reload => cases h

namespace Numbering

theorem counter_le (h : Numbering t u) : t.counter.val.toNat ≤ u.counter.val.toNat := by
  cases h with
  | kept hcounter => rw [hcounter]
  | added hcounter => rw [hcounter]; exact NodeId.toNat_le_next

theorem counter_ne_last (h : Numbering t u) (hu : u.counter ≠ .last) : t.counter ≠ .last :=
  NodeId.ne_last_of_le hu h.counter_le

theorem mem_ids (h : Numbering t u) (hid : id ∈ u.ids) : id ∈ t.ids ∨ id = t.freshId := by
  cases h with
  | kept _ hids => exact .inl (hids hid)
  | added _ hids =>
    rw [hids, List.mem_append, List.mem_singleton] at hid
    exact hid

/-- What is below the counter stays below it, and so does a new number, until the counter runs
out. -/
theorem lt_counter (h : Numbering t u) (hu : u.counter ≠ .last)
    (hid : id.val.toNat < t.counter.val.toNat ∨ id ∈ u.ids)
    (ht : ∀ id ∈ t.ids, id.val.toNat < t.counter.val.toNat) :
    id.val.toNat < u.counter.val.toNat := by
  rcases hid with hid | hid
  · exact Nat.lt_of_lt_of_le hid h.counter_le
  cases h with
  | kept hcounter hids =>
    rw [hcounter]
    exact ht id (hids hid)
  | added hcounter hids =>
    have hne : t.counter ≠ .last := (added hcounter hids).counter_ne_last hu
    have hfresh : t.freshId = t.counter := if_neg hne
    rw [hids, hfresh, List.mem_append, List.mem_singleton] at hid
    rw [hcounter, NodeId.toNat_next hne]
    rcases hid with hid | rfl
    · exact Nat.lt_succ_of_lt (ht id hid)
    · exact Nat.lt_succ_self _

end Numbering

/-! ## Connections end at nodes -/

/-- One operation keeps the ends of the connections among the nodes. Distinct numbers are not asked
for, so this holds even where more nodes have been added than there are numbers. -/
theorem Connected.apply (ht : t.Connected) (op : Op) : (op.apply t).Connected := by
  cases op with
  | addNode label =>
    intro c hc
    rw [Op.apply, ids_addNode]
    exact ⟨List.mem_append_left _ (ht c hc).1, List.mem_append_left _ (ht c hc).2⟩
  | removeNode id =>
    refine orSame_of ht fun u hu => ?_
    obtain ⟨⟨n, _⟩, hremoved, rfl⟩ := Except.map_eq_ok_iff.1 hu
    rw [GraphTrigger.removeNode] at hremoved
    split at hremoved <;> cases hremoved
    intro c hc
    obtain ⟨hc, hid⟩ := List.mem_filter.1 hc
    rw [Connection.touches, Bool.not_or, Bool.and_eq_true, ← bne, ← bne, bne_iff_ne, bne_iff_ne]
      at hid
    exact ⟨mem_ids_eraseP (ht c hc).1 hid.1, mem_ids_eraseP (ht c hc).2 hid.2⟩
  | connect c =>
    refine orSame_of ht fun u hu => ?_
    obtain ⟨⟨_, _⟩, hconnected, rfl⟩ := Except.map_eq_ok_iff.1 hu
    rw [GraphTrigger.connect] at hconnected
    split_ifs at hconnected with hsource htarget <;> cases hconnected
    · exact ht
    rw [Bool.not_eq_true', Bool.not_eq_false, hasNode_eq_true_iff] at hsource htarget
    exact List.forall_mem_append.2 ⟨ht, by simpa using ⟨hsource, htarget⟩⟩
  | disconnect c => exact fun d hd => ht d (List.mem_filter.1 hd).1
  | reverse c =>
    rw [Op.apply, GraphTrigger.reverse]
    split
    · exact ht
    intro d hd
    rcases of_mem_replaceFirst hd with hd | ⟨e, he, -, rfl⟩
    · exact ht d hd
    · exact (ht e he).symm
  | updateNode id f keepsId =>
    intro c hc
    rw [Op.apply, ids_updateNode keepsId]
    exact ht c hc
  | change c => exact ht
  | reload => exact orSame_of ht fun u hu => (Invariant.load hu).connected

/-! ## Runs -/

theorem connected_after (hfirst : first.Connected) (ops : List Op) :
    (first.after ops).Connected :=
  List.foldlRecOn ops _ hfirst fun _ ht op _ => ht.apply op

theorem Initial.connected (h : Initial t) : t.Connected := h.invariant.connected

theorem counter_le_after (hmore : ∀ op ∈ more, op.InPlace) (t : GraphTrigger) :
    t.counter.val.toNat ≤ (t.after more).counter.val.toNat :=
  List.foldlRecOn (motive := fun u => t.counter.val.toNat ≤ u.counter.val.toNat) more _
    (Nat.le_refl _) fun u hu op hop => Nat.le_trans hu ((hmore op hop).numbering u).counter_le

/-- Until the counter runs out, it is above every number that a node has had. -/
theorem used_lt_counter (hfirst : first.CounterAhead) (hops : ∀ op ∈ ops, op.InPlace)
    (hc : (first.after ops).counter ≠ .last) (hid : Used first ops id) :
    id.val.toNat < (first.after ops).counter.val.toNat := by
  induction ops using List.reverseRecOn generalizing id with
  | nil => exact hfirst hc id (used_nil.1 hid)
  | append_singleton ops op ih =>
    obtain ⟨hops, hop⟩ := List.forall_mem_append.1 hops
    have hstep := (hop op List.mem_cons_self).numbering (first.after ops)
    rw [after_concat] at hc ⊢
    have ih : ∀ id, Used first ops id → id.val.toNat < (first.after ops).counter.val.toNat :=
      fun _ hid => ih hops (hstep.counter_ne_last hc) hid
    exact hstep.lt_counter hc ((used_concat.1 hid).symm.imp_left (ih id))
      fun i hi => ih i (used_of_mem hi)

theorem freshId_of_counter_ne_last (h : t.counter ≠ .last) : t.freshId = t.counter := if_neg h

/-- A number that is gone is not the next one to be given. -/
theorem notMem_apply_of_used (hfirst : first.CounterAhead) (hops : ∀ op ∈ ops, op.InPlace)
    (hop : op.InPlace) (hc : (first.after ops).counter ≠ .last) (hid : Used first ops id)
    (hgone : id ∉ (first.after ops).ids) : id ∉ (op.apply (first.after ops)).ids := by
  intro hmem
  rcases (hop.numbering _).mem_ids hmem with hmem | rfl
  · exact hgone hmem
  · have hlt := used_lt_counter hfirst hops hc hid
    rw [freshId_of_counter_ne_last hc] at hlt
    exact Nat.lt_irrefl _ hlt

/-- Nor does it come back later. -/
theorem notMem_after_of_used (hfirst : first.CounterAhead) (hops : ∀ op ∈ ops, op.InPlace)
    (hmore : ∀ op ∈ more, op.InPlace) (hc : (first.after (ops ++ more)).counter ≠ .last)
    (hid : Used first ops id) (hgone : id ∉ (first.after ops).ids) :
    id ∉ (first.after (ops ++ more)).ids := by
  induction more using List.reverseRecOn with
  | nil => rwa [List.append_nil]
  | append_singleton more op ih =>
    obtain ⟨hmore, hop⟩ := List.forall_mem_append.1 hmore
    have hop := hop op List.mem_cons_self
    rw [← List.append_assoc, after_concat] at hc ⊢
    have hbefore := (hop.numbering _).counter_ne_last hc
    exact notMem_apply_of_used hfirst (List.forall_mem_append.2 ⟨hops, hmore⟩) hop hbefore
      (hid.append more) (ih hmore hbefore)

/-- What a run leads to, seen by the numbers of nodes. -/
structure NumbersFresh (first : GraphTrigger) (ops : List Op) (t : GraphTrigger) : Prop where
  /-- Until the counter has run out, a new number is above every number that a node has had. -/
  above : t.counter ≠ .last → ∀ id, Used first ops id → id.val < t.freshId.val
  /-- So a number that is gone does not come back until then. -/
  gone (id : NodeId) : Used first ops id → id ∉ t.ids → ∀ (more : List Op) (op : Op),
    (∀ op ∈ more, op.InPlace) → op.InPlace → (t.after more).counter ≠ .last →
    id ∉ (op.apply (t.after more)).ids
  /-- A counter that has run out stays so. -/
  exhausted : t.counter = .last → ∀ more : List Op, (∀ op ∈ more, op.InPlace) →
    (t.after more).counter = .last
  /-- The lowest number that no node has is given from then on. -/
  lowest : t.counter = .last → t.nodes.length < UInt32.size →
    t.freshId ∉ t.ids ∧ ∀ id, id ∉ t.ids → t.freshId.val ≤ id.val
  /-- A new node is the last one, and all other nodes, the connections and the block stay. -/
  appended (label : String) :
    (t.addNode label).nodes = t.nodes ++ [⟨t.freshId, .ofLabel label⟩] ∧
      (t.addNode label).connections = t.connections ∧ (t.addNode label).block? = t.block?
  /-- Nothing is connected to it. -/
  unconnected : (t.counter = .last → t.nodes.length < UInt32.size) →
    ∀ c ∈ t.connections, c.source ≠ t.freshId ∧ c.target ≠ t.freshId

/-- In every run of operations in place, from a new trigger or a loaded one, new nodes get numbers
that no node has had before, until the counter runs out; from then on they get the lowest number
that no node has. Neither changes what was there. -/
theorem numbersFresh_of_run (hfirst : Initial first) (hops : ∀ op ∈ ops, op.InPlace) :
    NumbersFresh first ops (first.after ops) := by
  have hahead := hfirst.invariant.counterAhead
  have hconnected := connected_after hfirst.connected ops
  refine ⟨fun hc id hid => ?_, fun id hid hgone more op hmore hop hc => ?_, fun hc more hmore => ?_,
    fun hc hlength => ?_, fun label => ?_, fun hlength c hmem => ?_⟩
  · rw [freshId_of_counter_ne_last hc, UInt32.lt_iff_toNat_lt]
    exact used_lt_counter hahead hops hc hid
  · rw [← after_append] at hc ⊢
    exact notMem_apply_of_used hahead (List.forall_mem_append.2 ⟨hops, hmore⟩) hop hc
      (hid.append more) (notMem_after_of_used hahead hops hmore hc hid hgone)
  · by_contra hne
    exact NodeId.ne_last_of_le hne (counter_le_after hmore _) hc
  · have hfresh : (first.after ops).freshId = (first.after ops).lowestFree := if_pos hc
    rw [hfresh]
    exact ⟨lowestFree_notMem_ids hlength, fun id hid => lowestFree_le hid⟩
  · exact ⟨rfl, rfl, block?_append_nodes (connected_iff.1 hconnected) rfl rfl rfl rfl⟩
  · have hfresh : (first.after ops).freshId ∉ (first.after ops).ids :=
      freshId_notMem_ids (fun hc id hid => used_lt_counter hahead hops hc (used_of_mem hid)) hlength
    exact ⟨ne_of_mem_of_not_mem (hconnected c hmem).1 hfresh,
      ne_of_mem_of_not_mem (hconnected c hmem).2 hfresh⟩

/-- A trigger whose counter runs out with the next node. -/
def nearlyExhausted : GraphTrigger :=
  ⟨"", .scheduled, 20, [⟨⟨4294967293⟩, .ofLabel "a"⟩], [], ⟨4294967294⟩⟩

/-- The last number of the counter is above the one that is in use. Then the lowest free number
comes next, although another one has been used and is free again. -/
theorem numbersFresh_turnover :
    let ops : List Op := [.addNode "b", .removeNode ⟨4294967293⟩]
    let t := nearlyExhausted.after ops
    nearlyExhausted.toStored.load = .ok nearlyExhausted ∧ (∀ op ∈ ops, op.InPlace) ∧
      (4294967293 : UInt32) < nearlyExhausted.freshId.val ∧ t.counter = .last ∧
      t.freshId = ⟨0⟩ ∧ t.freshId ∉ t.ids ∧ (t.addNode "c").block? = t.block? := by
  intro ops t
  have hload : nearlyExhausted.toStored.load = .ok nearlyExhausted := rfl
  have hops : ∀ op ∈ ops, op.InPlace := by simp [ops, Op.InPlace]
  have hfirst : NumbersFresh nearlyExhausted [] nearlyExhausted :=
    numbersFresh_of_run (.load hload) (List.forall_mem_nil _)
  have hafter : NumbersFresh nearlyExhausted ops t := numbersFresh_of_run (.load hload) hops
  exact ⟨hload, hops, hfirst.above (by decide) _ (used_nil.2 (by decide)), rfl, rfl,
    (hafter.lowest rfl (by decide)).1, (hafter.appended "c").2.2⟩

end FactoryScript.GraphTrigger
