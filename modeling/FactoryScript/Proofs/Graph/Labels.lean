import FactoryScript.Graph.Basic
import Mathlib.Data.List.Nodup

/-!
# The labels of new nodes

A node that is added without a label of its own gets the first letter that is free, and `x` if none
is. The free letters of a trigger tell all labels that it will give in this way: each new node takes
the first of them away (`freeLetters_addNode_freeLabel`), so a run of additions goes through the
list in its order and comes to its end once the last letter has been taken
(`labels_given_in_order`).
-/

namespace FactoryScript.GraphTrigger

variable {t : GraphTrigger} {s : String}

def labels (t : GraphTrigger) : List String := t.nodes.map fun n => n.endpoint.label

/-- The letters that label no node, in alphabetical order. -/
def freeLetters (t : GraphTrigger) : List String := letters.filter fun s => s ∉ t.labels

/-- Adds some nodes, each with the label that is free for it. -/
def addNodes (t : GraphTrigger) : Nat → GraphTrigger
  | 0 => t
  | n + 1 => (t.addNode t.freeLabel).addNodes n

/-- The free letters in their order, and then `x`. -/
def newLabels (t : GraphTrigger) (n : Nat) : List String :=
  t.freeLetters.take n ++ List.replicate (n - t.freeLetters.length) "x"

/-! ## Free letters -/

theorem mem_freeLetters_iff : s ∈ t.freeLetters ↔ s ∈ letters ∧ s ∉ t.labels := by
  rw [freeLetters, List.mem_filter, decide_eq_true_iff]

theorem freeLetters_ne_nil_iff : t.freeLetters ≠ [] ↔ ∃ s ∈ letters, s ∉ t.labels := by
  constructor
  · intro h
    obtain ⟨s, hs⟩ := List.exists_mem_of_ne_nil _ h
    exact ⟨s, mem_freeLetters_iff.1 hs⟩
  · rintro ⟨s, hs⟩
    exact List.ne_nil_of_mem (mem_freeLetters_iff.2 hs)

theorem nodup_freeLetters (t : GraphTrigger) : t.freeLetters.Nodup := by
  have hletters : letters.Nodup := by decide
  exact hletters.filter _

theorem isNone_nodeByLabel? (t : GraphTrigger) (s : String) :
    (t.nodeByLabel? s).isNone = decide (s ∉ t.labels) := by
  rw [Bool.eq_iff_iff, decide_eq_true_iff]
  simp [nodeByLabel?, labels]

theorem freeLabel_eq (t : GraphTrigger) : t.freeLabel = t.freeLetters.headD "x" := by
  simp only [freeLabel, isNone_nodeByLabel?, freeLetters, ← List.head?_filter,
    List.headD_eq_head?_getD]

/-- A label that is given while a letter is free is that of no node. -/
theorem freeLabel_notMem (h : t.freeLetters ≠ []) : t.freeLabel ∉ t.labels := by
  obtain ⟨s, rest, hfree⟩ := List.exists_cons_of_ne_nil h
  have hs : s ∈ t.freeLetters := hfree ▸ List.mem_cons_self
  rw [freeLabel_eq, hfree, List.headD_cons]
  exact (mem_freeLetters_iff.1 hs).2

/-! ## One node -/

theorem labels_addNode (t : GraphTrigger) (s : String) :
    (t.addNode s).labels = t.labels ++ [s] := List.map_append

theorem freeLetters_addNode (t : GraphTrigger) (s : String) :
    (t.addNode s).freeLetters = t.freeLetters.filter (· ≠ s) := by
  rw [freeLetters, freeLetters, List.filter_filter]
  refine List.filter_congr fun u _ => ?_
  rw [labels_addNode, Bool.eq_iff_iff]
  simp [and_comm]

/-- A new node takes the first free letter away. -/
theorem freeLetters_addNode_freeLabel (t : GraphTrigger) :
    (t.addNode t.freeLabel).freeLetters = t.freeLetters.tail := by
  rw [freeLetters_addNode, freeLabel_eq]
  have hnodup := t.nodup_freeLetters
  cases hfree : t.freeLetters with
  | nil => rfl
  | cons s rest =>
    rw [hfree] at hnodup
    have hs : s ∉ rest := (List.nodup_cons.1 hnodup).1
    rw [List.headD_cons, List.tail_cons, List.filter_cons_of_neg (by simp), List.filter_eq_self]
    intro u hu
    exact decide_eq_true (ne_of_mem_of_not_mem hu hs)

theorem newLabels_succ (t : GraphTrigger) (n : Nat) :
    t.newLabels (n + 1) = t.freeLabel :: (t.addNode t.freeLabel).newLabels n := by
  rw [newLabels, newLabels, freeLetters_addNode_freeLabel, freeLabel_eq]
  cases t.freeLetters with
  | nil => simp [List.replicate_succ]
  | cons s rest => simp

/-! ## Several nodes -/

theorem freeLetters_addNodes (t : GraphTrigger) (n : Nat) :
    (t.addNodes n).freeLetters = t.freeLetters.drop n := by
  induction n generalizing t with
  | zero => rfl
  | succ n ih => rw [addNodes, ih, freeLetters_addNode_freeLabel, List.drop_tail]

/-- A run of additions appends nodes and moves the counter on. Each node is like one that is added
by itself to the trigger that has come about so far. -/
theorem exists_addNodes_eq (t : GraphTrigger) (n : Nat) : ∃ new : List Node,
    t.addNodes n =
      { t with nodes := t.nodes ++ new, counter := (t.addNodes n).counter } ∧
    new.map Node.id = (List.range n).map (fun i => (t.addNodes i).freshId) ∧
    new.map Node.endpoint = (t.newLabels n).map Endpoint.ofLabel := by
  induction n generalizing t with
  | zero => exact ⟨[], by simp [addNodes], rfl, by simp [newLabels]⟩
  | succ n ih =>
    obtain ⟨new, heq, hids, hendpoints⟩ := ih (t.addNode t.freeLabel)
    refine ⟨⟨t.freshId, .ofLabel t.freeLabel⟩ :: new, ?_, ?_, ?_⟩
    · rw [addNodes, heq]
      simp [addNode]
    · rw [List.map_cons, hids, List.range_succ_eq_map, List.map_cons, List.map_map]
      rfl
    · rw [List.map_cons, hendpoints, newLabels_succ, List.map_cons]

/-- The labels of nodes that are added one by one come after those that are there. -/
theorem labels_addNodes (t : GraphTrigger) (n : Nat) :
    (t.addNodes n).labels = t.labels ++ t.newLabels n := by
  obtain ⟨new, heq, -, hendpoints⟩ := t.exists_addNodes_eq n
  have hnew : new.map (fun n => n.endpoint.label) = t.newLabels n := by
    have h := congrArg (List.map Endpoint.label) hendpoints
    rw [List.map_map, List.map_map] at h
    exact h.trans (List.map_id _)
  rw [heq, labels, List.map_append, hnew]
  rfl

/-- A letter that has been given labels one node, as long as no further node is called `x`. -/
theorem count_labels_addNodes {n : Nat} (hs : s ∈ t.freeLetters.take n)
    (h : n ≤ t.freeLetters.length ∨ s ≠ "x") : (t.addNodes n).labels.count s = 1 := by
  have hold : t.labels.count s = 0 :=
    List.count_eq_zero.2 (mem_freeLetters_iff.1 (List.mem_of_mem_take hs)).2
  have hnew : (t.freeLetters.take n).count s = 1 :=
    List.count_eq_one_of_mem (t.nodup_freeLetters.sublist (List.take_sublist ..)) hs
  have hfurther : (List.replicate (n - t.freeLetters.length) "x").count s = 0 := by
    rw [List.count_replicate]
    rcases h with h | h
    · rw [Nat.sub_eq_zero_of_le h, ite_self]
    · rw [if_neg (by simpa using h.symm)]
  rw [labels_addNodes, newLabels, List.count_append, List.count_append, hold, hnew, hfurther]

/-- What adding some nodes with free labels makes of a trigger. -/
structure LabelsInOrder (t : GraphTrigger) (n : Nat) : Prop where
  /-- The new nodes come after the old ones, and nothing else changes but the counter. They have the
  free letters as labels, in alphabetical order, and `x` after the last one. -/
  appended : ∃ new : List Node,
    t.addNodes n = { t with nodes := t.nodes ++ new, counter := (t.addNodes n).counter } ∧
      new.map Node.id = (List.range n).map (fun i => (t.addNodes i).freshId) ∧
      new.map Node.endpoint = (t.freeLetters.take n ++
        List.replicate (n - t.freeLetters.length) "x").map Endpoint.ofLabel
  /-- How many nodes can be added before all letters are taken. -/
  letter_left_iff : (∃ s ∈ letters, s ∉ (t.addNodes n).labels) ↔ n < t.freeLetters.length
  /-- Until then the next label is that of no node. -/
  unused : (∃ s ∈ letters, s ∉ (t.addNodes n).labels) →
    (t.addNodes n).freeLabel ∉ (t.addNodes n).labels
  /-- A letter that has been given stays with its node alone. For `x` this holds until all letters
  are taken. -/
  unique : ∀ s ∈ t.freeLetters.take n, n ≤ t.freeLetters.length ∨ s ≠ "x" →
    (t.addNodes n).labels.count s = 1

/-- Whatever labels the nodes of a trigger have, those that are added get the letters that are free
at the start, one after the other, and then `x`. While there are free letters, no label is given
twice; and what was there is not touched. -/
theorem labels_given_in_order (t : GraphTrigger) (n : Nat) : LabelsInOrder t n where
  appended := t.exists_addNodes_eq n
  letter_left_iff := by
    rw [← freeLetters_ne_nil_iff, freeLetters_addNodes, ne_eq, List.drop_eq_nil_iff, Nat.not_le]
  unused h := freeLabel_notMem (freeLetters_ne_nil_iff.2 h)
  unique _ := count_labels_addNodes

/-- One letter is taken, by two nodes. -/
def lettered : GraphTrigger :=
  ⟨"", .scheduled, 20, [⟨⟨0⟩, .ofLabel "b"⟩, ⟨⟨1⟩, .ofLabel "b"⟩, ⟨⟨2⟩, .ofLabel "ac"⟩],
    [⟨⟨0⟩, ⟨1⟩⟩], ⟨3⟩⟩

/-- The last of the other letters is `z`. Up to then there is one `x`, and after it another one. -/
theorem labels_given_in_order_lettered :
    (lettered.addNodes 24).freeLabel = "z" ∧ "z" ∉ (lettered.addNodes 24).labels ∧
      (lettered.addNodes 25).labels.count "x" = 1 ∧ (lettered.addNodes 26).labels.count "x" = 2 ∧
      (lettered.addNodes 26).labels.count "z" = 1 := by
  have hz : (lettered.addNodes 24).freeLabel = "z" := by decide
  have hleft := (labels_given_in_order lettered 24).letter_left_iff.2 (by decide)
  have hunused := (labels_given_in_order lettered 24).unused hleft
  refine ⟨hz, hz ▸ hunused, ?_, by decide, ?_⟩
  · exact (labels_given_in_order lettered 25).unique "x" (by decide) (.inl (by decide))
  · exact (labels_given_in_order lettered 26).unique "z" (by decide) (.inr (by decide))

end FactoryScript.GraphTrigger
