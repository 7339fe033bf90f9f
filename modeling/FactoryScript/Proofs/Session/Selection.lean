import FactoryScript.Proofs.Graph.Mutation
import FactoryScript.Proofs.Session.Graph

/-!
# The selected trigger

The selection of a graph session is a position, and what it stands for is a trigger. When another
trigger is removed, the position moves along with the trigger (`removedAt_removeTrigger`). A request
about nodes or connections is an operation on the trigger at that position and reaches no other one
(`changedAt_answer`): the numbers of nodes do not matter, which recur from trigger to trigger.
-/

namespace FactoryScript.GraphSession

variable {s s' : GraphSession} {i j : Nat} {t u : GraphTrigger}

/-! ## Removing a trigger -/

/-- Where the item at `j` stands once another one, at `i`, has been removed. -/
def placeWithout (i j : Nat) : Nat := if i < j then j - 1 else j

theorem getElem?_eraseIdx_placeWithout {α : Type} (l : List α) (h : j ≠ i) :
    (l.eraseIdx i)[placeWithout i j]? = l[j]? := by
  rw [placeWithout]
  split
  · have hj : j - 1 + 1 = j := by omega
    rw [List.getElem?_eraseIdx_of_ge (by omega), hj]
  · exact List.getElem?_eraseIdx_of_lt (by omega)

/-- One of the triggers is gone. The selection stands for the same trigger as before, or for the
first one if its trigger is gone. -/
structure RemovedAt (i : Nat) (s s' : GraphSession) : Prop where
  triggers : s'.triggers = s.triggers.eraseIdx i
  kept (j : Nat) : s.selected = some j → j ≠ i →
    s'.selected = some (placeWithout i j) ∧ s'.selectedTrigger? = s.selectedTrigger?
  first : s.selected = some i → s'.selected = if s'.triggers = [] then none else some 0

theorem session_removeTrigger (ht : s.triggers[i]? = some t) :
    (removeTrigger i s).session = showing (s.triggers.eraseIdx i)
      (selectionAfter i (s.triggers.eraseIdx i).length s.selected) := by
  unfold removeTrigger
  rw [Edit.session_bind_apply, ht]
  rfl

theorem result_removeTrigger (ht : s.triggers[i]? = some t) :
    (removeTrigger i s).result = .ok t := by
  unfold removeTrigger
  rw [Edit.session_bind_apply, ht]
  rfl

/-- Removing the selected trigger moves the selection along with what follows it. -/
theorem removedAt_removeTrigger (ht : s.triggers[i]? = some t) :
    RemovedAt i s (removeTrigger i s).session := by
  rw [session_removeTrigger ht]
  refine ⟨rfl, fun j hj hne => ?_, fun hi => ?_⟩
  · have hsel : selectionAfter i (s.triggers.eraseIdx i).length s.selected =
        some (placeWithout i j) := by
      rw [hj, selectionAfter, Option.bind_some, if_neg hne, ← apply_ite some]
      rfl
    refine ⟨hsel, ?_⟩
    rw [selectedTrigger?, showing, hsel, selectedTrigger?, hj, Option.bind_some, Option.bind_some]
    exact getElem?_eraseIdx_placeWithout s.triggers hne
  · rw [showing, hi, selectionAfter, Option.bind_some, if_pos rfl]
    simp only [List.length_eq_zero_iff]

/-! ## Changing the selected trigger -/

/-- The trigger at a position has become `u`, and all else is as before. -/
structure ChangedAt (j : Nat) (u : GraphTrigger) (s s' : GraphSession) : Prop where
  selected : s'.selected = s.selected
  length : s'.triggers.length = s.triggers.length
  changed : s'.triggers[j]? = some u
  others (k : Nat) : k ≠ j → s'.triggers[k]? = s.triggers[k]?

theorem ChangedAt.same (ht : s.triggers[j]? = some t) : ChangedAt j t s s :=
  ⟨rfl, rfl, ht, fun _ _ => rfl⟩

theorem ChangedAt.put (ht : s.triggers[j]? = some t) (u : GraphTrigger) :
    ChangedAt j u s (putTrigger j u s).session where
  selected := rfl
  length := List.length_set
  changed := List.getElem?_set_self (List.getElem?_eq_some_iff.1 ht).1
  others _ hk := List.getElem?_set_ne hk.symm

theorem ChangedAt.keepIf {changed : Bool} (ht : s.triggers[j]? = some t)
    (hu : changed = false → u = t) : ChangedAt j u s (keepIf j changed u s).session := by
  cases changed with
  | true => exact .put ht u
  | false =>
    rw [hu rfl, keepIf_unchanged ht]
    exact .same ht

/-- The operation on the selected trigger that a request about its nodes or connections is. -/
def Request.op? (t : GraphTrigger) : Request → Option GraphTrigger.Op
  | addNode => some (.addNode t.freeLabel)
  | removeNode id => some (.removeNode id)
  | updateNode id f => some (.updateNode id (fun n => { f n with id := id }) fun _ _ => rfl)
  | connect c => some (.connect c)
  | reverse c => some (.reverse c)
  | disconnect c => some (.disconnect c)
  | addTrigger | removeTrigger _ | select _ | updateTrigger .. => none

section
variable (hj : s.selected = some j) (ht : s.triggers[j]? = some t)
include hj ht

theorem changedAt_addNode :
    ChangedAt j (t.addNode t.freeLabel) s (addNode s).session := by
  unfold addNode
  rw [findsSelected_active.bind_apply hj ht]
  exact .put ht _

/-- A node is removed from the selected trigger only. -/
theorem changedAt_removeNode (id : NodeId) :
    ChangedAt j ((GraphTrigger.Op.removeNode id).apply t) s (removeNode id s).session := by
  unfold removeNode
  rw [findsSelected_active.bind_apply hj ht, GraphTrigger.Op.apply]
  dsimp only
  cases t.removeNode id with
  | error e => exact .same ht
  | ok removed => exact .put ht removed.2

theorem changedAt_updateNode (id : NodeId) (f : Node → Node) :
    ChangedAt j (t.updateNode id fun n => { f n with id := id }) s
      (updateNode id f s).session := by
  unfold updateNode
  rw [findsSelected_active.bind_apply hj ht]
  dsimp only
  split <;> rename_i h
  · exact .put ht _
  · rw [GraphTrigger.updateNode_of_notMem (mt GraphTrigger.hasNode_eq_true_iff.2 h)]
    exact .same ht

/-- A connection is made in the selected trigger only. -/
theorem changedAt_connect (c : Connection) :
    ChangedAt j ((GraphTrigger.Op.connect c).apply t) s (connect c s).session := by
  unfold connect
  rw [findsSelected_active.bind_apply hj ht, GraphTrigger.Op.apply]
  dsimp only
  cases h : t.connect c with
  | error e => exact .same ht
  | ok connected =>
    obtain ⟨added, u⟩ := connected
    refine .keepIf ht fun hadded => ?_
    cases hadded
    exact GraphTrigger.eq_of_connect h

theorem changedAt_reverse (c : Connection) :
    ChangedAt j (t.reverse c).2 s (reverse c s).session := by
  unfold reverse
  rw [findsSelected_active.bind_apply hj ht]
  refine .keepIf ht fun h => ?_
  exact GraphTrigger.reverse_of_false h

theorem changedAt_disconnect (c : Connection) :
    ChangedAt j (t.disconnect c).2 s (disconnect c s).session := by
  unfold disconnect
  rw [findsSelected_active.bind_apply hj ht]
  refine .keepIf ht fun h => ?_
  exact GraphTrigger.disconnect_of_false h

/-- All requests about nodes and connections change the selected trigger by their operation, and
nothing else. -/
theorem changedAt_answer {r : Request} {op : GraphTrigger.Op} (hop : r.op? t = some op) :
    ChangedAt j (op.apply t) s (r.answer s).session := by
  cases r with
  | addTrigger | removeTrigger | select | updateTrigger => cases hop
  | addNode =>
    cases hop
    rw [Request.answer, Edit.session_done]
    exact changedAt_addNode hj ht
  | removeNode id =>
    cases hop
    rw [Request.answer, Edit.session_done]
    exact changedAt_removeNode hj ht id
  | updateNode id f =>
    cases hop
    rw [Request.answer, Edit.session_done]
    exact changedAt_updateNode hj ht id f
  | connect c =>
    cases hop
    exact changedAt_connect hj ht c
  | reverse c =>
    cases hop
    exact changedAt_reverse hj ht c
  | disconnect c =>
    cases hop
    exact changedAt_disconnect hj ht c

end

/-! ## Runs -/

/-- A session begins with some triggers, be they ones that no document holds. (A fresh one begins
with none and is given one.) -/
def Begun (s : GraphSession) : Prop := ∃ triggers, s = (start triggers).session

/-- Some run leads to any session with a selection in range, so also to one whose triggers have been
changed in ways that no request stands for. -/
theorem reachable_showing {triggers : List GraphTrigger} {selected : Option Nat}
    (h : SelectionValid selected triggers.length) :
    Reachable Begun Editor.Answered (showing triggers selected) := by
  have hstart : Reachable Begun Editor.Answered (start triggers).session :=
    .of_initial ⟨triggers, rfl⟩
  cases selected with
  | none =>
    have hnil : triggers = [] := List.length_eq_zero_iff.1 (h.eq_none_iff.1 rfl)
    subst hnil
    exact hstart
  | some i =>
    have hlt : i < (start triggers).session.triggers.length := h.lt i rfl
    refine hstart.next ⟨.select i, Edit.session_done.trans ?_⟩
    unfold select
    rw [Edit.session_bind_apply, if_pos hlt]
    rfl

theorem Request.allowed_of_ne_addNode {r : Request} (hr : r ≠ .addNode) : r.Allowed s := by
  cases r with
  | addNode => exact absurd rfl hr
  | _ => trivial

theorem ChangedAt.selectionValid (h : ChangedAt j u s s')
    (hs : SelectionValid s.selected s.triggers.length) :
    SelectionValid s'.selected s'.triggers.length := by
  rw [h.selected, h.length]
  exact hs

/-- Every request keeps the selection in range. -/
theorem selectionValid_answer (hs : SelectionValid s.selected s.triggers.length) (r : Request) :
    SelectionValid (r.answer s).session.selected (r.answer s).session.triggers.length := by
  by_cases hr : r = .addNode
  · -- a trigger keeps its position even where there is no number left for the node
    rw [hr, Request.answer, Edit.session_done]
    unfold addNode
    refine findsSelected_active.of_bind
      (P := fun s' => SelectionValid s'.selected s'.triggers.length) hs fun i t _ ht => ?_
    exact (ChangedAt.put ht (t.addNode t.freeLabel)).selectionValid hs
  · exact (change_answer (Request.allowed_of_ne_addNode hr)).selection hs

theorem selectionValid_of_run (h : Reachable Begun Editor.Answered s) :
    SelectionValid s.selected s.triggers.length := by
  refine h.invariant (P := fun s => SelectionValid s.selected s.triggers.length) ?_ ?_
  · rintro _ ⟨triggers, rfl⟩
    exact selectionValid_start triggers
  · rintro s _ hs ⟨r, rfl⟩
    exact selectionValid_answer hs r

/-- In every state of every run, a trigger can be removed from any position, and the selection
follows its own trigger; and a request about nodes or connections does to the selected trigger what
the operation does, and to the others nothing. -/
theorem selection_follows (h : Reachable Begun Editor.Answered s) :
    (∀ i t, s.triggers[i]? = some t → (removeTrigger i s).result = .ok t ∧
      (∃ j < s.triggers.length, s.selected = some j) ∧ RemovedAt i s (removeTrigger i s).session) ∧
    ∀ j t, s.selected = some j → s.triggers[j]? = some t → ∀ (r : Request) (op : GraphTrigger.Op),
      r.op? t = some op → ChangedAt j (op.apply t) s (r.answer s).session := by
  refine ⟨fun i t ht => ⟨result_removeTrigger ht, ?_, removedAt_removeTrigger ht⟩,
    fun j t hj ht r op hop => changedAt_answer hj ht hop⟩
  exact (selectionValid_of_run h).exists_of_pos
    (Nat.zero_lt_of_lt (List.getElem?_eq_some_iff.1 ht).1)

/-- The last of three triggers stays selected when the first one goes; and its connection can be
taken away, although the others have one between nodes with the same numbers. -/
theorem selection_follows_last :
    let triggers := ["a", "b", "c"].map GraphTrigger.starter
    let s := showing triggers (some 2)
    Reachable Begun Editor.Answered s ∧
      ((removeTrigger 0 s).session.selected = some 1 ∧
        (removeTrigger 0 s).session.selectedTrigger? = some (.starter "c")) ∧
      (((Request.disconnect ⟨⟨0⟩, ⟨1⟩⟩).answer s).session.triggers[2]? =
          some { GraphTrigger.starter "c" with connections := [] } ∧
        ((Request.disconnect ⟨⟨0⟩, ⟨1⟩⟩).answer s).session.triggers[1]? = some (.starter "b")) := by
  intro triggers s
  have h : Reachable Begun Editor.Answered s := reachable_showing (.some (by decide : 2 < 3))
  obtain ⟨hremoved, hchanged⟩ := selection_follows h
  have hremoved := (hremoved 0 _ rfl).2.2.kept 2 rfl (by decide)
  have hchanged := hchanged 2 _ rfl rfl (.disconnect ⟨⟨0⟩, ⟨1⟩⟩) _ rfl
  exact ⟨h, hremoved, hchanged.changed, hchanged.others 1 (by decide)⟩

end FactoryScript.GraphSession
