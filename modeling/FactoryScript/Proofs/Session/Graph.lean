import FactoryScript.Proofs.Graph.Mutation
import FactoryScript.Proofs.Json.Record
import FactoryScript.Proofs.Session.Editor
import FactoryScript.Session.Graph

/-!
# Runs of a graph session

`GraphSession.Change` lists all that a request can make of a session (`change_answer`): nothing, a
new selection, or one trigger more, less or changed, and then the script is that of the new
triggers. Hence a run keeps the selection in range, the triggers sound, and the script up to date
(`graph_sound_of_reached`).
-/

namespace FactoryScript.GraphSession

/-- What can be asked of a graph session. -/
inductive Request
  | addTrigger
  | removeTrigger (index : Nat)
  | select (index : Nat)
  | updateTrigger (index : Nat) (change : TriggerChange)
  | addNode
  | removeNode (id : NodeId)
  /-- Changes a node in any way, its number included. -/
  | updateNode (id : NodeId) (f : Node → Node)
  | connect (c : Connection)
  | reverse (c : Connection)
  | disconnect (c : Connection)

namespace Request

def answer : Request → Edit GraphSession Bool
  | addTrigger => GraphSession.addTrigger.done
  | removeTrigger index => (GraphSession.removeTrigger index).done
  | select index => (GraphSession.select index).done
  | updateTrigger index change => (GraphSession.updateTrigger index change).done
  | addNode => GraphSession.addNode.done
  | removeNode id => (GraphSession.removeNode id).done
  | updateNode id f => (GraphSession.updateNode id f).done
  | connect c => GraphSession.connect c
  | reverse c => GraphSession.reverse c
  | disconnect c => GraphSession.disconnect c

/-- There has to be a number for a new node. -/
def Allowed : Request → GraphSession → Prop
  | addNode, s => ∀ t, s.selectedTrigger? = some t → t.nodes.length < UInt32.size
  | _, _ => True

end Request

/-- A session starts afresh, or with the triggers of a document. -/
inductive Started : GraphSession → Prop
  | fresh : Started fresh.session
  | start {document : Json} {triggers : List GraphTrigger}
    (h : Graph.read document = .ok triggers) : Started (start triggers).session

instance : Editor GraphSession where
  Request := Request
  answer := Request.answer
  Allowed := Request.Allowed
  Started := Started
  generated := generated

/-! ## What a request can make of a session -/

/-- The session with these triggers and their script. -/
def showing (triggers : List GraphTrigger) (selected : Option Nat) : GraphSession :=
  ⟨triggers, selected, .ofCode (Graph.script triggers)⟩

inductive Change (s : GraphSession) : GraphSession → Prop
  | same : Change s s
  | select {i : Nat} (h : i < s.triggers.length) : Change s { s with selected := some i }
  | add (name : String) :
    Change s (showing (s.triggers ++ [.starter name]) (some s.triggers.length))
  | remove {i : Nat} (h : i < s.triggers.length) :
    Change s (showing (s.triggers.eraseIdx i)
      (selectionAfter i (s.triggers.eraseIdx i).length s.selected))
  /-- One operation on one trigger. If it sets the interval, then not to zero. -/
  | put {i : Nat} {t u : GraphTrigger} (op : GraphTrigger.Op) (ht : s.triggers[i]? = some t)
    (hop : op.Allowed t) (hu : op.apply t = u)
    (hinterval : ∀ c, op = .change c → 1 ≤ u.tickInterval) :
    Change s (showing (s.triggers.set i u) s.selected)

variable {s : GraphSession}

/-- The active trigger is the selected one. -/
theorem findsSelected_active : active.FindsSelected selected triggers where
  found {s i t} hi ht := by
    have hsel : s.selectedTrigger? = some t := by rw [selectedTrigger?, hi]; exact ht
    unfold active
    rw [Edit.session_bind_apply, hi, hsel]
    rfl
  missed {s} h := by
    have hsel : s.selectedTrigger? = none := h
    unfold active
    rw [Edit.session_bind_apply, hsel]
    cases s.selected <;> rfl

/-- A request about the selected trigger changes that trigger, if it changes anything. -/
private theorem change_of_active {α : Type} {f : Nat × GraphTrigger → Edit GraphSession α}
    (hf : ∀ i t, s.triggers[i]? = some t → s.selectedTrigger? = some t →
      Change s (f (i, t) s).session) :
    Change s ((active >>= f) s).session := by
  refine findsSelected_active.of_bind .same fun i t hi ht => hf i t ht ?_
  rw [selectedTrigger?, hi]
  exact ht

theorem change_removeTrigger (index : Nat) : Change s (removeTrigger index s).session := by
  unfold removeTrigger
  rw [Edit.session_bind_apply]
  cases h : s.triggers[index]? with
  | none => exact .same
  | some t => exact .remove (List.getElem?_eq_some_iff.1 h).1

theorem change_select (index : Nat) : Change s (select index s).session := by
  unfold select
  rw [Edit.session_bind_apply]
  split <;> rename_i h
  · exact .select h
  · exact .same

/-- Label and interval are changed in place; an interval of zero is not let in. -/
theorem change_updateTrigger (index : Nat) (c : TriggerChange) :
    Change s (updateTrigger index c s).session := by
  unfold updateTrigger
  rw [Edit.session_bind_apply]
  cases h : s.triggers[index]? with
  | none => exact .same
  | some t =>
    -- the interval that is set is the one that was asked for, or one
    let clamped : TriggerChange :=
      { c with tickInterval := some (max 1 (c.tickInterval.getD t.tickInterval)) }
    exact .put (.change clamped) h trivial rfl fun _ _ => UInt32.one_le_max _

theorem change_addNode (h : Request.addNode.Allowed s) : Change s (addNode s).session :=
  change_of_active fun _ t ht hsel =>
    .put (.addNode t.freeLabel) ht (h t hsel) rfl nofun

/-- A node is removed with its connections, by one operation on the selected trigger. -/
theorem change_removeNode (id : NodeId) : Change s (removeNode id s).session := by
  refine change_of_active fun i t ht _ => ?_
  refine Edit.of_bind Edit.session_ofExcept .same fun removed h => ?_
  obtain ⟨n, u⟩ := removed
  have hu : (GraphTrigger.Op.removeNode id).apply t = u := by
    rw [GraphTrigger.Op.apply, Edit.eq_ok_of_ofExcept h]
    rfl
  exact .put (.removeNode id) ht trivial hu (fun _ h => by cases h)

theorem change_updateNode (id : NodeId) (f : Node → Node) :
    Change s (updateNode id f s).session := by
  refine change_of_active fun i t ht _ => ?_
  dsimp only
  split
  · exact .put (.updateNode id (fun n => { f n with id := id }) fun _ _ => rfl) ht trivial rfl nofun
  · exact .same

/-- A trigger that an edit has left as it was is put in its own place, so that the session is as it
was, too. -/
theorem keepIf_unchanged {i : Nat} {t : GraphTrigger} (ht : s.triggers[i]? = some t) :
    keepIf i false t s = Edit.pure false s := by
  obtain ⟨hi, rfl⟩ := List.getElem?_eq_some_iff.1 ht
  have hset : s.triggers.set i s.triggers[i] = s.triggers := List.set_getElem_self hi
  change (⟨.ok false, { s with triggers := s.triggers.set i s.triggers[i] }, []⟩ : Outcome ..) = _
  rw [hset]
  rfl

/-- What becomes of the session if an edit of one of its triggers tells truly whether it changed
anything. -/
theorem change_keepIf {i : Nat} {t u : GraphTrigger} {changed : Bool} (op : GraphTrigger.Op)
    (ht : s.triggers[i]? = some t) (hop : op.Allowed t) (hu : op.apply t = u)
    (hinterval : ∀ c, op ≠ .change c) (hsame : changed = false → u = t) :
    Change s (keepIf i changed u s).session := by
  cases changed with
  | true => exact .put op ht hop hu fun c h => absurd h (hinterval c)
  | false =>
    rw [hsame rfl, keepIf_unchanged ht]
    exact .same

/-- A connection is made by one operation on the selected trigger, if it is made at all. -/
theorem change_connect (c : Connection) : Change s (connect c s).session := by
  refine change_of_active fun i t ht _ => ?_
  refine Edit.of_bind Edit.session_ofExcept .same fun connected h => ?_
  obtain ⟨added, u⟩ := connected
  have hconnect := Edit.eq_ok_of_ofExcept h
  have hu : (GraphTrigger.Op.connect c).apply t = u := by
    rw [GraphTrigger.Op.apply, hconnect]
    rfl
  refine change_keepIf (.connect c) ht trivial hu (fun _ h => by cases h) fun hadded => ?_
  exact GraphTrigger.eq_of_connect (hadded ▸ hconnect)

theorem change_reverse (c : Connection) : Change s (reverse c s).session :=
  change_of_active fun _ _ ht _ =>
    change_keepIf (.reverse c) ht trivial rfl nofun GraphTrigger.reverse_of_false

theorem change_disconnect (c : Connection) : Change s (disconnect c s).session :=
  change_of_active fun _ _ ht _ =>
    change_keepIf (.disconnect c) ht trivial rfl nofun GraphTrigger.disconnect_of_false

private theorem Change.done {α : Type} {x : Edit GraphSession α} (h : Change s (x s).session) :
    Change s (x.done s).session := by
  rw [Edit.session_done]
  exact h

/-- Every request makes one of the changes. -/
theorem change_answer {r : Request} (h : r.Allowed s) : Change s (r.answer s).session := by
  cases r with
  | addTrigger => exact Change.done (.add _)
  | removeTrigger index => exact (change_removeTrigger index).done
  | select index => exact (change_select index).done
  | updateTrigger index c => exact (change_updateTrigger index c).done
  | addNode => exact (change_addNode h).done
  | removeNode id => exact (change_removeNode id).done
  | updateNode id f => exact (change_updateNode id f).done
  | connect c => exact change_connect c
  | reverse c => exact change_reverse c
  | disconnect c => exact change_disconnect c

/-! ## What a run keeps -/

/-- The selection is in range, the triggers are sound and do not fire without pause, and script and
measurement belong to them. -/
structure Sound (s : GraphSession) : Prop where
  selection : SelectionValid s.selected s.triggers.length
  wellFormed : ∀ t ∈ s.triggers, t.WellFormed
  one_le_tickInterval : ∀ t ∈ s.triggers, 1 ≤ t.tickInterval
  code_eq : s.generated.code = Graph.script s.triggers
  status_eq : s.generated.status = Budget.device.status s.generated.code
  measured : 10 * s.generated.code.length < UInt64.size →
    Budget.device.measure s.generated.code = .ok s.generated.status

/-- What each request keeps. -/
structure Invariant (s : GraphSession) : Prop where
  selection : SelectionValid s.selected s.triggers.length
  invariant : ∀ t ∈ s.triggers, t.Invariant
  one_le_tickInterval : ∀ t ∈ s.triggers, 1 ≤ t.tickInterval
  generated_eq : s.generated = .ofCode (Graph.script s.triggers)

theorem Invariant.sound (h : s.Invariant) : s.Sound where
  selection := h.selection
  wellFormed t ht := (h.invariant t ht).toWellFormed
  one_le_tickInterval := h.one_le_tickInterval
  code_eq := by rw [h.generated_eq]; rfl
  status_eq := by rw [h.generated_eq]; rfl
  measured hlength := by rw [h.generated_eq] at hlength ⊢; exact Budget.measure_device hlength

private theorem invariant_showing {triggers : List GraphTrigger} {selected : Option Nat}
    (hsel : SelectionValid selected triggers.length)
    (ht : ∀ t ∈ triggers, t.Invariant ∧ 1 ≤ t.tickInterval) :
    (showing triggers selected).Invariant where
  selection := hsel
  invariant t hmem := (ht t hmem).1
  one_le_tickInterval t hmem := (ht t hmem).2
  generated_eq := rfl

/-- After a removal the selection is moved to a trigger that is left, if there is one. -/
theorem selectionValid_selectionAfter {i n : Nat} {selected : Option Nat}
    (h : SelectionValid selected (n + 1)) (hi : i < n + 1) :
    SelectionValid (selectionAfter i n selected) n := by
  obtain ⟨j, hj, rfl⟩ := h.exists_of_pos (Nat.succ_pos n)
  simp only [selectionAfter, Option.bind_some]
  rcases Nat.lt_trichotomy j i with hlt | rfl | hlt
  · rw [if_neg (Nat.ne_of_lt hlt), if_neg (Nat.lt_asymm hlt)]
    exact .some (by omega)
  · -- the selected trigger has gone, so the first one is selected if there is one
    rw [if_pos rfl]
    cases n with
    | zero => exact .none
    | succ n => exact .some (Nat.succ_pos n)
  · rw [if_neg (Nat.ne_of_gt hlt), if_pos hlt]
    exact .some (by omega)

/-- Each request keeps the selection in range. -/
theorem Change.selection {r : GraphSession} (h : Change s r)
    (hs : SelectionValid s.selected s.triggers.length) :
    SelectionValid r.selected r.triggers.length := by
  cases h with
  | same => exact hs
  | select h => exact .some h
  | add name => exact .some (by simp [showing])
  | @remove i h =>
    have hlen : s.triggers.length = (s.triggers.eraseIdx i).length + 1 := by
      rw [List.length_eraseIdx_of_lt h]
      omega
    exact selectionValid_selectionAfter (hlen ▸ hs) (hlen ▸ h)
  | put op ht hop hu hinterval =>
    rw [showing, List.length_set]
    exact hs

/-- Every change keeps the invariant. -/
theorem Invariant.change {r : GraphSession} (hs : s.Invariant) (h : Change s r) : r.Invariant := by
  have hsel := h.selection hs.selection
  have hall : ∀ t ∈ s.triggers, t.Invariant ∧ 1 ≤ t.tickInterval := fun t ht =>
    ⟨hs.invariant t ht, hs.one_le_tickInterval t ht⟩
  cases h with
  | same => exact hs
  | select h => exact ⟨hsel, hs.invariant, hs.one_le_tickInterval, hs.generated_eq⟩
  | add name =>
    refine invariant_showing hsel (List.forall_mem_append.2 ⟨hall, ?_⟩)
    intro t ht
    rw [List.mem_singleton.1 ht]
    exact ⟨.starter name, (by decide : 1 ≤ defaultInterval)⟩
  | remove h => exact invariant_showing hsel fun t ht => hall t (List.mem_of_mem_eraseIdx ht)
  | put op ht hop hu hinterval =>
    refine invariant_showing hsel fun v hv => ?_
    rcases List.mem_or_eq_of_mem_set hv with hv | rfl
    · exact hall v hv
    obtain ⟨hinv, hone⟩ := hall _ (List.mem_of_getElem? ht)
    subst hu
    refine ⟨hinv.apply hop, ?_⟩
    by_cases hc : ∃ c, op = .change c
    · obtain ⟨c, hc⟩ := hc
      exact hinterval c hc
    · rw [GraphTrigger.Op.tickInterval_apply fun c h => hc ⟨c, h⟩]
      exact hone

/-- A trigger in a document is built by the operations, and its interval is raised to one. -/
theorem invariant_of_read {v : Json} {t : GraphTrigger} (h : GraphTrigger.read v = .ok t) :
    t.Invariant ∧ 1 ≤ t.tickInterval := by
  unfold GraphTrigger.read at h
  split at h <;> rename_i hs
  · cases h
  split at h <;> rename_i ht <;> cases h
  refine ⟨.load ht, ?_⟩
  rw [GraphTrigger.tickInterval_load ht]
  refine Json.readRecord_yields (P := fun s : StoredTrigger => 1 ≤ s.tickInterval) ?_ hs
  intro _ _ _ _ n hn _ _ _ _
  exact Json.one_le_of_interval_field hn

theorem selectionValid_start (triggers : List GraphTrigger) :
    SelectionValid (start triggers).session.selected triggers.length := by
  cases triggers with
  | nil => exact .none
  | cons t rest => exact .some (Nat.succ_pos _)

/-- Every start gives it, with no triggers or with loaded ones. -/
theorem Started.invariant (h : Started s) : s.Invariant := by
  cases h with
  | fresh =>
    have hempty : (GraphSession.start []).session.Invariant := ⟨.none, nofun, nofun, rfl⟩
    exact hempty.change (.add _)
  | @start document triggers h =>
    refine invariant_showing (selectionValid_start triggers) ?_
    exact Json.forall_mem_of_readList (fun v t ht => invariant_of_read ht) h

/-- In every state of every run something is selected as long as there are triggers, and it is one
of them; the triggers are sound and their intervals are at least one; and the script and its
measurement are those of the triggers. -/
theorem graph_sound_of_reached (h : Editor.Reached s) : s.Sound :=
  (h.invariant (P := Invariant) (fun _ => Started.invariant)
    fun _ _ hs hr => hs.change (change_answer hr)).sound

/-- An interval of zero and a changed number are put right at once. -/
theorem graph_sound_repaired :
    ∃ s : GraphSession, Editor.Reached s ∧ s.triggers.map GraphTrigger.tickInterval = [1] ∧
      s.triggers.map GraphTrigger.ids = [[⟨0⟩, ⟨1⟩]] ∧ s.Sound := by
  have h : Editor.Reached fresh.session := Editor.reached_of_started Started.fresh
  have h := h.answer (r := Request.updateTrigger 0 ⟨none, none, some 0⟩) trivial
  have h := h.answer (r := Request.updateNode ⟨0⟩ fun n => { n with id := ⟨1⟩ }) trivial
  exact ⟨_, h, rfl, rfl, graph_sound_of_reached h⟩

end FactoryScript.GraphSession
