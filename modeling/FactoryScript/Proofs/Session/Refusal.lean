import FactoryScript.Proofs.Session.Graph
import FactoryScript.Proofs.Session.Program
import FactoryScript.Proofs.Session.Wizard

/-!
# Refused requests

A request that fails, or finds nothing to do, leaves nothing behind: neither a change of the session
nor a message (`allOrNothing`). Every request first looks at the session, and only when all that can
be objected to has been looked at does it begin to change it (`Edit.Atomic.bind`); from then on it
can no longer fail (`Edit.Atomic.of_accepted`).
-/

namespace FactoryScript

/-! ## Edits -/

namespace Edit
variable {σ α β : Type} {x : Edit σ α} {f : α → Edit σ β} {s : σ}

/-- The edit leaves the session as it was and tells nothing. -/
def Untouched (x : Edit σ α) (s : σ) : Prop := (x s).session = s ∧ (x s).notes = []

/-- The edit only looks at the session. -/
def Looks (x : Edit σ α) : Prop := ∀ s, x.Untouched s

/-- The edit fails, or there was nothing to do. -/
def Refused (x : Edit σ Bool) (s : σ) : Prop :=
  (∃ e, (x s).result = .error e) ∨ (x s).result = .ok false

/-- The edit leaves nothing behind if it is refused. -/
def Atomic (x : Edit σ Bool) : Prop := ∀ s, x.Refused s → x.Untouched s

/-- After an edit that only looks at the session it is as if the next one had come first. -/
theorem Looks.bind_apply (hx : x.Looks) : (x >>= f) s =
    match (x s).result with
    | .ok a => f a s
    | .error e => fail e s := by
  obtain ⟨hsession, hnotes⟩ := hx s
  change Edit.bind x f s = _
  rw [Edit.bind]
  split <;> rename_i h <;> rw [h] at hsession hnotes ⊢ <;> cases hsession <;> cases hnotes
  · rfl
  · rfl

theorem looks_session : (session : Edit σ σ).Looks := fun _ => ⟨rfl, rfl⟩

theorem looks_fail (e : EditError) : (fail e : Edit σ α).Looks := fun _ => ⟨rfl, rfl⟩

theorem looks_pure (a : α) : (pure a : Edit σ α).Looks := fun _ => ⟨rfl, rfl⟩

theorem looks_ofExcept {ε : Type} (wrap : ε → EditError) (r : Except ε α) :
    (ofExcept wrap r : Edit σ α).Looks := by
  cases r with
  | ok a => exact looks_pure a
  | error e => exact looks_fail (wrap e)

theorem Looks.bind (hx : x.Looks) (hf : ∀ a, (f a).Looks) : (x >>= f).Looks := by
  intro s
  rw [Untouched, hx.bind_apply]
  cases (x s).result with
  | ok a => exact hf a s
  | error e => exact looks_fail e s

/-- To find the selected item is to look at the session only. -/
theorem FindsSelected.looks {x : Edit σ (Nat × α)} {selected : σ → Option Nat}
    {items : σ → List α} (hx : x.FindsSelected selected items) : x.Looks := by
  intro s
  rw [Untouched]
  cases h : (selected s).bind fun i => (items s)[i]? with
  | none => rw [hx.missed h]; exact looks_fail _ s
  | some a =>
    obtain ⟨i, hi, ha⟩ := Option.bind_eq_some_iff.1 h
    rw [hx.found hi ha]
    exact looks_pure _ s

/-- Of two edits in a row it is the second one whose result is set aside. -/
theorem done_bind : (x >>= f).done = x >>= fun a => (f a).done := by
  funext s
  change Edit.bind (Edit.bind x f) (fun _ => Edit.pure true) s =
    Edit.bind x (fun a => Edit.bind (f a) fun _ => Edit.pure true) s
  simp only [Edit.bind]
  obtain ⟨_ | a, t, notes⟩ := x s
  · rfl
  · dsimp only
    obtain ⟨_ | b, u, more⟩ := f a t
    · rfl
    · simp only [Edit.pure, List.append_nil]

/-! ## Edits that may be refused -/

theorem Looks.atomic {x : Edit σ Bool} (hx : x.Looks) : x.Atomic := fun s _ => hx s

/-- An edit that is never refused may change the session at once. -/
theorem Atomic.of_accepted {x : Edit σ Bool} (hx : ∀ s, (x s).result = .ok true) : x.Atomic := by
  rintro s (⟨e, h⟩ | h) <;> rw [hx s] at h <;> cases h

/-- What is refused after a look at the session is refused before any change. -/
theorem Atomic.bind {f : α → Edit σ Bool} (hx : x.Looks) (hf : ∀ a, (f a).Atomic) :
    (x >>= f).Atomic := by
  intro s
  rw [Refused, Untouched, hx.bind_apply]
  cases (x s).result with
  | ok a => exact hf a s
  | error e => exact (looks_fail e).atomic s

/-- What is refused once an item has been found is refused before any change of it. -/
theorem FindsSelected.atomic_bind {x : Edit σ (Nat × α)} {f : Nat × α → Edit σ Bool}
    {selected : σ → Option Nat} {items : σ → List α} (hx : x.FindsSelected selected items)
    (hf : ∀ s i a, (items s)[i]? = some a → (f (i, a)).Refused s → (f (i, a)).Untouched s) :
    (x >>= f).Atomic := by
  intro s
  rw [Refused, Untouched, hx.looks.bind_apply]
  cases h : (selected s).bind fun i => (items s)[i]? with
  | none =>
    rw [hx.missed h]
    exact (looks_fail _).atomic s
  | some a =>
    obtain ⟨i, hi, ha⟩ := Option.bind_eq_some_iff.1 h
    rw [hx.found hi ha]
    exact hf s i a ha

theorem Atomic.done_bind (hx : x.Looks) (hf : ∀ a, (f a).done.Atomic) : (x >>= f).done.Atomic := by
  rw [Edit.done_bind]
  exact .bind hx hf

theorem Looks.atomic_done (hx : x.Looks) : x.done.Atomic :=
  (hx.bind fun _ => looks_pure true).atomic

end Edit

open Edit (Atomic looks_session looks_fail looks_pure looks_ofExcept)

/-! ## Programs -/

namespace ProgramSession

theorem looks_active : active.Looks := findsSelected_active.looks

theorem atomic_push (statement : Statement) : (push statement).done.Atomic :=
  .done_bind looks_active fun _ => .of_accepted fun _ => rfl

private theorem atomic_push_of_form {ε α : Type} {wrap : ε → EditError} {r : Except ε α}
    {make : α → Statement} :
    (active >>= fun _ => Edit.ofExcept wrap r >>= fun a => push (make a)).done.Atomic :=
  .done_bind looks_active fun _ =>
    .done_bind (looks_ofExcept wrap r) fun a => atomic_push (make a)

theorem atomic_removeTrigger : removeTrigger.done.Atomic := by
  refine .done_bind looks_session fun s => ?_
  split
  · exact (looks_fail _).atomic_done
  · split
    · exact (looks_fail _).atomic_done
    · exact .of_accepted fun _ => rfl

theorem atomic_select (index : Nat) : (select index).done.Atomic := by
  refine .done_bind looks_session fun s => ?_
  split
  · exact .of_accepted fun _ => rfl
  · exact (looks_fail _).atomic_done

theorem atomic_removeStatement (index : Nat) : (removeStatement index).done.Atomic := by
  refine .done_bind looks_active fun (i, t) => ?_
  dsimp only
  split
  · exact (looks_fail _).atomic_done
  · exact .of_accepted fun _ => rfl

/-- A move that is refused has put nothing back. -/
theorem atomic_moveUp (index : Nat) : (moveUp index).Atomic := by
  refine .bind looks_active fun (i, t) => ?_
  dsimp only
  split
  · exact (looks_fail _).atomic
  cases index with
  | zero => exact (looks_pure false).atomic
  | succ index => exact .of_accepted fun _ => rfl

/-- The same downwards. -/
theorem atomic_moveDown (index : Nat) : (moveDown index).Atomic := by
  refine .bind looks_active fun (i, t) => ?_
  dsimp only
  split
  · exact (looks_fail _).atomic
  · split
    · exact (looks_pure false).atomic
    · exact .of_accepted fun _ => rfl

/-- Every request to a program session is all or nothing. -/
theorem atomic_answer (r : Request) : r.answer.Atomic := by
  cases r with
  | setName | addTrigger | loadTemplate | clear => exact .of_accepted fun _ => rfl
  | updateTrigger form => exact .done_bind looks_active fun _ => .of_accepted fun _ => rfl
  | removeTrigger => exact atomic_removeTrigger
  | select index => exact atomic_select index
  | addInput form => exact atomic_push_of_form
  | addOutput form => exact atomic_push_of_form
  | addIf form => exact atomic_push_of_form
  | addForget labels => exact atomic_push _
  | push statement => exact atomic_push statement
  | removeStatement index => exact atomic_removeStatement index
  | moveUp index => exact atomic_moveUp index
  | moveDown index => exact atomic_moveDown index

end ProgramSession

/-! ## Graphs -/

namespace GraphSession

theorem looks_active : active.Looks := findsSelected_active.looks

/-- To put a trigger back is refused only if it is the one that is there. -/
theorem untouched_keepIf {s : GraphSession} {i : Nat} {t u : GraphTrigger} {changed : Bool}
    (ht : s.triggers[i]? = some t) (hsame : changed = false → u = t)
    (h : (keepIf i changed u).Refused s) : (keepIf i changed u).Untouched s := by
  cases changed with
  | true => obtain ⟨e, h⟩ | h := h <;> cases h
  | false =>
    rw [hsame rfl, Edit.Untouched, keepIf_unchanged ht]
    exact ⟨rfl, rfl⟩

theorem atomic_removeTrigger (index : Nat) : (removeTrigger index).done.Atomic := by
  refine .done_bind looks_session fun s => ?_
  split
  · exact (looks_fail _).atomic_done
  · exact .of_accepted fun _ => rfl

theorem atomic_select (index : Nat) : (select index).done.Atomic := by
  refine .done_bind looks_session fun s => ?_
  split
  · exact .of_accepted fun _ => rfl
  · exact (looks_fail _).atomic_done

theorem atomic_updateTrigger (index : Nat) (c : TriggerChange) :
    (updateTrigger index c).done.Atomic := by
  refine .done_bind looks_session fun s => ?_
  split
  · exact (looks_fail _).atomic_done
  · exact .of_accepted fun _ => rfl

theorem atomic_removeNode (id : NodeId) : (removeNode id).done.Atomic :=
  .done_bind looks_active fun (_, t) =>
    .done_bind (looks_ofExcept .graph (t.removeNode id)) fun _ => .of_accepted fun _ => rfl

theorem atomic_updateNode (id : NodeId) (f : Node → Node) : (updateNode id f).done.Atomic := by
  refine .done_bind looks_active fun (i, t) => ?_
  dsimp only
  split
  · exact .of_accepted fun _ => rfl
  · exact (looks_fail _).atomic_done

/-- A connection that is refused leaves the trigger as it was, so that putting it back changes
nothing. -/
theorem atomic_connect (c : Connection) : (connect c).Atomic := by
  refine findsSelected_active.atomic_bind fun s i t ht => ?_
  dsimp only
  cases h : t.connect c with
  | error e => exact (looks_fail (.graph e)).atomic s
  | ok connected =>
    obtain ⟨added, u⟩ := connected
    refine untouched_keepIf ht fun hadded => ?_
    cases hadded
    exact GraphTrigger.eq_of_connect h

theorem atomic_reverse (c : Connection) : (reverse c).Atomic :=
  findsSelected_active.atomic_bind fun _ _ _ ht =>
    untouched_keepIf ht GraphTrigger.reverse_of_false

theorem atomic_disconnect (c : Connection) : (disconnect c).Atomic :=
  findsSelected_active.atomic_bind fun _ _ _ ht =>
    untouched_keepIf ht GraphTrigger.disconnect_of_false

/-- Every request to a graph session is all or nothing. -/
theorem atomic_answer (r : Request) : r.answer.Atomic := by
  cases r with
  | addTrigger => exact .of_accepted fun _ => rfl
  | removeTrigger index => exact atomic_removeTrigger index
  | select index => exact atomic_select index
  | updateTrigger index c => exact atomic_updateTrigger index c
  | addNode => exact .done_bind looks_active fun _ => .of_accepted fun _ => rfl
  | removeNode id => exact atomic_removeNode id
  | updateNode id f => exact atomic_updateNode id f
  | connect c => exact atomic_connect c
  | reverse c => exact atomic_reverse c
  | disconnect c => exact atomic_disconnect c

end GraphSession

/-! ## Wizard layouts -/

namespace WizardSession

/-- A row that is the last of its list stays, and nothing else changes. -/
theorem atomic_removeRow (l : RowList) (index : Nat) : (removeRow l index).Atomic := by
  refine .bind looks_session fun s => ?_
  dsimp only
  split
  · exact (looks_fail _).atomic
  · split
    · exact (looks_pure false).atomic
    · exact .of_accepted fun _ => rfl

theorem atomic_updateRow (l : RowList) (index : Nat) (f : Endpoint → Endpoint) :
    (updateRow l index f).done.Atomic := by
  refine .done_bind looks_session fun s => ?_
  dsimp only
  split
  · exact (looks_fail _).atomic_done
  · exact .of_accepted fun _ => rfl

theorem atomic_answer (r : Request) : r.answer.Atomic := by
  cases r with
  | setInterval | addRow => exact .of_accepted fun _ => rfl
  | removeRow l index => exact atomic_removeRow l index
  | updateRow l index f => exact atomic_updateRow l index f

end WizardSession

/-! ## Exports -/

/-- An export writes one file and tells so, or does neither. -/
theorem exportScript_apply (path code : String) (w : World) :
    (exportScript path code : StateM World _) w =
      match w.files.writeText w.home path code with
      | .error cause => (.error ⟨path, cause⟩, w)
      | .ok files => (.ok (), { w with
          files := files
          notes := w.notes ++ [(.output, ⟨.info,
            "Exported " ++ code.length.repr ++ " characters to " ++ Text.quoted path⟩)] }) := by
  simp only [exportScript, Host.writeText, bind, StateT.bind, World.attempt]
  cases w.files.writeText w.home path code <;> rfl

theorem exportScript_of_error {path code : String} {w : World} {e : ExportError}
    (h : ((exportScript path code : StateM World _) w).1 = .error e) :
    ((exportScript path code : StateM World _) w).2 = w := by
  rw [exportScript_apply] at h ⊢
  split at h
  · rfl
  · cases h

/-! ## Sessions -/

/-- Whatever is refused leaves nothing behind: a request neither a change of the session nor a
message, an export, which has no access to the session, no change of the world either. -/
structure Editor.AllOrNothing (σ : Type) [Editor σ] : Prop where
  request (r : Request σ) (s : σ) (h : (answer r).Refused s) :
    (answer r s).session = s ∧ (answer r s).notes = []
  exported (s : σ) (path : String) (w : World) (e : ExportError)
    (h : ((exportScript path (generated s).code : StateM World _) w).1 = .error e) :
    ((exportScript path (generated s).code : StateM World _) w).2 = w

/-- A session of any kind, in any state, is left exactly as it was by a request that fails or finds
nothing to do, and by an export that fails. -/
theorem allOrNothing : Editor.AllOrNothing ProgramSession ∧ Editor.AllOrNothing GraphSession ∧
    Editor.AllOrNothing WizardSession :=
  ⟨⟨fun r => ProgramSession.atomic_answer r, fun _ _ _ _ => exportScript_of_error⟩,
    ⟨fun r => GraphSession.atomic_answer r, fun _ _ _ _ => exportScript_of_error⟩,
    ⟨fun r => WizardSession.atomic_answer r, fun _ _ _ _ => exportScript_of_error⟩⟩

/-- There is no eighth statement to move and no tenth node to remove, the nodes of a starter trigger
are connected already, the only row of a list stays, and a directory is no file to write. -/
theorem allOrNothing_fresh :
    let move := ProgramSession.Request.moveUp 7
    let discard := GraphSession.Request.removeNode ⟨9⟩
    let connect := GraphSession.Request.connect ⟨⟨0⟩, ⟨1⟩⟩
    let remove := WizardSession.Request.removeRow .targets 0
    let exported : StateM World _ := exportScript "." WizardSession.fresh.session.generated.code
    ((move.answer ProgramSession.fresh.session).result = .error (.statementNotFound 7) ∧
        move.answer.Untouched ProgramSession.fresh.session) ∧
      ((discard.answer GraphSession.fresh.session).result =
          .error (.graph (.nodeNotFound ⟨9⟩)) ∧
        discard.answer.Untouched GraphSession.fresh.session) ∧
      ((connect.answer GraphSession.fresh.session).result = .ok false ∧
        connect.answer.Untouched GraphSession.fresh.session) ∧
      ((remove.answer WizardSession.fresh.session).result = .ok false ∧
        remove.answer.Untouched WizardSession.fresh.session) ∧
      ((exported .initial).1 = .error ⟨".", .isDirectory⟩ ∧ (exported .initial).2 = .initial) := by
  obtain ⟨hprogram, hgraph, hwizard⟩ := allOrNothing
  refine ⟨⟨rfl, hprogram.request (.moveUp 7) _ (.inl ⟨_, rfl⟩)⟩,
    ⟨rfl, hgraph.request (.removeNode ⟨9⟩) _ (.inl ⟨_, rfl⟩)⟩,
    ⟨rfl, hgraph.request (.connect ⟨⟨0⟩, ⟨1⟩⟩) _ (.inr rfl)⟩,
    ⟨rfl, hwizard.request (.removeRow .targets 0) _ (.inr rfl)⟩, ?_⟩
  have hfails : ((exportScript "." (Editor.generated WizardSession.fresh.session).code :
      StateM World _) .initial).1 = .error ⟨".", .isDirectory⟩ := by rfl
  exact ⟨hfails, hwizard.exported WizardSession.fresh.session "." .initial _ hfails⟩

end FactoryScript
