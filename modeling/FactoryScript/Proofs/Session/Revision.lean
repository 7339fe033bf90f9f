import FactoryScript.Proofs.Script.Pieces
import FactoryScript.Proofs.Session.Program

/-!
# Revisions of the selected trigger

A request about the selected trigger that does not remove it amounts to a function on that trigger,
whatever else the session holds (`session_answer`). So the other triggers stay, and in the script,
which is made anew as a whole, all other pieces stay too, since no piece depends on another one
(`revisions_stay_inside`).
-/

namespace FactoryScript

/-- The trigger with more statements at its end. -/
def Trigger.append (t : Trigger) (more : List Statement) : Trigger :=
  { t with statements := t.statements ++ more }

/-- Where the block of a trigger stands among the pieces. -/
def Program.blockIndex (p : Program) (i : Nat) : Nat := (nameLine? p.name).toList.length + i

/-- Another trigger has another block in the same place. -/
theorem Program.pieces_set (p : Program) (i : Nat) (t : Trigger) :
    ({ p with triggers := p.triggers.set i t } : Program).pieces =
      p.pieces.set (p.blockIndex i) t.block := by
  rw [pieces, pieces, blockIndex, List.map_set, List.set_append_right _ _ (Nat.le_add_right ..),
    Nat.add_sub_cancel_left]

theorem Program.getElem?_pieces {p : Program} {i : Nat} {t : Trigger}
    (h : p.triggers[i]? = some t) : p.pieces[p.blockIndex i]? = some t.block := by
  rw [pieces, blockIndex, List.getElem?_append_right (Nat.le_add_right ..),
    Nat.add_sub_cancel_left, List.getElem?_map, h, Option.map_some]

namespace ProgramSession

variable {s : ProgramSession} {i : Nat} {t u : Trigger}

/-! ## Putting a trigger in its place -/

/-- The session in which another trigger stands at a position. -/
def revised (s : ProgramSession) (i : Nat) (t : Trigger) : ProgramSession :=
  showing { s.program with triggers := s.program.triggers.set i t } s.selected

theorem revised_self (hs : s.UpToDate) (ht : s.program.triggers[i]? = some t) :
    s.revised i t = s := by
  obtain ⟨hi, rfl⟩ := List.getElem?_eq_some_iff.1 ht
  rw [revised, List.set_getElem_self, showing, ← hs.generated_eq]

/-- A revision that leaves the trigger as it is leaves the session as it is. -/
theorem eq_revised (hs : s.UpToDate) (ht : s.program.triggers[i]? = some t) (hu : u = t) :
    s = s.revised i u := by
  rw [hu, revised_self hs ht]

theorem revised_revised (s : ProgramSession) (i : Nat) (t u : Trigger) :
    (s.revised i t).revised i u = s.revised i u := by
  simp only [revised, showing, List.set_set]

theorem selected_revised (s : ProgramSession) (i : Nat) (t : Trigger) :
    (s.revised i t).selected = s.selected := rfl

theorem getElem?_revised (ht : s.program.triggers[i]? = some t) :
    (s.revised i u).program.triggers[i]? = some u :=
  List.getElem?_set_self (List.getElem?_eq_some_iff.1 ht).1

theorem upToDate_revised (hs : s.UpToDate) (i : Nat) (t : Trigger) : (s.revised i t).UpToDate :=
  upToDate_showing (by simpa using hs.selection)

/-! ## What a request does to the trigger -/

namespace Request

/-- The request is about the selected trigger and leaves it in its place. -/
def Revises : Request → Prop
  | updateTrigger _ | addInput _ | addOutput _ | addIf _ | addForget _ | push _
  | removeStatement _ | moveUp _ | moveDown _ => True
  | setName _ | addTrigger _ | removeTrigger | select _ | loadTemplate _ | clear => False

/-- What becomes of the selected trigger. A request that is refused does not change it. -/
def revise : Request → Trigger → Trigger
  | updateTrigger form, t => { t with kind := form.kind }
  | addInput form, t => t.append (form.transfer.toOption.map .input).toList
  | addOutput form, t => t.append (form.transfer.toOption.map .output).toList
  | addIf form, t =>
    t.append (form.text.toOption.map fun condition => .branch condition [] []).toList
  | addForget labels, t => t.append [.forget (TransferForm.filled labels)]
  | push statement, t => t.append [statement]
  | removeStatement index, t => { t with statements := t.statements.eraseIdx index }
  | moveUp 0, t => t
  | moveUp (index + 1), t | moveDown index, t =>
    { t with statements := swapNext index t.statements }
  | setName _, t | addTrigger _, t | removeTrigger, t | select _, t | loadTemplate _, t
  | clear, t => t

end Request

/-- Exchanging an item with one that is not there changes nothing. -/
theorem swapNext_of_le {α : Type} {l : List α} {n : Nat} (h : l.length ≤ n + 1) :
    swapNext n l = l := by
  induction n generalizing l with
  | zero =>
    match l with
    | [] | [_] => rfl
  | succ n ih =>
    match l with
    | [] => rfl
    | a :: rest => exact congrArg (a :: ·) (ih (Nat.le_of_succ_le_succ h))

section
variable (hs : s.UpToDate) (hi : s.selected = some i) (ht : s.program.triggers[i]? = some t)
include hi ht

theorem session_push (statement : Statement) :
    (push statement s).session = s.revised i (t.append [statement]) := by
  unfold push
  rw [findsSelected_active.bind_apply hi ht]
  rfl

theorem session_updateTrigger (form : TriggerForm) :
    (updateTrigger form s).session = s.revised i { t with kind := form.kind } := by
  unfold updateTrigger
  rw [findsSelected_active.bind_apply hi ht]
  rfl

include hs

/-- A form that is refused adds nothing. -/
private theorem session_push_of_form {ε α : Type} {wrap : ε → EditError} {r : Except ε α}
    {make : α → Statement} :
    ((active >>= fun _ => Edit.ofExcept wrap r >>= fun a => push (make a)) s).session =
      s.revised i (t.append (r.toOption.map make).toList) := by
  rw [findsSelected_active.bind_apply hi ht]
  cases r with
  | error e =>
    refine eq_revised hs ht ?_
    rw [Trigger.append, Except.toOption, Option.map_none, Option.toList_none, List.append_nil]
  | ok a => exact session_push hi ht (make a)

/-- A statement that is not there is not removed, and erasing it changes nothing. -/
theorem session_removeStatement (index : Nat) : (removeStatement index s).session =
    s.revised i { t with statements := t.statements.eraseIdx index } := by
  unfold removeStatement
  rw [findsSelected_active.bind_apply hi ht]
  dsimp only
  cases h : t.statements[index]? with
  | none =>
    refine eq_revised hs ht ?_
    rw [List.eraseIdx_of_length_le (List.getElem?_eq_none_iff.1 h)]
  | some statement => rfl

/-- Moving up exchanges a statement with the one before it, if both are there. -/
theorem session_moveUp (index : Nat) :
    (moveUp index s).session = s.revised i ((Request.moveUp index).revise t) := by
  unfold moveUp
  rw [findsSelected_active.bind_apply hi ht]
  dsimp only
  split <;> rename_i h
  · -- the statement is not there
    refine eq_revised hs ht ?_
    cases index with
    | zero => rfl
    | succ index => rw [Request.revise, swapNext_of_le h]
  · cases index with
    | zero => exact eq_revised hs ht rfl
    | succ index => rfl

/-- Moving down exchanges it with the one after it. -/
theorem session_moveDown (index : Nat) :
    (moveDown index s).session = s.revised i ((Request.moveDown index).revise t) := by
  unfold moveDown
  rw [findsSelected_active.bind_apply hi ht]
  dsimp only
  split <;> rename_i h
  · refine eq_revised hs ht ?_
    rw [Request.revise, swapNext_of_le (Nat.le_succ_of_le h)]
  · split <;> rename_i hlast
    · -- there is no next one
      refine eq_revised hs ht ?_
      rw [Request.revise, swapNext_of_le (Nat.le_of_eq hlast.symm)]
    · rfl

/-- A request about the selected trigger puts the revised trigger in its place. -/
theorem session_answer {r : Request} (hr : r.Revises) :
    (r.answer s).session = s.revised i (r.revise t) := by
  cases r with
  | setName | addTrigger | removeTrigger | select | loadTemplate | clear => cases hr
  | updateTrigger form => exact Edit.session_done.trans (session_updateTrigger hi ht form)
  | addInput form => exact Edit.session_done.trans (session_push_of_form hs hi ht)
  | addOutput form => exact Edit.session_done.trans (session_push_of_form hs hi ht)
  | addIf form => exact Edit.session_done.trans (session_push_of_form hs hi ht)
  | addForget labels => exact Edit.session_done.trans (session_push hi ht _)
  | push statement => exact Edit.session_done.trans (session_push hi ht statement)
  | removeStatement index => exact Edit.session_done.trans (session_removeStatement hs hi ht index)
  | moveUp index => exact session_moveUp hs hi ht index
  | moveDown index => exact session_moveDown hs hi ht index

end

/-! ## Revisions in the script -/

/-- The trigger `t` at a position has become `u`, and all else is as before: in the script, too,
there is another block in one place, and the pieces and the empty lines between them stay. -/
structure RevisedAt (i : Nat) (t u : Trigger) (s s' : ProgramSession) : Prop where
  name : s'.program.name = s.program.name
  length : s'.program.triggers.length = s.program.triggers.length
  selected : s'.selected = s.selected
  others (j : Nat) : j ≠ i → s'.program.triggers[j]? = s.program.triggers[j]?
  revised : s'.program.triggers[i]? = some u
  code_before : s.generated.code = "\n\n".intercalate s.program.pieces
  block_before : s.program.pieces[s.program.blockIndex i]? = some t.block
  code_after : s'.generated.code =
    "\n\n".intercalate (s.program.pieces.set (s.program.blockIndex i) u.block)

/-- A session that is up to date shows the revised trigger in one place of its script. -/
theorem revisedAt_revised (hs : s.UpToDate) (ht : s.program.triggers[i]? = some t) (u : Trigger) :
    RevisedAt i t u s (s.revised i u) where
  name := rfl
  length := List.length_set
  selected := rfl
  others _ hj := List.getElem?_set_ne hj.symm
  revised := getElem?_revised ht
  code_before := by rw [hs.generated_eq, Generated.ofCode, Program.script_eq_intercalate]
  block_before := Program.getElem?_pieces ht
  code_after := by
    rw [revised, showing, Generated.ofCode, Program.script_eq_intercalate, Program.pieces_set]

/-- A statement that has been pushed can be taken away again, and nothing of it remains. -/
theorem removeStatement_push (hs : s.UpToDate) (hi : s.selected = some i)
    (ht : s.program.triggers[i]? = some t) (statement : Statement) :
    let removed := removeStatement t.statements.length (push statement s).session
    removed.result = .ok statement ∧ removed.session = s := by
  have hpushed := getElem?_revised (u := t.append [statement]) ht
  have hsel := (selected_revised s i (t.append [statement])).trans hi
  have hlast : (t.append [statement]).statements[t.statements.length]? = some statement :=
    List.getElem?_concat_length
  rw [session_push hi ht]
  constructor
  · unfold removeStatement
    rw [findsSelected_active.bind_apply hsel hpushed]
    dsimp only
    rw [hlast]
    rfl
  · rw [session_removeStatement (upToDate_revised hs ..) hsel hpushed, revised_revised]
    have hback : (t.append [statement]).statements.eraseIdx t.statements.length = t.statements := by
      rw [Trigger.append, List.eraseIdx_append_of_length_le (Nat.le_refl _), Nat.sub_self]
      exact List.append_nil _
    rw [hback]
    exact revised_self hs ht

/-- In every state of every run, a request about the selected trigger that does not remove it
revises this trigger only, be it answered or refused. It changes either when the trigger fires or
what it does. Pushing a statement and removing it again leads back to the same state. -/
theorem revisions_stay_inside (h : Reachable Begun Editor.Answered s) (hi : s.selected = some i) :
    ∃ t, s.program.triggers[i]? = some t ∧
      (∀ r : Request, r.Revises →
        RevisedAt i t (r.revise t) s (r.answer s).session ∧
        ((∃ form, r = .updateTrigger form) → (r.revise t).statements = t.statements) ∧
        ((∀ form, r ≠ .updateTrigger form) → (r.revise t).kind = t.kind)) ∧
      ∀ statement, (push statement s).result = .ok () ∧
        let removed := removeStatement t.statements.length (push statement s).session
        removed.result = .ok statement ∧ removed.session = s := by
  have hs := UpToDate.of_run h
  have ht := List.getElem?_eq_getElem (hs.selection.lt i hi)
  refine ⟨_, ht, fun r hr => ⟨?_, ?_, fun hform => ?_⟩, fun statement => ⟨?_, ?_⟩⟩
  · rw [session_answer hs hi ht hr]
    exact revisedAt_revised hs ht _
  · rintro ⟨form, rfl⟩
    rfl
  · cases r with
    | updateTrigger form => exact absurd rfl (hform form)
    | moveUp index => cases index <;> rfl
    | _ => rfl
  · unfold push
    rw [findsSelected_active.bind_apply hi ht]
    rfl
  · exact removeStatement_push hs hi ht statement

/-- The second of two triggers forgets all labels, and nothing else comes into the script; then it
does not do so any more. -/
theorem revisions_stay_inside_second :
    ∃ s : ProgramSession, Reachable Begun Editor.Answered s ∧ s.selected = some 1 ∧
      ∃ t, t.kind = .redstonePulse ∧
        RevisedAt 1 t (t.append [.forget none]) s ((Request.addForget " ").answer s).session ∧
        (removeStatement 0 (push (.forget none) s).session).session = s := by
  let p : Program := { Program.initial with triggers := [.initial, .ofKind .redstonePulse] }
  have h : Reachable Begun Editor.Answered (start p).session := .of_initial ⟨p, rfl⟩
  have h := h.next (t := (select 1 (start p).session).session) ⟨.select 1, rfl⟩
  obtain ⟨t, ht, hrevised, hremoved⟩ := revisions_stay_inside h rfl
  cases ht
  exact ⟨_, h, rfl, _, rfl, (hrevised (.addForget " ") trivial).1, (hremoved (.forget none)).2.2⟩

end ProgramSession
end FactoryScript
