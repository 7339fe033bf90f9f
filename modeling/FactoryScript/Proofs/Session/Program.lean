import FactoryScript.Program.Document
import FactoryScript.Proofs.Json.Record
import FactoryScript.Proofs.Session.Editor
import FactoryScript.Session.Program

/-!
# Runs of a program session

`ProgramSession.Change` lists all that a request can make of a session (`change_answer`). A run
keeps the selection in range, the intervals above zero, and the script up to date. So the one
request that looks the selected trigger up by its position always finds it, and a request about the
selected trigger misses it only when there is none (`program_sound_of_reached`).
-/

namespace FactoryScript

/-- A trigger with this kind does not fire without pause. -/
def TriggerKind.Paced : TriggerKind → Prop
  | scheduled s => 1 ≤ s.interval
  | redstonePulse => True

namespace ProgramSession

/-- What can be asked of a program session. -/
inductive Request
  | setName (name : String)
  | addTrigger (form : TriggerForm)
  | updateTrigger (form : TriggerForm)
  | removeTrigger
  | select (index : Nat)
  | addInput (form : TransferForm)
  | addOutput (form : TransferForm)
  | addIf (form : ConditionForm)
  | addForget (labels : String)
  | push (statement : Statement)
  | removeStatement (index : Nat)
  | moveUp (index : Nat)
  | moveDown (index : Nat)
  | loadTemplate (t : Template)
  | clear

namespace Request

def answer : Request → Edit ProgramSession Bool
  | setName name => (ProgramSession.setName name).done
  | addTrigger form => (ProgramSession.addTrigger form).done
  | updateTrigger form => (ProgramSession.updateTrigger form).done
  | removeTrigger => ProgramSession.removeTrigger.done
  | select index => (ProgramSession.select index).done
  | addInput form => (ProgramSession.addInput form).done
  | addOutput form => (ProgramSession.addOutput form).done
  | addIf form => (ProgramSession.addIf form).done
  | addForget labels => (ProgramSession.addForget labels).done
  | push statement => (ProgramSession.push statement).done
  | removeStatement index => (ProgramSession.removeStatement index).done
  | moveUp index => ProgramSession.moveUp index
  | moveDown index => ProgramSession.moveDown index
  | loadTemplate t => (ProgramSession.loadTemplate t).done
  | clear => ProgramSession.clear.done

/-- The request is about the selected trigger. -/
def AboutSelected : Request → Prop
  | updateTrigger _ | removeTrigger | addInput _ | addOutput _ | addIf _ | addForget _ | push _
  | removeStatement _ | moveUp _ | moveDown _ => True
  | setName _ | addTrigger _ | select _ | loadTemplate _ | clear => False

end Request

/-- A session starts afresh, or with the program of a document. -/
inductive Started : ProgramSession → Prop
  | fresh : Started fresh.session
  | start {document : Json} {p : Program} (h : Program.read document = .ok p) :
    Started (start p).session

instance : Editor ProgramSession where
  Request := Request
  answer := Request.answer
  Allowed _ _ := True
  Started := Started
  generated := generated

/-! ## What a request can make of a session -/

/-- The session with this program and its script. -/
def showing (p : Program) (selected : Option Nat) : ProgramSession :=
  ⟨p, selected, .ofCode p.script⟩

inductive Change (s : ProgramSession) : ProgramSession → Prop
  | same : Change s s
  | select {i : Nat} (h : i < s.program.triggers.length) : Change s { s with selected := some i }
  | setName (name : String) : Change s (showing { s.program with name := name } s.selected)
  | add (form : TriggerForm) :
    Change s (showing { s.program with triggers := s.program.triggers ++ [.ofKind form.kind] }
      (some s.program.triggers.length))
  /-- The selected trigger has other statements, or its kind is that of a form. -/
  | put {i : Nat} {t u : Trigger} (hi : s.selected = some i) (ht : s.program.triggers[i]? = some t)
    (hkind : u.kind = t.kind ∨ ∃ form : TriggerForm, u.kind = form.kind) :
    Change s (showing { s.program with triggers := s.program.triggers.set i u } s.selected)
  | remove {i : Nat} (hi : s.selected = some i) (h : i < s.program.triggers.length) :
    Change s (showing { s.program with triggers := s.program.triggers.eraseIdx i }
      (firstOf (s.program.triggers.eraseIdx i)))
  | load (t : Template) : Change s (showing t.program (firstOf t.program.triggers))
  | clear : Change s (showing { s.program with triggers := [] } none)

variable {s : ProgramSession}

/-- The active trigger is the selected one. -/
theorem findsSelected_active : active.FindsSelected selected (·.program.triggers) where
  found {s i t} hi ht := by
    have hsel : s.selectedTrigger? = some t := by rw [selectedTrigger?, hi]; exact ht
    unfold active
    rw [Edit.session_bind_apply, hi, hsel]
    rfl
  missed {s} h := by
    have hsel : s.selectedTrigger? = none := h
    unfold active
    rw [Edit.session_bind_apply, hsel]
    cases s.selected <;> rfl

private theorem change_of_active {α : Type} {f : Nat × Trigger → Edit ProgramSession α}
    (hf : ∀ i t, s.selected = some i → s.program.triggers[i]? = some t →
      Change s (f (i, t) s).session) :
    Change s ((active >>= f) s).session :=
  findsSelected_active.of_bind .same hf

theorem change_updateTrigger (form : TriggerForm) : Change s (updateTrigger form s).session :=
  change_of_active fun _ _ hi ht => .put hi ht (.inr ⟨form, rfl⟩)

/-- The selected trigger is removed, or nothing changes. -/
theorem change_removeTrigger : Change s (removeTrigger s).session := by
  unfold removeTrigger
  rw [Edit.session_bind_apply]
  cases hi : s.selected with
  | none => exact .same
  | some i =>
    dsimp only
    cases ht : s.program.triggers[i]? with
    | none => exact .same
    | some t => exact .remove hi (List.getElem?_eq_some_iff.1 ht).1

theorem change_select (index : Nat) : Change s (select index s).session := by
  unfold select
  rw [Edit.session_bind_apply]
  split <;> rename_i h
  · exact .select h
  · exact .same

theorem change_push (statement : Statement) : Change s (push statement s).session :=
  change_of_active fun _ _ hi ht => .put hi ht (.inl rfl)

/-- A statement is pushed once it has been made out of a form. -/
private theorem change_push_of_form {ε α : Type} {wrap : ε → EditError} {r : Except ε α}
    {make : α → Statement} :
    Change s ((active >>= fun _ => Edit.ofExcept wrap r >>= fun a => push (make a)) s).session := by
  refine change_of_active fun _ _ _ _ => ?_
  exact Edit.of_bind Edit.session_ofExcept .same fun a _ => change_push (make a)

theorem change_removeStatement (index : Nat) : Change s (removeStatement index s).session := by
  refine change_of_active fun i t hi ht => ?_
  dsimp only
  cases t.statements[index]? with
  | none => exact .same
  | some statement => exact .put hi ht (.inl rfl)

/-- A statement that moves is a change of the selected trigger alone. -/
theorem change_moveUp (index : Nat) : Change s (moveUp index s).session := by
  refine change_of_active fun i t hi ht => ?_
  dsimp only
  split
  · exact .same
  cases index with
  | zero => exact .same
  | succ index => exact .put hi ht (.inl rfl)

/-- The same downwards. -/
theorem change_moveDown (index : Nat) : Change s (moveDown index s).session := by
  refine change_of_active fun i t hi ht => ?_
  dsimp only
  split
  · exact .same
  · split
    · exact .same
    · exact .put hi ht (.inl rfl)

private theorem Change.done {α : Type} {x : Edit ProgramSession α} (h : Change s (x s).session) :
    Change s (x.done s).session := by
  rw [Edit.session_done]
  exact h

/-- Every request makes one of the changes. -/
theorem change_answer (r : Request) : Change s (r.answer s).session := by
  cases r with
  | setName name => exact Change.done (.setName name)
  | addTrigger form => exact Change.done (.add form)
  | updateTrigger form => exact (change_updateTrigger form).done
  | removeTrigger => exact change_removeTrigger.done
  | select index => exact (change_select index).done
  | addInput form => exact Change.done change_push_of_form
  | addOutput form => exact Change.done change_push_of_form
  | addIf form => exact Change.done change_push_of_form
  | addForget labels => exact (change_push _).done
  | push statement => exact (change_push statement).done
  | removeStatement index => exact (change_removeStatement index).done
  | moveUp index => exact change_moveUp index
  | moveDown index => exact change_moveDown index
  | loadTemplate t => exact Change.done (.load t)
  | clear => exact Change.done .clear

/-! ## What a run keeps -/

/-- The selection is in range, and script and measurement belong to the program. -/
structure UpToDate (s : ProgramSession) : Prop where
  selection : SelectionValid s.selected s.program.triggers.length
  generated_eq : s.generated = .ofCode s.program.script

/-- The selection is in range, the triggers do not fire without pause, and script and measurement
belong to the program. -/
structure Sound (s : ProgramSession) : Prop where
  selection : SelectionValid s.selected s.program.triggers.length
  paced : ∀ t ∈ s.program.triggers, t.kind.Paced
  code_eq : s.generated.code = s.program.script
  status_eq : s.generated.status = Budget.device.status s.generated.code
  measured : 10 * s.generated.code.length < UInt64.size →
    Budget.device.measure s.generated.code = .ok s.generated.status

theorem UpToDate.sound (hs : s.UpToDate) (hp : ∀ t ∈ s.program.triggers, t.kind.Paced) :
    s.Sound where
  selection := hs.selection
  paced := hp
  code_eq := by rw [hs.generated_eq]; rfl
  status_eq := by rw [hs.generated_eq]; rfl
  measured hlength := by rw [hs.generated_eq] at hlength ⊢; exact Budget.measure_device hlength

theorem Sound.upToDate (hs : s.Sound) : s.UpToDate where
  selection := hs.selection
  generated_eq := by rw [Generated.ofCode, ← hs.code_eq, ← hs.status_eq]

theorem selectionValid_firstOf {α : Type} (l : List α) : SelectionValid (firstOf l) l.length := by
  cases l with
  | nil => exact .none
  | cons a rest => exact .some (Nat.succ_pos _)

theorem upToDate_showing {p : Program} {selected : Option Nat}
    (hsel : SelectionValid selected p.triggers.length) : (showing p selected).UpToDate :=
  ⟨hsel, rfl⟩

/-- Each request keeps the selection in range and brings the script up to date. -/
theorem UpToDate.change {r : ProgramSession} (hs : s.UpToDate) (h : Change s r) : r.UpToDate := by
  cases h with
  | same => exact hs
  | select h => exact ⟨.some h, hs.generated_eq⟩
  | setName name => exact upToDate_showing hs.selection
  | add form => exact upToDate_showing (.some (by simp))
  | put hi ht hkind => exact upToDate_showing (by simpa using hs.selection)
  | remove hi h => exact upToDate_showing (selectionValid_firstOf _)
  | load t => exact upToDate_showing (selectionValid_firstOf _)
  | clear => exact upToDate_showing .none

theorem upToDate_start (p : Program) : (start p).session.UpToDate :=
  upToDate_showing (selectionValid_firstOf _)

theorem paced_kind (form : TriggerForm) : form.kind.Paced := by
  unfold TriggerForm.kind
  split
  · trivial
  · exact UInt32.one_le_max _

theorem kind_of_mem_template {t : Template} {u : Trigger} (h : u ∈ t.program.triggers) :
    u.kind = .scheduled (.every 20) := by
  cases t <;> simp only [Template.program, List.mem_cons, List.not_mem_nil, or_false] at h
  case smelting => obtain rfl | rfl := h <;> rfl
  all_goals exact h ▸ rfl

/-- No request makes a trigger fire without pause. -/
theorem paced_of_change {r : ProgramSession} (hs : ∀ t ∈ s.program.triggers, t.kind.Paced)
    (h : Change s r) : ∀ t ∈ r.program.triggers, t.kind.Paced := by
  cases h with
  | same | select | setName => exact hs
  | add form =>
    refine List.forall_mem_append.2 ⟨hs, fun t ht => ?_⟩
    rw [List.mem_singleton.1 ht]
    exact paced_kind form
  | put hi ht hkind =>
    intro v hv
    rcases List.mem_or_eq_of_mem_set hv with hv | rfl
    · exact hs v hv
    rcases hkind with hkind | ⟨form, hkind⟩
    · exact hkind ▸ hs _ (List.mem_of_getElem? ht)
    · exact hkind ▸ paced_kind form
  | remove hi h => exact fun t ht => hs t (List.mem_of_mem_eraseIdx ht)
  | load t =>
    intro u hu
    rw [kind_of_mem_template hu]
    exact (by decide : (1 : UInt32) ≤ 20)
  | clear => exact nofun

theorem Sound.change {r : ProgramSession} (hs : s.Sound) (h : Change s r) : r.Sound :=
  (hs.upToDate.change h).sound (paced_of_change hs.paced h)

/-- A schedule that has been read has an interval of at least one, since zero is read as one. -/
theorem paced_of_ofMembers {members : List (String × Json)} {kind : TriggerKind}
    (h : TriggerKind.ofMembers members = .ok kind) : kind.Paced := by
  unfold TriggerKind.ofMembers at h
  split at h
  · obtain ⟨schedule, hs, rfl⟩ := Except.map_eq_ok_iff.1 h
    refine Fields.Yields.ofMembers (P := fun s : Schedule => 1 ≤ s.interval) ?_ hs
    intro n hn _ _ _ _ _ _
    exact Json.one_le_of_interval_field hn
  · cases h
    trivial
  · cases h

/-- The interval of a schedule in a document is raised to one. -/
theorem paced_of_read {v : Json} {t : Trigger} {room : Nat} (h : Trigger.read room v = .ok t) :
    t.kind.Paced := by
  unfold Trigger.read at h
  split at h
  · obtain ⟨statements, _, h⟩ := Except.bind_eq_ok_iff.1 h
    obtain ⟨kind, hkind, rfl⟩ := Except.map_eq_ok_iff.1 h
    exact paced_of_ofMembers (Json.eq_ok_of_settle hkind)
  · exact absurd h Json.unexpected_ne_ok

/-- So have all schedules of a program that has been read. -/
theorem paced_of_read_program {v : Json} {p : Program} (h : Program.read v = .ok p) :
    ∀ t ∈ p.triggers, t.kind.Paced := by
  refine Json.readRecord_yields (P := fun p : Program => ∀ t ∈ p.triggers, t.kind.Paced) ?_ h
  intro _ _ triggers htriggers
  obtain h | h | ⟨v, hv⟩ := htriggers
  · cases h
  · cases h
    nofun
  · exact Json.forall_mem_of_readList (fun v t ht => paced_of_read ht) hv

theorem sound_start {p : Program} (hp : ∀ t ∈ p.triggers, t.kind.Paced) :
    (start p).session.Sound := (upToDate_start p).sound hp

theorem Started.sound (h : Started s) : s.Sound := by
  cases h with
  | fresh =>
    refine sound_start fun t ht => ?_
    rw [List.mem_singleton.1 ht]
    exact (by decide : 1 ≤ defaultInterval)
  | start h => exact sound_start (paced_of_read_program h)

/-- A session begins with some program, be it one that no document holds. (So does a fresh one.) -/
def Begun (s : ProgramSession) : Prop := ∃ p, s = (start p).session

theorem UpToDate.of_run (h : Reachable Begun Editor.Answered s) : s.UpToDate := by
  refine h.invariant ?_ ?_
  · rintro _ ⟨p, rfl⟩
    exact upToDate_start p
  · rintro s _ hs ⟨r, rfl⟩
    exact hs.change (change_answer r)

/-! ## Finding the selected trigger -/

theorem Sound.exists_selected (hs : s.Sound) (h : s.program.triggers ≠ []) :
    ∃ i t, s.selected = some i ∧ s.program.triggers[i]? = some t := by
  obtain ⟨i, hi, hsel⟩ := hs.selection.exists_of_pos (List.length_pos_iff.2 h)
  exact ⟨i, _, hsel, List.getElem?_eq_getElem hi⟩

theorem Sound.selected_eq_none (hs : s.Sound) (h : s.program.triggers = []) : s.selected = none :=
  hs.selection.eq_none_iff.2 (List.length_eq_zero_iff.2 h)

private theorem result_active_bind {α : Type} {f : Nat × Trigger → Edit ProgramSession α}
    (hs : s.Sound)
    (hf : ∀ i t, s.program.triggers[i]? = some t → (f (i, t) s).result ≠ .error .noTrigger) :
    ((active >>= f) s).result = .error .noTrigger ↔ s.program.triggers = [] := by
  rw [Edit.result_bind]
  by_cases h : s.program.triggers = []
  · rw [findsSelected_active.missed (by rw [hs.selected_eq_none h]; rfl)]
    exact ⟨fun _ => h, fun _ => rfl⟩
  · obtain ⟨i, t, hi, ht⟩ := hs.exists_selected h
    rw [findsSelected_active.found hi ht]
    exact ⟨fun herr => absurd herr (hf i t ht), fun hnil => absurd hnil h⟩

theorem result_push (hs : s.Sound) (statement : Statement) :
    (push statement s).result = .error .noTrigger ↔ s.program.triggers = [] :=
  result_active_bind hs fun _ _ _ => nofun

private theorem result_push_of_form {α : Type} {r : Except NotACount α} {make : α → Statement}
    (hs : s.Sound) :
    ((active >>= fun _ => Edit.ofExcept .notACount r >>= fun a => push (make a)) s).result =
      .error .noTrigger ↔ s.program.triggers = [] := by
  refine result_active_bind hs fun i t ht herr => ?_
  cases r with
  | error e => cases herr
  | ok a =>
    -- the trigger that was found first is still there when the statement is pushed
    rw [Edit.result_bind] at herr
    have hnil := (result_push hs (make a)).1 herr
    rw [hnil] at ht
    cases ht

/-- The selected trigger is removed, if there is one. -/
theorem result_removeTrigger (hs : s.Sound) :
    (s.program.triggers = [] ∧ (removeTrigger s).result = .error .noTrigger) ∨
      (s.program.triggers ≠ [] ∧ ∃ t, (removeTrigger s).result = .ok t) := by
  unfold removeTrigger
  rw [Edit.session_bind_apply]
  by_cases h : s.program.triggers = []
  · rw [hs.selected_eq_none h]
    exact .inl ⟨h, rfl⟩
  · obtain ⟨i, t, hi, ht⟩ := hs.exists_selected h
    simp only [hi, ht]
    exact .inr ⟨h, t, rfl⟩

/-- A request about the selected trigger misses it exactly if there are no triggers. -/
theorem result_answer (hs : s.Sound) {r : Request} (hr : r.AboutSelected) :
    (r.answer s).result = .error .noTrigger ↔ s.program.triggers = [] := by
  cases r with
  | setName | addTrigger | select | loadTemplate | clear => cases hr
  | updateTrigger form =>
    exact Edit.result_done_eq_error.trans (result_active_bind hs fun _ _ _ => nofun)
  | removeTrigger =>
    refine Edit.result_done_eq_error.trans ?_
    obtain ⟨h, herr⟩ | ⟨h, t, hok⟩ := result_removeTrigger hs
    · exact ⟨fun _ => h, fun _ => herr⟩
    · rw [hok]
      exact ⟨nofun, fun hnil => absurd hnil h⟩
  | addInput form => exact Edit.result_done_eq_error.trans (result_push_of_form hs)
  | addOutput form => exact Edit.result_done_eq_error.trans (result_push_of_form hs)
  | addIf form => exact Edit.result_done_eq_error.trans (result_push_of_form hs)
  | addForget labels => exact Edit.result_done_eq_error.trans (result_push hs _)
  | push statement => exact Edit.result_done_eq_error.trans (result_push hs _)
  | removeStatement index =>
    refine Edit.result_done_eq_error.trans (result_active_bind hs fun i t _ => ?_)
    dsimp only
    cases t.statements[index]? <;> exact nofun
  | moveUp index =>
    refine result_active_bind hs fun i t _ => ?_
    dsimp only
    split
    · exact nofun
    · cases index <;> exact nofun
  | moveDown index =>
    refine result_active_bind hs fun i t _ => ?_
    dsimp only
    split
    · exact nofun
    · split <;> exact nofun

theorem Reached.sound (h : Editor.Reached s) : s.Sound :=
  h.invariant (fun _ => Started.sound) fun _ _ hs _ => hs.change (change_answer _)

/-- In every state of every run something is selected as long as there are triggers, and it is one
of them; schedules have intervals of at least one; and the script and its measurement are those of
the program. So removing the selected trigger never misses it, and a request about the selected
trigger fails for the lack of one exactly if there are no triggers. -/
theorem program_sound_of_reached (h : Editor.Reached s) :
    s.Sound ∧ (∀ i, (removeTrigger s).result ≠ .error (.triggerNotFound i)) ∧
      ∀ r : Request, r.AboutSelected →
        ((r.answer s).result = .error .noTrigger ↔ s.program.triggers = []) := by
  have hs := Reached.sound h
  refine ⟨hs, fun i herr => ?_, fun r hr => result_answer hs hr⟩
  obtain ⟨_, h⟩ | ⟨_, t, h⟩ := result_removeTrigger hs <;> rw [h] at herr <;> cases herr

/-- A cleared session has nothing to select. The schedule that is added to it with an interval of
zero has one of one, and what is pushed then goes into its trigger. -/
theorem program_sound_rebuilt :
    ∃ cleared s : ProgramSession, Editor.Reached cleared ∧ Editor.Reached s ∧
      cleared = (Request.clear.answer fresh.session).session ∧ cleared.Sound ∧
      cleared.selected = none ∧
      ((Request.moveUp 3).answer cleared).result = .error .noTrigger ∧
      s.program.triggers = [⟨.scheduled (.every 1), [.forget none]⟩] ∧ s.Sound ∧
      s.selected = some 0 ∧ (removeTrigger s).result ≠ .error (.triggerNotFound 0) ∧
      ((Request.moveUp 3).answer s).result ≠ .error .noTrigger := by
  have h : Editor.Reached fresh.session := Editor.reached_of_started Started.fresh
  have hcleared := h.answer (r := Request.clear) trivial
  obtain ⟨hsound, -, hanswer⟩ := program_sound_of_reached hcleared
  have h := hcleared.answer (r := Request.addTrigger (.every 0 .ticks)) trivial
  have h := h.answer (r := Request.push (.forget none)) trivial
  obtain ⟨hsound', hfound, hanswer'⟩ := program_sound_of_reached h
  refine ⟨_, _, hcleared, h, rfl, hsound, rfl, (hanswer (.moveUp 3) trivial).2 rfl, rfl, hsound',
    rfl, hfound 0, fun herr => ?_⟩
  cases (hanswer' (.moveUp 3) trivial).1 herr

end ProgramSession
end FactoryScript
