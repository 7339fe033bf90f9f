import FactoryScript.Proofs.Session.Refusal

/-!
# What an edit reports

A session has one script at a time. Every edit replaces it at most once, by one that has been
measured, and warns as this replacement calls for, whatever else the edit does before and after
(`Edit.Reports`): all that surrounds the replacement leaves the script alone and does not warn
(`Edit.Quiet`).
-/

namespace FactoryScript

/-! ## Messages of an edit -/

/-- The messages that warn. -/
def warnings (notes : List Note) : List Note := notes.filter fun n => n.level = .warn

theorem warnings_append (notes more : List Note) :
    warnings (notes ++ more) = warnings notes ++ warnings more := List.filter_append ..

/-- The script is kept, or replaced by one that has been measured, and the warnings are those of
this replacement. -/
structure Generated.Replaced (kind : String) (old new : Generated) (notes : List Note) : Prop where
  measured : new = old ∨ new = .ofCode new.code
  warnings : warnings notes = old.notes new kind

namespace Generated
variable {kind : String} {old new : Generated}

theorem notes_self (g : Generated) (kind : String) : g.notes g kind = [] := by
  simp [notes]

theorem warnings_notes (old new : Generated) (kind : String) :
    FactoryScript.warnings (old.notes new kind) = old.notes new kind := by
  unfold notes
  split
  · rfl
  · rfl

theorem replaced_ofCode (old : Generated) (code kind : String) :
    Replaced kind old (.ofCode code) (old.notes (.ofCode code) kind) :=
  ⟨.inr rfl, warnings_notes ..⟩

theorem Replaced.status_eq {notes : List Note} (h : Replaced kind old new notes)
    (hold : old.status = Budget.device.status old.code) :
    new.status = Budget.device.status new.code := by
  obtain rfl | hnew := h.measured
  · exact hold
  · exact congrArg status hnew

/-- A replacement that does not cross the threshold may come before another one. -/
theorem Replaced.trans {mid : Generated} {notes more : List Note}
    (h : Replaced kind old mid notes) (h' : Replaced kind mid new more)
    (hcalm : mid.status.warning = old.status.warning) :
    Replaced kind old new (notes ++ more) := by
  have hmid : old.notes mid kind = [] := by simp [Generated.notes, hcalm]
  have hnew : mid.notes new kind = old.notes new kind := by simp only [Generated.notes, hcalm]
  refine ⟨?_, by rw [warnings_append, h.warnings, h'.warnings, hmid, hnew, List.nil_append]⟩
  obtain rfl | hnew := h'.measured
  · exact h.measured
  · exact .inr hnew

end Generated

open Editor (generated)

namespace Edit
variable {σ α β : Type} [Editor σ] {x : Edit σ α} {f : α → Edit σ β} {kind : String}

/-- The edit keeps the script and does not warn. -/
def Quiet (x : Edit σ α) : Prop :=
  ∀ s, generated (x s).session = generated s ∧ warnings (x s).notes = []

/-- The edit replaces the script at most once, and warns if that is called for. -/
def Reports (kind : String) (x : Edit σ α) : Prop :=
  ∀ s, (generated s).Replaced kind (generated (x s).session) (x s).notes

omit [Editor σ] in
/-- Two edits in a row: the first one fails, or the second one goes on from its session and adds its
notes. -/
theorem bind_cases (x : Edit σ α) (f : α → Edit σ β) (s : σ) :
    ((x >>= f) s).session = (x s).session ∧ ((x >>= f) s).notes = (x s).notes ∨
      ∃ a, ((x >>= f) s).session = (f a (x s).session).session ∧
        ((x >>= f) s).notes = (x s).notes ++ (f a (x s).session).notes := by
  change (Edit.bind x f s).session = _ ∧ (Edit.bind x f s).notes = _ ∨
    ∃ a, (Edit.bind x f s).session = _ ∧ (Edit.bind x f s).notes = _
  rw [Edit.bind]
  split <;> rename_i a t notes h <;> rw [h]
  · exact .inr ⟨a, rfl, rfl⟩
  · exact .inl ⟨rfl, rfl⟩

theorem Looks.quiet (hx : x.Looks) : x.Quiet := fun s => by
  obtain ⟨hsession, hnotes⟩ := hx s
  rw [hsession, hnotes]
  exact ⟨rfl, rfl⟩

theorem quiet_tell_info (text : String) : (tell .info text : Edit σ Unit).Quiet :=
  fun _ => ⟨rfl, rfl⟩

theorem quiet_modify {g : σ → σ} (h : ∀ s, generated (g s) = generated s) : (modify g).Quiet :=
  fun s => ⟨h s, rfl⟩

/-- Two quiet edits are quiet. -/
theorem Quiet.bind (hx : x.Quiet) (hf : ∀ a, (f a).Quiet) : (x >>= f).Quiet := by
  intro s
  obtain ⟨hgenerated, hnotes⟩ := hx s
  obtain ⟨hs, hn⟩ | ⟨a, hs, hn⟩ := bind_cases x f s <;> rw [hs, hn]
  · exact hx s
  · obtain ⟨hgenerated', hnotes'⟩ := hf a (x s).session
    rw [warnings_append, hnotes, hnotes', hgenerated', hgenerated]
    exact ⟨rfl, rfl⟩

theorem Quiet.reports (hx : x.Quiet) : x.Reports kind := fun s => by
  obtain ⟨hgenerated, hnotes⟩ := hx s
  rw [hgenerated]
  exact ⟨.inl rfl, by rw [hnotes, Generated.notes_self]⟩

/-- What comes before the replacement of a script has no part in the report. -/
theorem Quiet.bind_reports (hx : x.Quiet) (hf : ∀ a, (f a).Reports kind) :
    (x >>= f).Reports kind := by
  intro s
  obtain ⟨hgenerated, hnotes⟩ := hx s
  obtain ⟨hs, hn⟩ | ⟨a, hs, hn⟩ := bind_cases x f s <;> rw [hs, hn]
  · exact hx.reports s
  · have h := hf a (x s).session
    rw [hgenerated] at h
    exact ⟨h.measured, by rw [warnings_append, hnotes, List.nil_append, h.warnings]⟩

/-- Nor has what comes after it. -/
theorem Reports.bind_quiet (hx : x.Reports kind) (hf : ∀ a, (f a).Quiet) :
    (x >>= f).Reports kind := by
  intro s
  obtain ⟨hs, hn⟩ | ⟨a, hs, hn⟩ := bind_cases x f s <;> rw [hs, hn]
  · exact hx s
  · obtain ⟨hgenerated, hnotes⟩ := hf a (x s).session
    rw [hgenerated]
    exact ⟨(hx s).measured, by rw [warnings_append, hnotes, List.append_nil, (hx s).warnings]⟩

theorem Reports.pure (hx : x.Reports kind) (g : α → β) :
    (x >>= fun a => Pure.pure (g a)).Reports kind :=
  hx.bind_quiet fun a => (looks_pure (g a)).quiet

theorem Reports.done (hx : x.Reports kind) : x.done.Reports kind := hx.pure fun _ => true

theorem Looks.bind_reports (hx : x.Looks) (hf : ∀ a, (f a).Reports kind) :
    (x >>= f).Reports kind := hx.quiet.bind_reports hf

theorem reports_fail (e : EditError) : (fail e : Edit σ α).Reports kind :=
  (looks_fail e).quiet.reports

/-- Bringing the script up to date. -/
theorem reports_of_replaces {x : Edit σ α} (code : σ → String)
    (hsession : ∀ s, generated (x s).session = .ofCode (code s))
    (hnotes : ∀ s, (x s).notes = (generated s).notes (.ofCode (code s)) kind) :
    x.Reports kind := fun s => by
  rw [hsession, hnotes]
  exact Generated.replaced_ofCode ..

/-- A change of the model before the script is brought up to date. -/
theorem reports_modify_bind {g : σ → σ} {x : Edit σ α} (hg : ∀ s, generated (g s) = generated s)
    (hx : x.Reports kind) : (modify g >>= fun _ => x).Reports kind :=
  (quiet_modify hg).bind_reports fun _ => hx

end Edit

open Edit (Reports looks_session looks_pure looks_ofExcept reports_fail reports_modify_bind
  quiet_tell_info quiet_modify)

/-! ## Programs -/

namespace ProgramSession

theorem reports_refresh : refresh.Reports "program" :=
  Edit.reports_of_replaces (fun s => s.program.script) (fun _ => rfl) fun _ => by
    simp only [refresh, Editor.generated]

theorem reports_putTrigger (i : Nat) (t : Trigger) : (putTrigger i t).Reports "program" :=
  reports_modify_bind (fun _ => rfl) reports_refresh

theorem reports_push (statement : Statement) : (push statement).Reports "program" :=
  looks_active.bind_reports fun _ => reports_putTrigger _ _

theorem reports_push_of_form {ε α : Type} {wrap : ε → EditError} {r : Except ε α}
    {make : α → Statement} :
    (active >>= fun _ => Edit.ofExcept wrap r >>= fun a => push (make a)).Reports "program" :=
  looks_active.bind_reports fun _ =>
    (looks_ofExcept wrap r).bind_reports fun a => reports_push (make a)

theorem reports_setName (name : String) : (setName name).Reports "program" :=
  reports_modify_bind (fun _ => rfl) reports_refresh

theorem reports_clear : clear.Reports "program" :=
  reports_modify_bind (fun _ => rfl) reports_refresh

theorem reports_addTrigger (form : TriggerForm) : (addTrigger form).Reports "program" :=
  (quiet_tell_info _).bind_reports fun _ => looks_session.bind_reports fun _ =>
    reports_modify_bind (fun _ => rfl) (reports_refresh.pure _)

theorem reports_removeTrigger : removeTrigger.Reports "program" := by
  refine looks_session.bind_reports fun s => ?_
  split
  · exact reports_fail _
  · split
    · exact reports_fail _
    · exact (quiet_tell_info _).bind_reports fun _ =>
        reports_modify_bind (fun _ => rfl) (reports_refresh.pure _)

theorem reports_select (index : Nat) : (select index).Reports "program" := by
  refine looks_session.bind_reports fun s => ?_
  split
  · exact (quiet_modify fun _ => rfl).reports
  · exact reports_fail _

theorem reports_loadTemplate (t : Template) : (loadTemplate t).Reports "program" :=
  (quiet_tell_info _).bind_reports fun _ => reports_modify_bind (fun _ => rfl) reports_refresh

theorem reports_removeStatement (index : Nat) : (removeStatement index).Reports "program" := by
  refine looks_active.bind_reports fun (i, t) => ?_
  dsimp only
  split
  · exact reports_fail _
  · exact (reports_putTrigger _ _).pure _

theorem reports_moveUp (index : Nat) : (moveUp index).Reports "program" := by
  refine looks_active.bind_reports fun (i, t) => ?_
  dsimp only
  split
  · exact reports_fail _
  cases index with
  | zero => exact (looks_pure false).quiet.reports
  | succ index => exact (reports_putTrigger _ _).pure _

theorem reports_moveDown (index : Nat) : (moveDown index).Reports "program" := by
  refine looks_active.bind_reports fun (i, t) => ?_
  dsimp only
  split
  · exact reports_fail _
  · split
    · exact (looks_pure false).quiet.reports
    · exact (reports_putTrigger _ _).pure _

/-- Each request to a program session replaces the script at most once. -/
theorem reports_answer (r : Request) : r.answer.Reports "program" := by
  cases r with
  | setName name => exact (reports_setName name).done
  | addTrigger form => exact (reports_addTrigger form).done
  | updateTrigger form => exact (looks_active.bind_reports fun _ => reports_putTrigger _ _).done
  | removeTrigger => exact reports_removeTrigger.done
  | select index => exact (reports_select index).done
  | loadTemplate t => exact (reports_loadTemplate t).done
  | clear => exact reports_clear.done
  | addInput form => exact reports_push_of_form.done
  | addOutput form => exact reports_push_of_form.done
  | addIf form => exact reports_push_of_form.done
  | addForget labels => exact (reports_push _).done
  | push statement => exact (reports_push statement).done
  | removeStatement index => exact (reports_removeStatement index).done
  | moveUp index => exact reports_moveUp index
  | moveDown index => exact reports_moveDown index

end ProgramSession

/-! ## Graphs -/

namespace GraphSession

theorem reports_refresh : refresh.Reports "graph" :=
  Edit.reports_of_replaces (fun s => Graph.script s.triggers) (fun _ => rfl) fun _ => by
    simp only [refresh, Editor.generated]

theorem reports_putTrigger (i : Nat) (t : GraphTrigger) : (putTrigger i t).Reports "graph" :=
  reports_modify_bind (fun _ => rfl) reports_refresh

theorem reports_keepIf (i : Nat) (changed : Bool) (t : GraphTrigger) :
    (keepIf i changed t).Reports "graph" := by
  refine reports_modify_bind (fun _ => rfl) ?_
  cases changed with
  | false => exact (looks_pure false).quiet.reports
  | true => exact reports_refresh.pure fun _ => true

theorem reports_addTrigger : addTrigger.Reports "graph" :=
  looks_session.bind_reports fun _ => (quiet_tell_info _).bind_reports fun _ =>
    reports_modify_bind (fun _ => rfl) (reports_refresh.pure _)

theorem reports_removeTrigger (index : Nat) : (removeTrigger index).Reports "graph" := by
  refine looks_session.bind_reports fun s => ?_
  split
  · exact reports_fail _
  · exact (quiet_tell_info _).bind_reports fun _ =>
      reports_modify_bind (fun _ => rfl) (reports_refresh.pure _)

theorem reports_select (index : Nat) : (select index).Reports "graph" := by
  refine looks_session.bind_reports fun s => ?_
  split
  · exact (quiet_modify fun _ => rfl).reports
  · exact reports_fail _

theorem reports_updateTrigger (index : Nat) (c : TriggerChange) :
    (updateTrigger index c).Reports "graph" := by
  refine looks_session.bind_reports fun s => ?_
  split
  · exact reports_fail _
  · exact reports_putTrigger _ _

theorem reports_updateNode (id : NodeId) (f : Node → Node) :
    (updateNode id f).Reports "graph" := by
  refine looks_active.bind_reports fun (i, t) => ?_
  dsimp only
  split
  · exact reports_putTrigger _ _
  · exact reports_fail _

/-- So does each request to a graph session. -/
theorem reports_answer (r : Request) : r.answer.Reports "graph" := by
  cases r with
  | addTrigger => exact reports_addTrigger.done
  | removeTrigger index => exact (reports_removeTrigger index).done
  | select index => exact (reports_select index).done
  | updateTrigger index c => exact (reports_updateTrigger index c).done
  | addNode =>
    exact (looks_active.bind_reports fun (i, t) => (reports_putTrigger _ _).pure _).done
  | removeNode id =>
    exact (looks_active.bind_reports fun (i, t) =>
      (looks_ofExcept .graph (t.removeNode id)).bind_reports fun _ =>
        (reports_putTrigger _ _).pure _).done
  | updateNode id f => exact (reports_updateNode id f).done
  | connect c =>
    exact looks_active.bind_reports fun (i, t) =>
      (looks_ofExcept .graph (t.connect c)).bind_reports fun _ => reports_keepIf _ _ _
  | reverse c => exact looks_active.bind_reports fun (i, t) => reports_keepIf _ _ _
  | disconnect c => exact looks_active.bind_reports fun (i, t) => reports_keepIf _ _ _

end GraphSession

/-! ## Wizard layouts -/

namespace WizardSession

theorem reports_refresh : refresh.Reports "wizard" :=
  Edit.reports_of_replaces (fun s => s.layout.script) (fun _ => rfl) fun _ => by
    simp only [refresh, Editor.generated]

theorem reports_putRows (l : RowList) (rows : List Endpoint) : (putRows l rows).Reports "wizard" :=
  reports_modify_bind (fun _ => rfl) reports_refresh

theorem reports_setInterval (interval : UInt32) : (setInterval interval).Reports "wizard" :=
  reports_modify_bind (fun _ => rfl) reports_refresh

theorem reports_removeRow (l : RowList) (index : Nat) : (removeRow l index).Reports "wizard" := by
  refine looks_session.bind_reports fun s => ?_
  dsimp only
  split
  · exact reports_fail _
  · split
    · exact (looks_pure false).quiet.reports
    · exact (reports_putRows _ _).pure _

theorem reports_updateRow (l : RowList) (index : Nat) (f : Endpoint → Endpoint) :
    (updateRow l index f).Reports "wizard" := by
  refine looks_session.bind_reports fun s => ?_
  dsimp only
  split
  · exact reports_fail _
  · exact reports_putRows _ _

theorem reports_answer (r : Request) : r.answer.Reports "wizard" := by
  cases r with
  | setInterval interval => exact (reports_setInterval interval).done
  | addRow l => exact (looks_session.bind_reports fun s => (reports_putRows _ _).pure _).done
  | removeRow l index => exact reports_removeRow l index
  | updateRow l index f => exact (reports_updateRow l index f).done

end WizardSession
end FactoryScript
