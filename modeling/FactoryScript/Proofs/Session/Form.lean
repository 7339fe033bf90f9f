import FactoryScript.Proofs.Count
import FactoryScript.Proofs.Run
import FactoryScript.Proofs.Session.Refusal
import FactoryScript.Proofs.Session.Revision

/-!
# Forms for movements

A form describes a movement (`TransferForm.Describes`) or has a number that cannot be read. The
texts of the movement are tidy (`Transfer.Tidy`), and every movement with tidy texts is described by
the form that is filled in from it (`Transfer.Tidy.describes`), so nothing changes any more when a
form is made out of the movement and used again. All that is looked at in a form are its trimmed
texts and what its numbers stand for (`TransferForm.Alike`). Only then is a statement appended
(`forms_checked`).
-/

namespace FactoryScript

/-! ## The texts of a movement -/

/-- Every text of the movement that may have been typed is tidy; only the label may be empty. -/
structure Transfer.Tidy (t : Transfer) : Prop where
  label : Text.Trimmed t.label
  resourceId : Text.Tidy t.resourceId
  except : ∀ s ∈ t.except, Text.Tidy s
  slots : ∀ s ∈ t.slots, Text.Tidy s

theorem tidy_wildcard : Text.Tidy wildcard where
  toTrimmed := Text.trimmed_of_solid ⟨'*', [], rfl, by decide⟩ ⟨[], '*', rfl, by decide⟩
  blank_eq_false := by decide

namespace TransferForm
variable {f g : TransferForm} {t : Transfer} {quantity retention : Option UInt32}

theorem filled_eq (s : String) :
    filled s = if Text.blank s then none else some (Text.trim s) := by
  rw [filled, Text.nonBlank?, Text.blank_trim]

theorem tidy_of_mem_filled (text : String) {s : String} (h : s ∈ filled text) : Text.Tidy s := by
  rw [filled_eq] at h
  split at h <;> rename_i hblank
  · cases h
  · cases h
    exact Text.tidy_trim (Bool.eq_false_iff.2 hblank)

/-- A tidy text, or none, is found again where it has been filled in. -/
theorem filled_getD {o : Option String} (h : ∀ s ∈ o, Text.Tidy s) : filled (o.getD "") = o := by
  cases o with
  | none => rfl
  | some s =>
    obtain ⟨htrimmed, hblank⟩ := h s rfl
    rw [Option.getD_some, filled_eq, hblank, Text.trim_eq_self htrimmed]
    rfl

theorem resourceId_eq (f : TransferForm) : (filled f.resourceId).getD wildcard =
    if Text.blank f.resourceId then wildcard else Text.trim f.resourceId := by
  rw [filled_eq]
  split <;> rfl

/-! ## Forms and movements -/

/-- The form describes the movement. -/
structure Describes (f : TransferForm) (t : Transfer) : Prop where
  label : t.label = Text.trim f.label
  quantity : Count.Denotes f.quantity t.quantity
  retention : Count.Denotes f.retention (t.retain.map (·.count))
  retentionEach : ∀ r ∈ t.retain, r.each = f.retentionEach
  kind : t.kind = f.kind
  resourceId : t.resourceId = if Text.blank f.resourceId then wildcard else Text.trim f.resourceId
  except : t.except = if Text.blank f.except then none else some (Text.trim f.except)
  each : t.each = f.each
  side : t.side = f.side
  slots : t.slots = if Text.blank f.slots then none else some (Text.trim f.slots)

/-- A form describes the movement that is made of it, once its two numbers are read. -/
theorem describes_transferWith (hquantity : Count.Denotes f.quantity quantity)
    (hretention : Count.Denotes f.retention retention) :
    f.Describes (f.transferWith quantity retention) where
  label := rfl
  quantity := hquantity
  retention := by
    cases retention with
    | none => exact hretention
    | some n => exact hretention
  retentionEach r hr := by
    obtain ⟨n, -, rfl⟩ := Option.map_eq_some_iff.1 hr
    rfl
  kind := rfl
  resourceId := by simp only [transferWith, resourceId_eq]
  except := by simp only [transferWith, filled_eq]
  each := rfl
  side := rfl
  slots := by simp only [transferWith, filled_eq]

/-- What the numbers stand for and the form itself leave only one movement. -/
theorem Describes.eq_transferWith (h : f.Describes t) :
    t = f.transferWith t.quantity (t.retain.map (·.count)) := by
  have hretain : t.retain = (t.retain.map (·.count)).map fun n => ⟨n, f.retentionEach⟩ := by
    cases hr : t.retain with
    | none => rfl
    | some r =>
      rw [Option.map_some, Option.map_some, ← h.retentionEach r hr]
  have hresource := h.resourceId.trans (resourceId_eq f).symm
  have hexcept := h.except.trans (filled_eq f.except).symm
  have hslots := h.slots.trans (filled_eq f.slots).symm
  obtain ⟨quantity, retain, kind, resourceId, except, label, each, side, slots⟩ := t
  rw [transferWith, ← hretain, ← hresource, ← hexcept, ← hslots, ← h.label, ← h.kind, ← h.each,
    ← h.side]

theorem transfer_of_denotes (hquantity : Count.Denotes f.quantity quantity)
    (hretention : Count.Denotes f.retention retention) :
    f.transfer = .ok (f.transferWith quantity retention) := by
  rw [transfer, hquantity.read_eq, hretention.read_eq]
  rfl

/-- A form gives the movement that it describes, and no other one. -/
theorem transfer_eq_ok_iff : f.transfer = .ok t ↔ f.Describes t := by
  constructor
  · intro h
    obtain ⟨quantity, hquantity, h⟩ := Except.bind_eq_ok_iff.1 h
    obtain ⟨retention, hretention, h⟩ := Except.bind_eq_ok_iff.1 h
    cases h
    exact describes_transferWith (Count.read_eq_ok_iff.1 hquantity)
      (Count.read_eq_ok_iff.1 hretention)
  · intro h
    rw [h.eq_transferWith]
    exact transfer_of_denotes h.quantity h.retention

theorem exists_describes (hquantity : Count.Readable f.quantity)
    (hretention : Count.Readable f.retention) : ∃ t, f.Describes t := by
  obtain ⟨quantity, hquantity⟩ := hquantity
  obtain ⟨retention, hretention⟩ := hretention
  exact ⟨_, describes_transferWith hquantity hretention⟩

theorem transfer_of_quantity (h : ¬ Count.Readable f.quantity) :
    f.transfer = .error ⟨"quantity", f.quantity⟩ := by
  rw [transfer, Count.read_of_not_readable h]
  rfl

theorem transfer_of_retention (hquantity : Count.Readable f.quantity)
    (h : ¬ Count.Readable f.retention) : f.transfer = .error ⟨"retention", f.retention⟩ := by
  obtain ⟨quantity, hquantity⟩ := hquantity
  rw [transfer, hquantity.read_eq, Count.read_of_not_readable h]
  rfl

/-- What a form describes is tidy, since each text is trimmed or left out. -/
theorem Describes.tidy (h : f.Describes t) : t.Tidy where
  label := by
    rw [h.label]
    exact Text.trimmed_trim f.label
  resourceId := by
    rw [h.resourceId]
    split <;> rename_i hblank
    · exact tidy_wildcard
    · exact Text.tidy_trim (Bool.eq_false_iff.2 hblank)
  except s hs := tidy_of_mem_filled f.except (by rwa [filled_eq, ← h.except])
  slots s hs := tidy_of_mem_filled f.slots (by rwa [filled_eq, ← h.slots])

/-- Nothing stays behind exactly if the field for it is blank. -/
theorem Describes.retain_eq_none_iff (h : f.Describes t) :
    t.retain = none ↔ Text.blank f.retention = true := by
  have hretention := h.retention
  cases hr : t.retain with
  | none =>
    rw [hr] at hretention
    exact iff_of_true rfl hretention
  | some r =>
    rw [hr, Option.map_some, Count.Denotes] at hretention
    have hblank := (Text.blank_trim f.retention).symm.trans hretention.blank_eq_false
    exact iff_of_false (Option.some_ne_none r) (Bool.eq_false_iff.1 hblank)

/-! ## Filling in a form again -/

/-- The form filled in from a movement: the numbers as numerals, nothing for what is absent. -/
def ofTransfer (t : Transfer) : TransferForm where
  label := t.label
  quantity := (t.quantity.map Count.text).getD ""
  retention := (t.retain.map fun r => Count.text r.count).getD ""
  retentionEach := (t.retain.map (·.each)).getD false
  kind := t.kind
  resourceId := t.resourceId
  except := t.except.getD ""
  each := t.each
  side := t.side
  slots := t.slots.getD ""

theorem denotes_getD (o : Option UInt32) : Count.Denotes ((o.map Count.text).getD "") o := by
  cases o with
  | none => exact (by decide : Text.blank "" = true)
  | some n => exact Count.denotes_text n

end TransferForm

/-- A tidy movement is described by the form that shows it. -/
theorem Transfer.Tidy.describes {t : Transfer} (h : t.Tidy) :
    (TransferForm.ofTransfer t).Describes t where
  label := (Text.trim_eq_self h.label).symm
  quantity := TransferForm.denotes_getD t.quantity
  retention := by
    have h := TransferForm.denotes_getD (t.retain.map (·.count))
    rwa [Option.map_map] at h
  retentionEach r hr := by
    rw [TransferForm.ofTransfer, Option.mem_def.1 hr]
    rfl
  kind := rfl
  resourceId := by
    rw [TransferForm.ofTransfer, h.resourceId.blank_eq_false,
      Text.trim_eq_self h.resourceId.toTrimmed]
    rfl
  except := by
    rw [← TransferForm.filled_eq]
    exact (TransferForm.filled_getD h.except).symm
  each := rfl
  side := rfl
  slots := by
    rw [← TransferForm.filled_eq]
    exact (TransferForm.filled_getD h.slots).symm

/-! ## Forms that come to the same -/

/-- The error without the text that it quotes. -/
def NotACount.unquoted (e : NotACount) : NotACount := { e with value := "" }

def EditError.unquoted : EditError → EditError
  | notACount e => .notACount e.unquoted
  | e => e

/-- The outcome without the text that an error quotes. -/
def Outcome.unquoted {σ α : Type} (o : Outcome σ α) : Outcome σ α :=
  { o with result := o.result.mapError EditError.unquoted }

/-- Two texts that denote the same number, or both none, are read alike up to the text that an error
quotes. -/
theorem Count.mapError_read {field s t : String}
    (h : (read field s).toOption = (read field t).toOption) :
    (read field s).mapError NotACount.unquoted = (read field t).mapError NotACount.unquoted := by
  by_cases hs : Readable s <;> by_cases ht : Readable t
  · obtain ⟨o, ho⟩ := hs
    obtain ⟨p, hp⟩ := ht
    rw [ho.read_eq, hp.read_eq] at h ⊢
    exact congrArg _ (congrArg _ (Option.some.inj h))
  · obtain ⟨o, ho⟩ := hs
    rw [ho.read_eq, read_of_not_readable ht] at h
    cases h
  · obtain ⟨p, hp⟩ := ht
    rw [hp.read_eq, read_of_not_readable hs] at h
    cases h
  · rw [read_of_not_readable hs, read_of_not_readable ht]
    rfl

namespace TransferForm
variable {f g : TransferForm}

/-- The forms agree when their texts have been trimmed and their numbers read. -/
structure Alike (f g : TransferForm) : Prop where
  label : Text.trim f.label = Text.trim g.label
  quantity : (Count.read "quantity" f.quantity).toOption =
    (Count.read "quantity" g.quantity).toOption
  retention : (Count.read "retention" f.retention).toOption =
    (Count.read "retention" g.retention).toOption
  retentionEach : f.retentionEach = g.retentionEach
  kind : f.kind = g.kind
  resourceId : Text.trim f.resourceId = Text.trim g.resourceId
  except : Text.trim f.except = Text.trim g.except
  each : f.each = g.each
  side : f.side = g.side
  slots : Text.trim f.slots = Text.trim g.slots

theorem Alike.transferWith_eq (h : f.Alike g) : f.transferWith = g.transferWith := by
  funext quantity retention
  simp only [transferWith, filled, h.label, h.retentionEach, h.kind, h.resourceId, h.except,
    h.each, h.side, h.slots]

theorem Alike.mapError_transfer (h : f.Alike g) :
    f.transfer.mapError NotACount.unquoted = g.transfer.mapError NotACount.unquoted := by
  change ((Count.read _ _).bind fun _ => (Count.read _ _).bind fun _ => .ok _).mapError _ =
    ((Count.read _ _).bind fun _ => (Count.read _ _).bind fun _ => .ok _).mapError _
  simp only [Except.mapError_bind, Count.mapError_read h.quantity, Count.mapError_read h.retention,
    h.transferWith_eq]

end TransferForm

/-! ## Appending the movement of a form -/

namespace ProgramSession
variable {s : ProgramSession} {f g : TransferForm} {make : Transfer → Statement}

/-- A request appends the movement that a form describes, as a statement made by `make`. Without a
selected trigger it does not look at the form; if it does, the quantity comes first. -/
structure AddsForms (add : TransferForm → Edit ProgramSession Unit) (make : Transfer → Statement) :
    Prop where
  unselected (f : TransferForm) (s : ProgramSession) (h : s.selectedTrigger? = none) :
    add f s = Edit.fail .noTrigger s
  quantity (f : TransferForm) (s : ProgramSession) (h : s.selectedTrigger? ≠ none)
    (hquantity : ¬ Count.Readable f.quantity) :
    add f s = Edit.fail (.notACount ⟨"quantity", f.quantity⟩) s
  retention (f : TransferForm) (s : ProgramSession) (h : s.selectedTrigger? ≠ none)
    (hquantity : Count.Readable f.quantity) (hretention : ¬ Count.Readable f.retention) :
    add f s = Edit.fail (.notACount ⟨"retention", f.retention⟩) s
  added (f : TransferForm) (s : ProgramSession) {i : Nat} {u : Trigger}
    (hi : s.selected = some i) (hu : s.program.triggers[i]? = some u)
    (hquantity : Count.Readable f.quantity) (hretention : Count.Readable f.retention) :
    ∃ t, f.Describes t ∧ (add f s).result = .ok () ∧
      (add f s).session = s.revised i (u.append [make t])
  alike (f g : TransferForm) (s : ProgramSession) (h : f.Alike g) :
    (add f s).unquoted = (add g s).unquoted

/-- Appends the movement that a form describes. -/
def addForm (make : Transfer → Statement) (f : TransferForm) : Edit ProgramSession Unit := do
  let _ ← active
  let t ← Edit.ofExcept .notACount f.transfer
  push (make t)

theorem addForm_of_unselected (h : s.selectedTrigger? = none) :
    addForm make f s = Edit.fail .noTrigger s := by
  unfold addForm
  rw [looks_active.bind_apply, findsSelected_active.missed h]
  rfl

section
variable {i : Nat} {u : Trigger} (hi : s.selected = some i) (hu : s.program.triggers[i]? = some u)
include hi hu

theorem addForm_of_error {e : NotACount} (h : f.transfer = .error e) :
    addForm make f s = Edit.fail (.notACount e) s := by
  unfold addForm
  rw [findsSelected_active.bind_apply hi hu, h]
  rfl

theorem addForm_of_ok {t : Transfer} (h : f.transfer = .ok t) :
    addForm make f s = push (make t) s := by
  unfold addForm
  rw [findsSelected_active.bind_apply hi hu, h]
  rfl

theorem result_push_eq_ok (statement : Statement) : (push statement s).result = .ok () := by
  unfold push
  rw [findsSelected_active.bind_apply hi hu]
  rfl

end

theorem exists_selected_of_ne_none (h : s.selectedTrigger? ≠ none) :
    ∃ i u, s.selected = some i ∧ s.program.triggers[i]? = some u := by
  obtain ⟨u, hu⟩ := Option.ne_none_iff_exists'.1 h
  obtain ⟨i, hi, hu⟩ := Option.bind_eq_some_iff.1 hu
  exact ⟨i, u, hi, hu⟩

/-- Forms that come to the same give the same movement or the same kind of refusal. -/
theorem unquoted_addForm (h : f.Alike g) :
    (addForm make f s).unquoted = (addForm make g s).unquoted := by
  by_cases hsel : s.selectedTrigger? = none
  · rw [addForm_of_unselected hsel, addForm_of_unselected hsel]
  obtain ⟨i, u, hi, hu⟩ := exists_selected_of_ne_none hsel
  have htransfer := h.mapError_transfer
  cases hf : f.transfer with
  | error e =>
    cases hg : g.transfer with
    | error e' =>
      rw [hf, hg] at htransfer
      have he : e.unquoted = e'.unquoted := Except.error.inj htransfer
      rw [addForm_of_error hi hu hf, addForm_of_error hi hu hg]
      simp only [Outcome.unquoted, Edit.fail, Except.mapError, EditError.unquoted, he]
    | ok t => rw [hf, hg] at htransfer; cases htransfer
  | ok t =>
    cases hg : g.transfer with
    | error e => rw [hf, hg] at htransfer; cases htransfer
    | ok t' =>
      rw [hf, hg] at htransfer
      cases htransfer
      rw [addForm_of_ok hi hu hf, addForm_of_ok hi hu hg]

/-- Statements are added from forms in the same way for inputs and outputs. -/
theorem addsForms (make : Transfer → Statement) : AddsForms (addForm make) make where
  unselected _ _ := addForm_of_unselected
  quantity f s h hquantity := by
    obtain ⟨i, u, hi, hu⟩ := exists_selected_of_ne_none h
    exact addForm_of_error hi hu (TransferForm.transfer_of_quantity hquantity)
  retention f s h hquantity hretention := by
    obtain ⟨i, u, hi, hu⟩ := exists_selected_of_ne_none h
    exact addForm_of_error hi hu (TransferForm.transfer_of_retention hquantity hretention)
  added f s {i u} hi hu hquantity hretention := by
    obtain ⟨t, ht⟩ := TransferForm.exists_describes hquantity hretention
    refine ⟨t, ht, ?_⟩
    rw [addForm_of_ok hi hu (TransferForm.transfer_eq_ok_iff.2 ht)]
    exact ⟨result_push_eq_ok hi hu (make t), session_push hi hu (make t)⟩
  alike _ _ _ := unquoted_addForm

/-- In every state, a form for an input or an output is looked at only if there is a trigger to
append to, and either one of its numbers is reported or one statement is appended. Its movement has
tidy texts and keeps back an amount just if one has been typed; the form that is filled in from it
describes it again. -/
theorem forms_checked :
    AddsForms addInput .input ∧ AddsForms addOutput .output ∧
      ∀ (f : TransferForm) (t : Transfer), f.Describes t →
        f.transfer = .ok t ∧ t.Tidy ∧ (t.retain = none ↔ Text.blank f.retention = true) ∧
          (TransferForm.ofTransfer t).transfer = .ok t := by
  refine ⟨addsForms .input, addsForms .output, fun f t h => ?_⟩
  refine ⟨TransferForm.transfer_eq_ok_iff.2 h, h.tidy, h.retain_eq_none_iff, ?_⟩
  exact TransferForm.transfer_eq_ok_iff.2 h.tidy.describes

/-- White space around the texts does not count, nor do a sign and zeros in front of a number; a
word is not a number. -/
theorem forms_checked_padded :
    let f : TransferForm := { TransferForm.ofLabel "\u00a0chest " with
      quantity := " +0064", resourceId := "\t", slots := " 1-3\n" }
    let t := ((Transfer.ofLabel "chest").withQuantity 64).withSlots "1-3"
    let s := fresh.session
    (addInput f s).result = .ok () ∧
      (addInput f s).session = s.revised 0 (Trigger.initial.append [.input t]) ∧
      (addOutput f { s with selected := none }).result = .error .noTrigger ∧
      addOutput { f with retention := "ten" } s = Edit.fail (.notACount ⟨"retention", "ten"⟩) s ∧
      (addOutput { f with label := "chest" } s).unquoted = (addOutput f s).unquoted := by
  intro f t s
  obtain ⟨hinput, houtput, hnormal⟩ := forms_checked
  obtain ⟨t', ht', hresult, hsession⟩ := hinput.added f s rfl rfl (by decide) (by decide)
  have htransfer : f.transfer = .ok t := by decide
  obtain rfl : t' = t := Except.ok.inj ((hnormal f t' ht').1.symm.trans htransfer)
  refine ⟨hresult, hsession, ?_, ?_, ?_⟩
  · rw [houtput.unselected f _ rfl]
    rfl
  · exact houtput.retention { f with retention := "ten" } s nofun (by decide) (by decide)
  · exact houtput.alike _ f s ⟨by decide, rfl, rfl, rfl, rfl, rfl, rfl, rfl, rfl, rfl⟩

end ProgramSession
end FactoryScript
