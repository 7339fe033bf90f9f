import FactoryScript.Proofs.Json.Record
import FactoryScript.Proofs.Session.Editor
import FactoryScript.Proofs.Wizard.Lines
import FactoryScript.Session.Wizard
import FactoryScript.Wizard

/-!
# Runs of a wizard session

`WizardSession.Change` lists all that a request can make of a session (`change_answer`): nothing,
another interval, or one row of one list more, less or changed, and then the script is that of the
new layout. Hence a run keeps a row in both lists, an interval of at least one, and the script up to
date (`wizard_sound_of_reached`).
-/

namespace FactoryScript

namespace WizardLayout

/-- There is a row in both lists, and the trigger does not fire without pause. -/
structure Valid (w : WizardLayout) : Prop where
  rows_ne_nil : ∀ l, w.rows l ≠ []
  one_le_tickInterval : 1 ≤ w.tickInterval

@[simp] theorem rows_withRows (w : WizardLayout) (l : RowList) (es : List Endpoint) :
    (w.withRows l es).rows l = es := by
  cases l <;> rfl

/-- The other list keeps its rows. -/
theorem rows_withRows_of_ne (w : WizardLayout) {l l' : RowList} (es : List Endpoint) (h : l' ≠ l) :
    (w.withRows l es).rows l' = w.rows l' := by
  cases l <;> cases l' <;> first | rfl | exact absurd rfl h

@[simp] theorem tickInterval_withRows (w : WizardLayout) (l : RowList) (es : List Endpoint) :
    (w.withRows l es).tickInterval = w.tickInterval := by
  cases l <;> rfl

variable {w : WizardLayout}

/-- Another list of rows, which must not be empty, keeps a layout valid. -/
theorem Valid.withRows (hw : w.Valid) (l : RowList) {es : List Endpoint} (hes : es ≠ []) :
    (w.withRows l es).Valid where
  rows_ne_nil l' := by
    by_cases h : l' = l
    · subst h
      rwa [rows_withRows]
    · rw [rows_withRows_of_ne w es h]
      exact hw.rows_ne_nil l'
  one_le_tickInterval := by
    rw [tickInterval_withRows]
    exact hw.one_le_tickInterval

theorem withSomeRow_of_eq_nil {l : RowList} (h : w.rows l = []) :
    w.withSomeRow l = w.withRows l [l.newRow] := by
  rw [withSomeRow, h]
  rfl

theorem withSomeRow_of_ne_nil {l : RowList} (h : w.rows l ≠ []) : w.withSomeRow l = w := by
  rw [withSomeRow, if_neg (by rwa [List.isEmpty_iff])]

theorem rows_withSomeRow_ne_nil (w : WizardLayout) (l : RowList) :
    (w.withSomeRow l).rows l ≠ [] := by
  by_cases h : w.rows l = []
  · rw [withSomeRow_of_eq_nil h, rows_withRows]
    exact List.cons_ne_nil _ _
  · rwa [withSomeRow_of_ne_nil h]

theorem tickInterval_withSomeRow (w : WizardLayout) (l : RowList) :
    (w.withSomeRow l).tickInterval = w.tickInterval := by
  by_cases h : w.rows l = []
  · rw [withSomeRow_of_eq_nil h, tickInterval_withRows]
  · rw [withSomeRow_of_ne_nil h]

theorem rows_withSomeRow_of_ne (w : WizardLayout) {l l' : RowList} (h : l' ≠ l) :
    (w.withSomeRow l).rows l' = w.rows l' := by
  by_cases hl : w.rows l = []
  · rw [withSomeRow_of_eq_nil hl, rows_withRows_of_ne _ _ h]
  · rw [withSomeRow_of_ne_nil hl]

/-- A layout with an interval is valid once its lists have been filled. -/
theorem valid_withSomeRow (h : 1 ≤ w.tickInterval) :
    ((w.withSomeRow .sources).withSomeRow .targets).Valid where
  rows_ne_nil
    | .sources => by
      rw [rows_withSomeRow_of_ne _ (by decide)]
      exact rows_withSomeRow_ne_nil w .sources
    | .targets => rows_withSomeRow_ne_nil _ .targets
  one_le_tickInterval := by
    rw [tickInterval_withSomeRow, tickInterval_withSomeRow]
    exact h

/-- The interval of a layout in a document is raised to one. -/
theorem one_le_tickInterval_of_read {document : Json} (h : read document = .ok w) :
    1 ≤ w.tickInterval := by
  refine Json.readRecord_yields (P := fun w : WizardLayout => 1 ≤ w.tickInterval) ?_ h
  intro n hn _ _ _ _
  exact Json.one_le_of_interval_field hn

end WizardLayout

namespace WizardSession

/-- What can be asked of a wizard session. -/
inductive Request
  | setInterval (interval : UInt32)
  | addRow (l : RowList)
  | removeRow (l : RowList) (index : Nat)
  /-- Changes a row in any way. -/
  | updateRow (l : RowList) (index : Nat) (f : Endpoint → Endpoint)

def Request.answer : Request → Edit WizardSession Bool
  | setInterval interval => (WizardSession.setInterval interval).done
  | addRow l => (WizardSession.addRow l).done
  | removeRow l index => WizardSession.removeRow l index
  | updateRow l index f => (WizardSession.updateRow l index f).done

/-- A session starts afresh, or with the layout of a document. -/
inductive Started : WizardSession → Prop
  | fresh : Started fresh.session
  | start {document : Json} {w : WizardLayout} (h : WizardLayout.read document = .ok w) :
    Started (start w).session

instance : Editor WizardSession where
  Request := Request
  answer := Request.answer
  Allowed _ _ := True
  Started := Started
  generated := generated

/-! ## What a request can make of a session -/

/-- The session with this layout and its script. -/
def showing (w : WizardLayout) : WizardSession := ⟨w, .ofCode w.script⟩

inductive Change (s : WizardSession) : WizardSession → Prop
  | same : Change s s
  | interval (n : UInt32) : Change s (showing { s.layout with tickInterval := max 1 n })
  | add (l : RowList) : Change s (showing (s.layout.withRows l (s.layout.rows l ++ [l.newRow])))
  /-- One row goes, and another one stays. -/
  | remove (l : RowList) {i : Nat} (hi : i < (s.layout.rows l).length)
    (hother : (s.layout.rows l).length ≠ 1) :
    Change s (showing (s.layout.withRows l ((s.layout.rows l).eraseIdx i)))
  | update (l : RowList) {i : Nat} {e : Endpoint} (he : (s.layout.rows l)[i]? = some e)
    (f : Endpoint → Endpoint) :
    Change s (showing (s.layout.withRows l ((s.layout.rows l).set i (f e))))

variable {s : WizardSession}

/-- What removing a row does, by the number of rows. -/
theorem removeRow_apply (l : RowList) (index : Nat) : removeRow l index s =
    if (s.layout.rows l).length ≤ index then Edit.fail (.rowNotFound index) s
    else if (s.layout.rows l).length = 1 then Edit.pure false s
    else (putRows l ((s.layout.rows l).eraseIdx index) >>= fun _ => pure true) s := by
  unfold removeRow
  rw [Edit.session_bind_apply]
  split
  · rfl
  · split <;> rfl

theorem change_removeRow (l : RowList) (index : Nat) : Change s (removeRow l index s).session := by
  rw [removeRow_apply]
  split <;> rename_i hi
  · exact .same
  split <;> rename_i hother
  · exact .same
  · exact .remove l (Nat.lt_of_not_le hi) hother

theorem change_updateRow (l : RowList) (index : Nat) (f : Endpoint → Endpoint) :
    Change s (updateRow l index f s).session := by
  unfold updateRow
  rw [Edit.session_bind_apply]
  cases h : (s.layout.rows l)[index]? with
  | none => exact .same
  | some e => exact .update l h f

/-- Every request makes one of the changes. -/
theorem change_answer (r : Request) : Change s (r.answer s).session := by
  cases r with
  | setInterval n => exact .interval n
  | addRow l => exact .add l
  | removeRow l index => exact change_removeRow l index
  | updateRow l index f =>
    rw [Request.answer, Edit.session_done]
    exact change_updateRow l index f

/-! ## What a removal does -/

/-- What removing the row at a position does: the only row of a list stays, and with it all the
session; any other row goes, and the rest of the layout stays in its order. -/
structure RemoveExact (s : WizardSession) (l : RowList) (index : Nat) : Prop where
  result_eq_false_iff : (removeRow l index s).result = .ok false ↔ (s.layout.rows l).length = 1
  kept : (s.layout.rows l).length = 1 → (removeRow l index s).session = s
  removed : (s.layout.rows l).length ≠ 1 → (removeRow l index s).result = .ok true ∧
    (removeRow l index s).session.layout =
      s.layout.withRows l ((s.layout.rows l).eraseIdx index)

/-- A row that is there is removed unless it is the only one, and no other row goes. -/
theorem removeExact {l : RowList} {index : Nat} (h : index < (s.layout.rows l).length) :
    s.RemoveExact l index := by
  have hvalid : ¬ (s.layout.rows l).length ≤ index := Nat.not_le_of_lt h
  by_cases honly : (s.layout.rows l).length = 1
  · have happly : removeRow l index s = Edit.pure false s := by
      rw [removeRow_apply, if_neg hvalid, if_pos honly]
    exact ⟨by rw [happly]; exact ⟨fun _ => honly, fun _ => rfl⟩, fun _ => by rw [happly]; rfl,
      fun hother => absurd honly hother⟩
  · have happly : removeRow l index s =
        (putRows l ((s.layout.rows l).eraseIdx index) >>= fun _ => pure true) s := by
      rw [removeRow_apply, if_neg hvalid, if_neg honly]
    have hresult : (removeRow l index s).result = .ok true := by rw [happly]; rfl
    refine ⟨?_, fun h => absurd h honly, fun _ => ⟨hresult, by rw [happly]; rfl⟩⟩
    rw [hresult]
    exact ⟨fun h => absurd (Except.ok.inj h) (by decide), fun h => absurd h honly⟩

/-! ## What a run keeps -/

/-- There is a row in both lists, the interval is at least one, script and measurement belong to the
layout, the script has its lines, and a row that is removed is the right one. -/
structure Sound (s : WizardSession) : Prop where
  sources_ne_nil : s.layout.sources ≠ []
  targets_ne_nil : s.layout.targets ≠ []
  one_le_tickInterval : 1 ≤ s.layout.tickInterval
  code_eq : s.generated.code = s.layout.script
  status_eq : s.generated.status = Budget.device.status s.generated.code
  measured : 10 * s.generated.code.length < UInt64.size →
    Budget.device.measure s.generated.code = .ok s.generated.status
  hasLines : s.layout.OneLine → Text.HasLines s.generated.code
    (2 + s.layout.sources.length + s.layout.targets.length)
  removeExact : ∀ l index, index < (s.layout.rows l).length → s.RemoveExact l index

/-- What each request keeps. -/
structure Invariant (s : WizardSession) : Prop where
  valid : s.layout.Valid
  generated_eq : s.generated = .ofCode s.layout.script

/-- What every request keeps says all that is promised of a session. -/
theorem Invariant.sound (h : s.Invariant) : s.Sound where
  sources_ne_nil := h.valid.rows_ne_nil .sources
  targets_ne_nil := h.valid.rows_ne_nil .targets
  one_le_tickInterval := h.valid.one_le_tickInterval
  code_eq := by rw [h.generated_eq]; rfl
  status_eq := by rw [h.generated_eq]; rfl
  measured hlength := by rw [h.generated_eq] at hlength ⊢; exact Budget.measure_device hlength
  hasLines hrows := by rw [h.generated_eq]; exact hrows.hasLines_script
  removeExact _ _ := WizardSession.removeExact

/-- Every change keeps the invariant. -/
theorem Invariant.change {r : WizardSession} (hs : s.Invariant) (h : Change s r) : r.Invariant := by
  cases h with
  | same => exact hs
  | interval n => exact ⟨⟨hs.valid.rows_ne_nil, UInt32.one_le_max n⟩, rfl⟩
  | add l => exact ⟨hs.valid.withRows l (by simp), rfl⟩
  | @remove l i hi hother =>
    refine ⟨hs.valid.withRows l (List.ne_nil_of_length_pos ?_), rfl⟩
    rw [List.length_eraseIdx_of_lt hi]
    omega
  | @update l i e he f =>
    refine ⟨hs.valid.withRows l (List.ne_nil_of_length_pos ?_), rfl⟩
    rw [List.length_set]
    exact List.length_pos_iff.2 (hs.valid.rows_ne_nil l)

theorem invariant_start {w : WizardLayout} (h : 1 ≤ w.tickInterval) : (start w).session.Invariant :=
  ⟨WizardLayout.valid_withSomeRow h, rfl⟩

theorem Started.invariant (h : Started s) : s.Invariant := by
  cases h with
  | fresh => exact invariant_start (by decide)
  | start h => exact invariant_start (WizardLayout.one_le_tickInterval_of_read h)

/-- In every state of every run both lists have a row and the interval is at least one; the script
and its measurement are those of the layout, with a line for each row whose texts hold no line end
and two more; and a removal takes the row at its position and no other, or none if it is the only
one. -/
theorem wizard_sound_of_reached (h : Editor.Reached s) : s.Sound :=
  (h.invariant (P := Invariant) (fun _ => Started.invariant)
    fun r _ hs _ => hs.change (change_answer r)).sound

/-- The empty lists of a document are filled, an interval of zero becomes one, and of two targets
the first one goes. -/
theorem wizard_sound_filled :
    ∃ s : WizardSession, Editor.Reached s ∧
      s.layout = ⟨1, [.ofLabel "a"], [.ofLabel "chest"]⟩ ∧ s.Sound := by
  have hread : WizardLayout.read (.object []) = .ok ⟨defaultInterval, [], []⟩ := rfl
  have h : Editor.Reached (start ⟨defaultInterval, [], []⟩).session :=
    Editor.reached_of_started (Started.start hread)
  have h := h.answer (r := Request.addRow .targets) trivial
  have h := h.answer (r := Request.updateRow .targets 1 fun _ => .ofLabel "chest") trivial
  have h := h.answer (r := Request.removeRow .targets 0) trivial
  have h := h.answer (r := Request.removeRow .sources 0) trivial
  have h := h.answer (r := Request.setInterval 0) trivial
  exact ⟨_, h, rfl, wizard_sound_of_reached h⟩

end WizardSession
end FactoryScript
