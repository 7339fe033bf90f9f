import FactoryScript.Proofs.Session.Report

/-!
# Warnings about the size of a script

The journal of a session has an entry for its start and one for each step: the session that the
step left behind and the messages that it sent. A step warns exactly if it makes a small script one
that is close to the budget, and then once, with the size of the new script and the budget; so
between two warnings the script has been small again (`crossings_told`).
-/

namespace FactoryScript

/-! ## Journals -/

namespace Editor

/-- What can be done with a session. The world in which it is exported may be any. -/
inductive Action (σ : Type) [Editor σ]
  | request (r : Editor.Request σ)
  | exported (path : String) (w : World)

/-- What a step left behind: a session, and messages. -/
structure JournalEntry (σ : Type) where
  session : σ
  notes : List Note

variable {σ : Type} [Editor σ]

/-- The messages of an export. -/
def exportNotes (path code : String) (w : World) : List Note :=
  (((exportScript path code : StateM World _) w).2.notes.drop w.notes.length).map Prod.snd

def Action.perform (s : σ) : Action σ → JournalEntry σ
  | request r => ⟨(Editor.answer r s).session, (Editor.answer r s).notes⟩
  | exported path w => ⟨s, exportNotes path (generated s).code w⟩

/-- The entry that a journal begins with, and those of the actions that follow. -/
def journal (first : JournalEntry σ) : List (Action σ) → List (JournalEntry σ)
  | [] => [first]
  | a :: rest => first :: journal (a.perform first.session) rest

def start (o : Outcome σ Unit) : JournalEntry σ := ⟨o.session, o.notes⟩

def JournalEntry.status (e : JournalEntry σ) : BudgetStatus := (generated e.session).status

/-- The script was close to the budget before the step; before the start there was none. -/
def closeBefore (entries : List (JournalEntry σ)) : Nat → Bool
  | 0 => false
  | i + 1 => entries[i]?.any fun e => e.status.warning

/-- The warnings of a journal tell when a script comes close to the budget. -/
structure TellsCrossings (kind : String) (entries : List (JournalEntry σ)) : Prop where
  /-- The status is always that of the script. -/
  status : ∀ e ∈ entries, e.status = Budget.device.status (generated e.session).code
  /-- It is what measuring the script gives. (No script in a memory is so long that ten times its
  size would be no word.) -/
  measured : ∀ e ∈ entries, 10 * (generated e.session).code.length < UInt64.size →
    Budget.device.measure (generated e.session).code = .ok e.status
  /-- A step warns, once, if the script is close to the budget and was not before. The warning says
  how many characters the new script has, and how many it should have at most. -/
  told : ∀ i e, entries[i]? = some e → warnings e.notes =
    if e.status.warning && !closeBefore entries i then
      [⟨.warn, "Generated " ++ kind ++ " code is close to the size budget (" ++
        ((generated e.session).code.length.repr ++ " / " ++ Budget.device.max.toNat.repr) ++ ")"⟩]
    else []
  /-- Between two warnings there was a script of nine tenths of the budget or less. -/
  between : ∀ (i j : Nat) (d e : JournalEntry σ), i < j → entries[i]? = some d →
    entries[j]? = some e → warnings d.notes ≠ [] → warnings e.notes ≠ [] →
    ∃ (k : Nat) (c : JournalEntry σ), i < k ∧ k < j ∧ entries[k]? = some c ∧
      c.status.warning = false ∧
      10 * (generated c.session).code.length ≤ 9 * Budget.device.max.toNat

/-- The text of a warning is the one that the session writes for its status. -/
theorem TellsCrossings.warnings_eq {kind : String} {entries : List (JournalEntry σ)}
    (h : TellsCrossings kind entries) {i : Nat} {e : JournalEntry σ} (he : entries[i]? = some e) :
    warnings e.notes =
      if e.status.warning && !closeBefore entries i then [Generated.warning kind e.status]
      else [] := by
  have hwarning := congrArg (Generated.warning kind) (h.status e (List.mem_of_getElem? he))
  rw [h.told i e he, hwarning]
  rfl

/-! ## Steps -/

theorem warnings_exportNotes (path code : String) (w : World) :
    warnings (exportNotes path code w) = [] := by
  unfold exportNotes
  rw [exportScript_apply]
  split
  · simp [warnings]
  · simp [warnings]

/-- What one step keeps: the script is replaced at most once, and the warnings tell. -/
theorem Action.replaced {kind : String}
    (h : ∀ r : Editor.Request σ, (Editor.answer r).Reports kind) (a : Action σ) (s : σ) :
    (generated s).Replaced kind (generated (a.perform s).session) (a.perform s).notes := by
  cases a with
  | request r => exact h r s
  | exported path w =>
    exact ⟨.inl rfl, (warnings_exportNotes ..).trans (Generated.notes_self ..).symm⟩

section
variable {first : JournalEntry σ} {actions : List (Action σ)} {e : JournalEntry σ} {i : Nat}

theorem journal_zero : (journal first actions)[0]? = some first := by
  cases actions <;> rfl

/-- Each entry but the first is an action on the session of the entry before. -/
theorem journal_succ (h : (journal first actions)[i + 1]? = some e) :
    ∃ d a, (journal first actions)[i]? = some d ∧ e = Action.perform d.session a := by
  induction actions generalizing first i with
  | nil => cases h
  | cons a rest ih =>
    rw [journal, List.getElem?_cons_succ] at h
    cases i with
    | zero =>
      rw [journal_zero] at h
      exact ⟨first, a, rfl, (Option.some.inj h).symm⟩
    | succ i => exact ih h

end

/-! ## Runs -/

section
variable {kind : String} {o : Outcome σ Unit}

/-- The script before a step; before the start it is empty. -/
def generatedBefore (entries : List (JournalEntry σ)) : Nat → Generated
  | 0 => .empty
  | i + 1 => (entries[i]?.map fun e => generated e.session).getD .empty

theorem closeBefore_eq (entries : List (JournalEntry σ)) (i : Nat) :
    closeBefore entries i = (generatedBefore entries i).status.warning := by
  cases i with
  | zero => rfl
  | succ i =>
    rw [closeBefore, generatedBefore]
    cases entries[i]? <;> rfl

variable (hstart : Generated.Replaced kind .empty (generated o.session) o.notes)
  (h : ∀ r : Editor.Request σ, (Editor.answer r).Reports kind)
include hstart h

/-- Every entry of a journal tells what has become of the script before it. -/
theorem replaced_of_journal (actions : List (Action σ)) {i : Nat} {e : JournalEntry σ}
    (he : (journal (start o) actions)[i]? = some e) :
    Generated.Replaced kind (generatedBefore (journal (start o) actions) i)
      (generated e.session) e.notes := by
  cases i with
  | zero =>
    rw [journal_zero] at he
    cases he
    exact hstart
  | succ i =>
    obtain ⟨d, a, hd, rfl⟩ := journal_succ he
    rw [generatedBefore, hd]
    exact a.replaced h d.session

/-- Every entry has the status of its own script. -/
theorem status_of_journal (actions : List (Action σ)) {i : Nat} {e : JournalEntry σ}
    (he : (journal (start o) actions)[i]? = some e) :
    e.status = Budget.device.status (generated e.session).code := by
  have hreplaced := replaced_of_journal hstart h actions he
  induction i generalizing e with
  | zero => exact hreplaced.status_eq rfl
  | succ i ih =>
    obtain ⟨d, a, hd, -⟩ := journal_succ he
    rw [generatedBefore, hd] at hreplaced
    exact hreplaced.status_eq (ih hd (replaced_of_journal hstart h actions hd))

theorem warnings_of_journal (actions : List (Action σ)) {i : Nat} {e : JournalEntry σ}
    (he : (journal (start o) actions)[i]? = some e) :
    warnings e.notes = if e.status.warning && !closeBefore (journal (start o) actions) i then
      [Generated.warning kind e.status] else [] := by
  rw [closeBefore_eq]
  exact (replaced_of_journal hstart h actions he).warnings

/-- A step that warns has made the script one that is close to the budget. -/
theorem crossed_of_warnings (actions : List (Action σ)) {i : Nat} {e : JournalEntry σ}
    (he : (journal (start o) actions)[i]? = some e) (hwarns : warnings e.notes ≠ []) :
    e.status.warning = true ∧ closeBefore (journal (start o) actions) i = false := by
  rw [warnings_of_journal hstart h actions he] at hwarns
  simpa using (ite_ne_right_iff.1 hwarns).1

/-- The script before the later one of two warnings was not close to the budget, so it is not the
one that the earlier warning is about. -/
theorem exists_between_warnings (actions : List (Action σ)) {i j : Nat} {d e : JournalEntry σ}
    (hij : i < j) (hd : (journal (start o) actions)[i]? = some d)
    (he : (journal (start o) actions)[j]? = some e) (hdwarns : warnings d.notes ≠ [])
    (hewarns : warnings e.notes ≠ []) :
    ∃ (k : Nat) (c : JournalEntry σ), i < k ∧ k < j ∧ (journal (start o) actions)[k]? = some c ∧
      c.status.warning = false := by
  obtain ⟨k, rfl⟩ := Nat.exists_eq_succ_of_ne_zero (Nat.ne_zero_of_lt hij)
  obtain ⟨c, a, hc, -⟩ := journal_succ he
  have hcalm : c.status.warning = false := by
    have hbefore := (crossed_of_warnings hstart h actions he hewarns).2
    rwa [closeBefore, hc] at hbefore
  have hne : i ≠ k := by
    rintro rfl
    rw [hd] at hc
    cases hc
    rw [(crossed_of_warnings hstart h actions hd hdwarns).1] at hcalm
    cases hcalm
  exact ⟨k, c, by omega, Nat.lt_succ_self k, hc, hcalm⟩

/-- Every run tells its crossings, since each step compares with the script before it. -/
theorem tellsCrossings (actions : List (Action σ)) :
    TellsCrossings kind (journal (start o) actions) := by
  have hstatus {e : JournalEntry σ} (he : e ∈ journal (start o) actions) :
      e.status = Budget.device.status (generated e.session).code := by
    obtain ⟨i, hi⟩ := List.getElem?_of_mem he
    exact status_of_journal hstart h actions hi
  refine ⟨fun e => hstatus, fun e he hlength => ?_, fun i e he => ?_,
    fun i j d e hij hd he hdwarns hewarns => ?_⟩
  · rw [hstatus he]
    exact Budget.measure_device hlength
  · have hwarning := congrArg (Generated.warning kind) (hstatus (List.mem_of_getElem? he))
    rw [warnings_of_journal hstart h actions he, hwarning]
    rfl
  · obtain ⟨k, c, hik, hkj, hc, hcalm⟩ :=
      exists_between_warnings hstart h actions hij hd he hdwarns hewarns
    have hlight : ¬ Budget.device.NearlyFull (generated c.session).code := by
      rw [← Budget.warning_status_iff, ← hstatus (List.mem_of_getElem? hc), hcalm]
      exact Bool.false_ne_true
    exact ⟨k, c, hik, hkj, hc, hcalm, Nat.not_lt.1 hlight⟩

end

end Editor

/-! ## Sessions -/

open Editor (TellsCrossings journal start)

theorem ProgramSession.replaced_start (p : Program) :
    Generated.Replaced "program" .empty (Editor.generated (ProgramSession.start p).session)
      (ProgramSession.start p).notes := by
  unfold ProgramSession.start
  exact reports_refresh ⟨p, firstOf p.triggers, .empty⟩

theorem GraphSession.replaced_start (triggers : List GraphTrigger) :
    Generated.Replaced "graph" .empty (Editor.generated (GraphSession.start triggers).session)
      (GraphSession.start triggers).notes := by
  unfold GraphSession.start
  exact reports_refresh ⟨triggers, if triggers.isEmpty then none else some 0, .empty⟩

theorem GraphSession.replaced_fresh :
    Generated.Replaced "graph" .empty (Editor.generated fresh.session) fresh.notes := by
  unfold fresh
  exact (replaced_start []).trans (reports_addTrigger (GraphSession.start []).session) (by decide)

theorem WizardSession.replaced_start (w : WizardLayout) :
    Generated.Replaced "wizard" .empty (Editor.generated (WizardSession.start w).session)
      (WizardSession.start w).notes := by
  unfold WizardSession.start
  exact reports_refresh ⟨(w.withSomeRow .sources).withSomeRow .targets, .empty⟩

/-- In every run of a session of any kind, from every start, the warnings about the size budget are
those of its crossings. -/
theorem crossings_told :
    (∀ actions, TellsCrossings "program" (journal (start ProgramSession.fresh) actions)) ∧
    (∀ p actions, TellsCrossings "program" (journal (start (ProgramSession.start p)) actions)) ∧
    (∀ actions, TellsCrossings "graph" (journal (start GraphSession.fresh) actions)) ∧
    (∀ ts actions, TellsCrossings "graph" (journal (start (GraphSession.start ts)) actions)) ∧
    (∀ actions, TellsCrossings "wizard" (journal (start WizardSession.fresh) actions)) ∧
    (∀ w actions, TellsCrossings "wizard" (journal (start (WizardSession.start w)) actions)) := by
  have hprogram (p : Program) (actions : List (Editor.Action ProgramSession)) :
      TellsCrossings "program" (journal (start (ProgramSession.start p)) actions) :=
    Editor.tellsCrossings (ProgramSession.replaced_start p) ProgramSession.reports_answer actions
  have hwizard (w : WizardLayout) (actions : List (Editor.Action WizardSession)) :
      TellsCrossings "wizard" (journal (start (WizardSession.start w)) actions) :=
    Editor.tellsCrossings (WizardSession.replaced_start w) WizardSession.reports_answer actions
  refine ⟨?_, hprogram, fun actions => ?_, fun ts actions => ?_, ?_, hwizard⟩
  · unfold ProgramSession.fresh
    exact hprogram _
  · exact Editor.tellsCrossings GraphSession.replaced_fresh GraphSession.reports_answer actions
  · exact Editor.tellsCrossings (GraphSession.replaced_start ts) GraphSession.reports_answer
      actions
  · unfold WizardSession.fresh
    exact hwizard _

/-! ## A script that grows twice -/

/-- The first session of the wizard, with this label for its source. -/
def titled (label : String) : WizardSession :=
  let layout : WizardLayout := ⟨20, [.ofLabel label], [.ofLabel "b"]⟩
  ⟨layout, .ofCode layout.script⟩

def relabel (label : String) : Editor.Action WizardSession :=
  .request (.updateRow .sources 0 fun e => { e with label := label })

def long (n : Nat) : String := String.ofList (List.replicate n 'x')

theorem length_long (n : Nat) : (long n).length = n := by
  rw [long, String.length_ofList, List.length_replicate]

theorem script_titled (label : String) : (titled label).layout.script =
    "EVERY 20 TICKS DO\n  INPUT FROM " ++ (label ++ "\n  OUTPUT TO b\nEND\n") := by
  have hrow (l keyword direction : String) : (Endpoint.ofLabel l).wizardLine keyword direction =
      " ".intercalate [keyword, direction, l] := by
    have hresource : (Endpoint.ofLabel l).resourceWord? = none := rfl
    have hquantity : (Endpoint.ofLabel l).quantityWord? = none := rfl
    rw [Endpoint.wizardLine, hresource, hquantity]
    rfl
  have hrows : (titled label).layout.lines = ["EVERY 20 TICKS DO",
      flatIndent ++ " ".intercalate ["INPUT", "FROM", label], "  OUTPUT TO b", "END"] := by
    rw [WizardLayout.lines]
    simp only [titled, List.map_cons, List.map_nil, hrow]
    rfl
  rw [WizardLayout.script, hrows, ← String.toList_inj]
  simp [flatIndent]

theorem status_titled (label : String) : (titled label).generated.status =
    Budget.device.status (titled label).layout.script := rfl

theorem length_script_titled (label : String) :
    (titled label).layout.script.length = label.length + 50 := by
  have hbefore : "EVERY 20 TICKS DO\n  INPUT FROM ".length = 31 := by decide
  have hafter : "\n  OUTPUT TO b\nEND\n".length = 19 := by decide
  rw [script_titled, String.length_append, String.length_append, hbefore, hafter]
  omega

theorem status_titled_long : (titled (long 30000)).generated.status = ⟨30050, 32300, true⟩ := by
  rw [status_titled, Budget.status, length_script_titled, length_long]
  rfl

theorem warnings_of_told {label : String} {status : BudgetStatus}
    (h : TellsCrossings "wizard"
      (journal (start WizardSession.fresh) [relabel label, relabel "a", relabel label]))
    (hlabel : (titled label).generated.status = status) (hclose : status.warning = true) :
    (journal (start WizardSession.fresh) [relabel label, relabel "a", relabel label]).map
        (fun e => warnings e.notes) =
      [[], [Generated.warning "wizard" status], [], [Generated.warning "wizard" status]] := by
  have hshort : (titled "a").generated.status.warning = false := by decide
  have hfirst := h.warnings_eq (i := 0) rfl
  have hgrown := h.warnings_eq (i := 1) rfl
  have hshrunk := h.warnings_eq (i := 2) rfl
  have hagain := h.warnings_eq (i := 3) rfl
  change _ = if (titled "a").generated.status.warning && !false then _ else _ at hfirst
  change _ = if (titled label).generated.status.warning && !(titled "a").generated.status.warning
    then [Generated.warning "wizard" (titled label).generated.status] else _ at hgrown hagain
  change _ = if (titled "a").generated.status.warning && !(titled label).generated.status.warning
    then _ else _ at hshrunk
  rw [hshort] at hfirst hshrunk
  rw [hlabel, hclose, hshort] at hgrown hagain
  exact List.cons_eq_cons.2 ⟨hfirst, List.cons_eq_cons.2 ⟨hgrown,
    List.cons_eq_cons.2 ⟨hshrunk, List.cons_eq_cons.2 ⟨hagain, rfl⟩⟩⟩⟩

/-- A script that becomes long a second time is warned about a second time. -/
theorem crossings_told_long :
    (journal (start WizardSession.fresh)
        [relabel (long 30000), relabel "a", relabel (long 30000)]).map (fun e => warnings e.notes) =
      [[], [⟨.warn, "Generated wizard code is close to the size budget (30050 / 32300)"⟩], [],
        [⟨.warn, "Generated wizard code is close to the size budget (30050 / 32300)"⟩]] := by
  have htells := crossings_told.2.2.2.2.1 [relabel (long 30000), relabel "a", relabel (long 30000)]
  exact warnings_of_told htells status_titled_long rfl

end FactoryScript
