import FactoryScript.Proofs.List
import FactoryScript.Proofs.Script.Blocks
import FactoryScript.Proofs.Script.Pieces

/-!
# Lines without line ends

Where no text of a program holds a line end, no line does, so splitting the script at line ends
gives the lines back (`Program.Unbroken.splitAt_script`). Clean texts are such texts.
-/

namespace FactoryScript
open Text

theorem oneLine_indent (depth : Nat) : OneLine (indent depth) := by
  rw [OneLine, indent, String.toList_ofList, List.mem_replicate]
  exact fun h => absurd h.2 (by decide)

theorem oneLine_count (n : UInt32) : OneLine (Count.text n) := Count.notMem_text (by decide) n

theorem mem_of_mem_present {s : String} {o : Option String} (h : s ∈ present o) : s ∈ o := by
  cases o with
  | none => cases h
  | some t => by_cases ht : blank t = true <;> simp_all [present, nonBlank?]

theorem oneLine_of_mem_optional {β : Type} {g : β → String} {o : Option β}
    (h : ∀ b ∈ o, OneLine (g b)) : ∀ w ∈ (o.map g).toList, OneLine w := by
  cases o with
  | none => nofun
  | some b => simpa using h b rfl

theorem Resource.oneLine_token {kind : ResourceKind} {id : String} (hid : OneLine id) :
    OneLine (token kind id) := by
  have hmarker : OneLine kind.marker := by cases kind <;> decide
  unfold token
  split
  · cases kind <;> decide
  · exact hmarker.append hid

/-! ## Statements -/

namespace Transfer
variable {t : Transfer}

theorem oneLine_words (r : Retention) : OneLine r.words := by
  have hword : OneLine (if r.each then " each" else "") := by cases r.each <;> decide
  have hretain : OneLine "retain " := by decide
  exact (hretain.append (oneLine_count r.count)).append hword

/-- A movement whose texts have no line breaks is written on one line. -/
theorem oneLine_line (ht : ∀ s ∈ t.texts, OneLine s) {keyword direction : String}
    (hkeyword : OneLine keyword) (hdirection : OneLine direction) :
    OneLine (t.line keyword direction) := by
  have hquantity := oneLine_of_mem_optional (o := t.quantity) fun n _ => oneLine_count n
  have hretain := oneLine_of_mem_optional (o := t.retain) fun r _ => oneLine_words r
  have hresource : ∀ w ∈ t.resourceWord?.toList, OneLine w := by
    have htoken : OneLine (Resource.token t.kind t.resourceId) :=
      Resource.oneLine_token (ht t.resourceId (by simp [texts]))
    unfold resourceWord?
    split
    · nofun
    · simpa using htoken
  have hexcept := oneLine_of_mem_optional (o := present t.except) fun s hs =>
    OneLine.append (s := "except ") (by decide)
      (ht s (by simp [texts, Option.mem_def.1 (mem_of_mem_present hs)]))
  have hslots := oneLine_of_mem_optional (o := present t.slots) fun s hs =>
    OneLine.append (s := "slots ") (by decide)
      (ht s (by simp [texts, Option.mem_def.1 (mem_of_mem_present hs)]))
  have heach : ∀ w ∈ (if t.each then ["each"] else []), OneLine w := by
    cases t.each <;> decide
  have hside : ∀ w ∈ t.side.toList.flatMap fun side => [side.keyword, "side"], OneLine w := by
    cases t.side with
    | none => nofun
    | some side => cases side <;> decide
  have hlabel : OneLine t.label := ht t.label (by simp [texts])
  refine OneLine.intercalate (by decide) ?_
  rw [words_eq]
  simp only [List.forall_mem_cons, List.forall_mem_append]
  exact ⟨hkeyword, hquantity, hretain, hresource, hexcept, hdirection, heach, hlabel, hside, hslots⟩

end Transfer

namespace Statement

/-- The texts of a statement, without those of the statements inside it. -/
def texts : Statement → List String
  | input t => t.texts
  | output t => t.texts
  | branch condition _ _ => [condition]
  | forget labels => labels.toList

/-- An opening line without line breaks in its texts is one line. -/
theorem oneLine_opening {s : Statement} (hs : ∀ w ∈ s.texts, OneLine w) : OneLine s.opening := by
  cases s with
  | input t => exact Transfer.oneLine_line hs (by decide) (by decide)
  | output t => exact Transfer.oneLine_line hs (by decide) (by decide)
  | branch condition _ _ =>
    have hcondition : OneLine condition := hs condition List.mem_cons_self
    exact (OneLine.append (s := "if ") (by decide) hcondition).append (by decide)
  | forget labels =>
    change OneLine (forgetLine labels)
    unfold forgetLine
    cases h : present labels with
    | none => decide
    | some s =>
      have hlabels : OneLine s := hs s (Option.mem_toList.2 (mem_of_mem_present h))
      exact OneLine.append (s := "forget ") (by decide) hlabels

theorem oneLine_of_mem_linesAll (depth : Nat) {ss : List Statement}
    (hss : ∀ u ∈ withinAll ss, ∀ w ∈ u.texts, OneLine w) : ∀ l ∈ linesAll depth ss, OneLine l := by
  apply forall_mem_linesAll
  · exact fun depth => (oneLine_indent depth).append (by decide)
  · exact fun depth => (oneLine_indent depth).append (by decide)
  · intro u hu depth
    exact (oneLine_indent depth).append (oneLine_opening (hss u hu))

mutual

/-- A clean statement has no line breaks in its texts, at any depth. -/
theorem Clean.oneLine (s : Statement) (hs : s.Clean) :
    ∀ u ∈ s.within, ∀ w ∈ u.texts, OneLine w := by
  match s with
  | input t => exact List.forall_mem_singleton.2 (Transfer.Clean.oneLine hs)
  | output t => exact List.forall_mem_singleton.2 (Transfer.Clean.oneLine hs)
  | forget labels =>
    exact List.forall_mem_singleton.2 fun w hw => hs w (Option.mem_toList.1 hw)
  | branch condition thenBranch elseBranch =>
    obtain ⟨hcondition, hthen, helse⟩ := hs
    rw [within, List.forall_mem_cons, List.forall_mem_append]
    exact ⟨List.forall_mem_singleton.2 hcondition, CleanAll.oneLine thenBranch hthen,
      CleanAll.oneLine elseBranch helse⟩

theorem CleanAll.oneLine (ss : List Statement) (hss : CleanAll ss) :
    ∀ u ∈ withinAll ss, ∀ w ∈ u.texts, OneLine w := by
  match ss with
  | [] => nofun
  | s :: rest =>
    rw [withinAll, List.forall_mem_append]
    exact ⟨Clean.oneLine s hss.1, CleanAll.oneLine rest hss.2⟩

end

end Statement

/-! ## Triggers -/

/-- The header of a schedule holds no text of the user's. -/
theorem Schedule.oneLine_header (s : Schedule) : OneLine s.header := by
  have hinterval := oneLine_of_mem_optional (o := s.writtenInterval) fun n _ => oneLine_count n
  have hglobal : ∀ w ∈ (if s.global then ["global"] else []), OneLine w := by
    cases s.global <;> decide
  have hoffset := oneLine_of_mem_optional (o := s.offset.filter fun n => 0 < n) fun n _ =>
    OneLine.append (s := "+ ") (by decide) (oneLine_count n)
  have hunit : OneLine s.unit.keyword := by cases s.unit <;> decide
  rw [header_eq]
  refine OneLine.intercalate (by decide) ?_
  simp only [List.forall_mem_cons, List.forall_mem_append]
  exact ⟨by decide, hinterval, hglobal, hoffset, hunit, by decide, nofun⟩

namespace Trigger

/-- No text of the trigger has a line end. -/
def Unbroken (t : Trigger) : Prop :=
  ∀ u ∈ Statement.withinAll t.statements, ∀ w ∈ u.texts, OneLine w

theorem Clean.unbroken {t : Trigger} (ht : t.Clean) : t.Unbroken :=
  Statement.CleanAll.oneLine t.statements ht

/-- Every line of an unbroken trigger is one line of the text. -/
theorem Unbroken.oneLine_of_mem_lines {t : Trigger} (ht : t.Unbroken) :
    ∀ l ∈ t.lines, OneLine l := by
  have hheader : OneLine t.header := by
    unfold header
    cases t.kind with
    | scheduled s => exact s.oneLine_header
    | redstonePulse => decide
  rw [lines_eq, List.forall_mem_cons, List.forall_mem_append]
  exact ⟨hheader, Statement.oneLine_of_mem_linesAll 1 ht, by decide⟩

end Trigger

/-! ## Programs -/

namespace Program

/-- No text of the program has a line end. -/
structure Unbroken (p : Program) : Prop where
  name : OneLine p.name
  triggers : ∀ t ∈ p.triggers, t.Unbroken

theorem Unbroken.oneLine_of_mem_lineGroups {p : Program} (hp : p.Unbroken) :
    ∀ lines ∈ p.lineGroups, ∀ l ∈ lines, OneLine l := by
  apply forall_mem_lineGroups
  · intro l hl
    rw [List.mem_singleton.1 hl]
    exact (OneLine.append (s := "name \"") (by decide) hp.name).append (by decide)
  · exact fun t ht => (hp.triggers t ht).oneLine_of_mem_lines

/-- Pieces with an empty line between them are lines with empty lines between some of them. -/
theorem intercalate_groups {groups : List (List String)} (h : ∀ lines ∈ groups, lines ≠ []) :
    "\n\n".intercalate (groups.map ("\n".intercalate ·)) =
      "\n".intercalate ([""].intercalate groups) := by
  induction groups with
  | nil => rfl
  | cons lines rest ih =>
    obtain ⟨hlines, hrest⟩ := List.forall_mem_cons.1 h
    cases rest with
    | nil => simp
    | cons next rest =>
      have hnext : next ≠ [] := hrest next List.mem_cons_self
      have hne : [""].intercalate (next :: rest) ≠ [] := by
        cases rest <;> simp [hnext]
      calc "\n\n".intercalate ((lines :: next :: rest).map ("\n".intercalate ·))
          = "\n".intercalate lines ++ "\n\n" ++
              "\n".intercalate ([""].intercalate (next :: rest)) := by
            rw [List.map_cons, String.intercalate_cons_of_ne_nil (by simp), ih hrest]
        _ = "\n".intercalate lines ++ "\n" ++
              "\n".intercalate ("" :: [""].intercalate (next :: rest)) := by
            have hgap : "\n\n" = "\n" ++ "\n" := by decide
            rw [String.intercalate_cons_of_ne_nil hne, String.empty_append, hgap,
              ← String.append_assoc, ← String.append_assoc]
        _ = "\n".intercalate ([""].intercalate (lines :: next :: rest)) := by
            rw [List.intercalate_cons_cons, List.append_assoc,
              String.intercalate_append_of_ne_nil hlines (by simp), List.singleton_append]

/-- The text of an unbroken program splits into the lines of its pieces, with an empty line between
two of them. -/
theorem Unbroken.splitAt_script {p : Program} (hp : p.Unbroken) (h : p.pieces ≠ []) :
    splitAt '\n' p.script = [""].intercalate p.lineGroups := by
  have hne : [""].intercalate p.lineGroups ≠ [] := by
    intro hnil
    apply h
    have hscript := p.script_eq_intercalate
    rw [pieces_eq, intercalate_groups lines_ne_nil_of_mem_lineGroups, hnil] at hscript
    exact script_eq_empty_iff.1 hscript
  have hlines : ∀ l ∈ [""].intercalate p.lineGroups, OneLine l :=
    List.forall_mem_intercalate (by decide) hp.oneLine_of_mem_lineGroups
  rw [script_eq_intercalate, pieces_eq, intercalate_groups lines_ne_nil_of_mem_lineGroups]
  exact splitAt_intercalate_of_notMem hne hlines

end Program
end FactoryScript
