import FactoryScript.Proofs.Script.Header
import FactoryScript.Proofs.Script.Lines
import FactoryScript.Proofs.Script.Movement

/-!
# Reading a block

The first word of a line tells which statement it opens, or that it ends a list of statements. So
the lines of a block tell its statements, however branches nest, and where the block ends
(`Statement.linesAll_unique`, `Trigger.lines_unique`).
-/

namespace FactoryScript
open Text

/-- Each space of an indentation is one empty token. -/
theorem splitAt_replicate (n : Nat) (s : String) :
    splitAt ' ' (String.ofList (List.replicate n ' ') ++ s) =
      List.replicate n "" ++ splitAt ' ' s := by
  induction n with
  | zero => simp
  | succ n ih =>
    have hspace : String.ofList (List.replicate (n + 1) ' ') ++ s =
        "" ++ String.singleton ' ' ++ (String.ofList (List.replicate n ' ') ++ s) := by
      rw [← String.toList_inj]
      simp [List.replicate_succ]
    rw [hspace, splitAt_append_of_notMem (by simp), ih]
    rfl

@[simp] theorem firstWord_indent (depth : Nat) (s : String) :
    firstWord (indent depth ++ s) = firstWord s := by
  simp [firstWord, indent, splitAt_replicate, List.find?_append]

namespace Statement

/-! ## Clean statements -/

mutual

/-- Every text of a statement and of those inside it can be read back. -/
def Clean : Statement → Prop
  | input t => t.Clean
  | output t => t.Clean
  | forget labels => ∀ s ∈ labels, OneLine s
  | branch condition thenBranch elseBranch =>
    OneLine condition ∧ CleanAll thenBranch ∧ CleanAll elseBranch

def CleanAll : List Statement → Prop
  | [] => True
  | s :: rest => s.Clean ∧ CleanAll rest

end

/-! ## Openings -/

/-- A statement in normal form, without those inside it. -/
def shell : Statement → Statement
  | input t => input t.normal
  | output t => output t.normal
  | branch condition _ _ => branch condition [] []
  | forget labels => forget (present labels)

/-- The tokens of a `forget` line are those of its labels after the keyword. -/
theorem splitAt_forgetLine (labels : Option String) :
    splitAt ' ' (forgetLine labels) =
      "forget" :: (present labels).toList.flatMap (splitAt ' ') := by
  unfold forgetLine
  cases present labels with
  | none => exact splitAt_of_notMem (by decide)
  | some s =>
    rw [Option.toList, List.flatMap_singleton]
    exact splitAt_append_of_notMem (s := "forget") (by decide) s

/-- The first token of an opening line is the keyword of its statement. -/
theorem splitAt_opening (s : Statement) : ∃ ws, splitAt ' ' s.opening = s.keyword :: ws := by
  have hline (t : Transfer) {keyword direction : String} (h : ' ' ∉ keyword.toList) :
      ∃ ws, splitAt ' ' (t.line keyword direction) = keyword :: ws := by
    have hspace : " " = String.singleton ' ' := rfl
    rw [Transfer.line, hspace, Transfer.words_eq, splitAt_intercalate (List.cons_ne_nil _ _),
      List.flatMap_cons, splitAt_of_notMem h]
    exact ⟨_, rfl⟩
  cases s with
  | input t => exact hline t (by decide)
  | output t => exact hline t (by decide)
  | forget labels => exact ⟨_, splitAt_forgetLine labels⟩
  | branch condition _ _ =>
    rw [opening, String.append_assoc]
    exact ⟨_, splitAt_append_of_notMem (s := "if") (by decide) _⟩

@[simp] theorem firstWord_opening (s : Statement) : firstWord s.opening = some s.keyword := by
  obtain ⟨ws, h⟩ := s.splitAt_opening
  exact firstWord_of_splitAt (by cases s <;> simp [keyword]) h

theorem forgetLine_unique {labels labels' : Option String}
    (h : forgetLine labels = forgetLine labels') : present labels = present labels' := by
  have htokens := congrArg (splitAt ' ') h
  rw [splitAt_forgetLine, splitAt_forgetLine] at htokens
  exact optional_last_unique splitAt_ne_nil (fun _ _ => splitAt_injective) (List.cons.inj htokens).2

/-- An opening line tells the kind of the statement by its first word, and the rest of it what
stands on that line. -/
theorem opening_unique {s s' : Statement} (hs : s.Clean) (hs' : s'.Clean)
    (h : s.opening = s'.opening) : s.shell = s'.shell := by
  have hkeyword : s.keyword = s'.keyword := by
    have hword := congrArg firstWord h
    rwa [firstWord_opening, firstWord_opening, Option.some.injEq] at hword
  cases s with
  | input t =>
    cases s' with
    | input t' => exact congrArg input (Transfer.line_unique (.inl rfl) hs hs' (by decide) h)
    | _ => simp [keyword] at hkeyword
  | output t =>
    cases s' with
    | output t' => exact congrArg output (Transfer.line_unique (.inr rfl) hs hs' (by decide) h)
    | _ => simp [keyword] at hkeyword
  | branch condition _ _ =>
    cases s' with
    | branch condition' _ _ =>
      have hcondition := (String.append_right_inj _).1 ((String.append_left_inj _).1 h)
      exact congrArg (branch · [] []) hcondition
    | _ => simp [keyword] at hkeyword
  | forget labels =>
    cases s' with
    | forget labels' => exact congrArg forget (forgetLine_unique h)
    | _ => simp [keyword] at hkeyword

/-! ## Reading statements -/

/-- A line that opens a statement. -/
def IsOpening (line : String) : Prop := ∃ s : Statement, firstWord line = some s.keyword

theorem isOpening_of_opening (depth : Nat) (s : Statement) :
    IsOpening (indent depth ++ s.opening) :=
  ⟨s, by simp⟩

theorem not_isOpening_end (depth : Nat) : ¬ IsOpening (indent depth ++ "end") := by
  rintro ⟨s, h⟩
  have hword : firstWord "end" = some "end" := by decide
  rw [firstWord_indent, hword] at h
  cases s <;> simp [keyword] at h

theorem not_isOpening_else (depth : Nat) : ¬ IsOpening (indent depth ++ "else") := by
  rintro ⟨s, h⟩
  have hword : firstWord "else" = some "else" := by decide
  rw [firstWord_indent, hword] at h
  cases s <;> simp [keyword] at h

theorem notFirst_ending (depth : Nat) (elseBranch : List Statement) (r : List String) :
    NotFirst IsOpening (ending depth elseBranch ++ r) := by
  cases elseBranch with
  | nil => exact notFirst_cons.2 (not_isOpening_end depth)
  | cons s rest => exact notFirst_cons.2 (not_isOpening_else depth)

theorem not_notFirst_linesAll {depth : Nat} {s : Statement} {rest : List Statement}
    {r : List String} : ¬ NotFirst IsOpening (linesAll depth (s :: rest) ++ r) := by
  rw [linesAll_cons, lines_eq, List.cons_append, List.cons_append, notFirst_cons]
  exact not_not_intro (isOpening_of_opening depth s)

theorem indent_else_ne_end (depth : Nat) : indent depth ++ "else" ≠ indent depth ++ "end" := by
  rw [ne_eq, String.append_right_inj]
  decide

/-- The end of a branch, if the lines of the second part can be read. -/
theorem ending_unique {depth : Nat} {ss ss' : List Statement} {r r' : List String}
    (ih : ∀ {r r' : List String}, NotFirst IsOpening r → NotFirst IsOpening r' →
      linesAll (depth + 1) ss ++ r = linesAll (depth + 1) ss' ++ r' →
      normalAll ss = normalAll ss' ∧ r = r')
    (h : ending depth ss ++ r = ending depth ss' ++ r') :
    normalAll ss = normalAll ss' ∧ r = r' := by
  have hend (r : List String) : NotFirst IsOpening ([indent depth ++ "end"] ++ r) :=
    notFirst_cons.2 (not_isOpening_end depth)
  cases ss with
  | nil =>
    cases ss' with
    | nil => exact ⟨rfl, (List.cons.inj h).2⟩
    | cons s' rest' => exact absurd (List.cons.inj h).1.symm (indent_else_ne_end depth)
  | cons s rest =>
    cases ss' with
    | nil => exact absurd (List.cons.inj h).1 (indent_else_ne_end depth)
    | cons s' rest' =>
      rw [ending_cons, ending_cons, List.cons_append, List.cons_append, List.append_assoc,
        List.append_assoc] at h
      obtain ⟨hnormal, hrest⟩ := ih (hend r) (hend r') (List.cons.inj h).2
      exact ⟨hnormal, (List.cons.inj hrest).2⟩

-- The induction is on the statements of the first text. A statement ends by itself, so anything can
-- follow it; a list ends before the first line that opens no statement.
mutual

/-- The lines of a clean statement can be read back, whatever lines follow them. -/
theorem lines_unique (depth : Nat) (s s' : Statement) (hs : s.Clean) (hs' : s'.Clean)
    {r r' : List String} (h : s.lines depth ++ r = s'.lines depth ++ r') :
    s.normal = s'.normal ∧ r = r' := by
  rw [lines_eq, lines_eq, List.cons_append, List.cons_append] at h
  obtain ⟨hopening, h⟩ := List.cons.inj h
  have hshell := opening_unique hs hs' ((String.append_right_inj _).1 hopening)
  match s with
  | input t =>
    cases s' with
    | input t' => exact ⟨hshell, h⟩
    | _ => cases hshell
  | output t =>
    cases s' with
    | output t' => exact ⟨hshell, h⟩
    | _ => cases hshell
  | forget labels =>
    cases s' with
    | forget labels' => exact ⟨hshell, h⟩
    | _ => cases hshell
  | branch condition thenBranch elseBranch =>
    cases s' with
    | branch condition' thenBranch' elseBranch' =>
      obtain ⟨-, hthen, helse⟩ := hs
      obtain ⟨-, hthen', helse'⟩ := hs'
      rw [inner, inner, List.append_assoc, List.append_assoc] at h
      obtain ⟨hfirst, h⟩ := linesAll_unique (depth + 1) thenBranch thenBranch' hthen hthen'
        (notFirst_ending _ _ _) (notFirst_ending _ _ _) h
      obtain ⟨hsecond, h⟩ := ending_unique
        (linesAll_unique (depth + 1) elseBranch elseBranch' helse helse') h
      cases hshell
      exact ⟨by rw [normal, normal, hfirst, hsecond], h⟩
    | _ => cases hshell

/-- So can those of a list, if what follows opens no statement: that is how the end of the list is
found. -/
theorem linesAll_unique (depth : Nat) (ss ss' : List Statement) (hss : CleanAll ss)
    (hss' : CleanAll ss') {r r' : List String} (hr : NotFirst IsOpening r)
    (hr' : NotFirst IsOpening r') (h : linesAll depth ss ++ r = linesAll depth ss' ++ r') :
    normalAll ss = normalAll ss' ∧ r = r' := by
  match ss, ss' with
  | [], [] => exact ⟨rfl, h⟩
  | [], s' :: rest' =>
    rw [linesAll_nil, List.nil_append] at h
    exact absurd (h ▸ hr) not_notFirst_linesAll
  | s :: rest, [] =>
    rw [linesAll_nil, List.nil_append] at h
    exact absurd (h ▸ hr') not_notFirst_linesAll
  | s :: rest, s' :: rest' =>
    rw [linesAll_cons, linesAll_cons, List.append_assoc, List.append_assoc] at h
    obtain ⟨hfirst, h⟩ := lines_unique depth s s' hss.1 hss'.1 h
    obtain ⟨hrest, h⟩ := linesAll_unique depth rest rest' hss.2 hss'.2 hr hr' h
    exact ⟨by rw [normalAll, normalAll, hfirst, hrest], h⟩

end

end Statement

/-! ## Reading triggers -/

namespace Trigger

def Clean (t : Trigger) : Prop := Statement.CleanAll t.statements

/-- The lines of a clean trigger can be read back, whatever follows: `end` opens no statement. -/
theorem lines_unique {t t' : Trigger} (ht : t.Clean) (ht' : t'.Clean) {r r' : List String}
    (h : t.lines ++ r = t'.lines ++ r') : t.normal = t'.normal ∧ r = r' := by
  have hend (r : List String) : NotFirst Statement.IsOpening ([blockEnd] ++ r) :=
    notFirst_cons.2 (Statement.not_isOpening_end 0)
  rw [lines_eq, lines_eq, List.cons_append, List.cons_append, List.append_assoc,
    List.append_assoc] at h
  obtain ⟨hheader, h⟩ := List.cons.inj h
  obtain ⟨hstatements, h⟩ := Statement.linesAll_unique 1 _ _ ht ht' (hend r) (hend r') h
  have hkind := TriggerKind.header_unique hheader
  exact ⟨by rw [normal, normal, hkind, hstatements], (List.cons.inj h).2⟩

end Trigger
end FactoryScript
