import FactoryScript.Proofs.Program.Document
import FactoryScript.Proofs.Session.Program
import FactoryScript.Proofs.Statement.Nesting

/-!
# Programs that are stored again

A program that has been read is stored as a text that is read as this program again, unless it has
62 branches inside one another (`Program.ofText_resaved`). That many are read only if the innermost
of them is given without its lists of statements, and with the list that is then written the text
nests too deeply.
-/

namespace FactoryScript

open Json (ReadsWithin)

/-! ## Branches of a program -/

def Trigger.branching (t : Trigger) : Nat := Statement.branchingAll t.statements

/-- The most branches of a program that are inside one another. -/
def Program.branching (p : Program) : Nat := (p.triggers.map Trigger.branching).foldr max 0

/-- A bound on the branches of a program is one on each of its statements. -/
theorem Program.branching_le_iff {p : Program} {n : Nat} :
    p.branching ≤ n ↔ ∀ t ∈ p.triggers, ∀ s ∈ t.statements, s.branching ≤ n := by
  obtain ⟨name, triggers⟩ := p
  unfold branching
  induction triggers with
  | nil => simp
  | cons t rest ih =>
    rw [List.map_cons, List.foldr_cons, Nat.max_le, ih, Trigger.branching,
      Statement.branchingAll_le_iff, List.forall_mem_cons]

/-! ## What is read -/

variable {v : Json} {room n : Nat}

/-- The statements that are gathered from the members of a trigger have every property that reading
gives to one. The induction carries it through the members for what has been gathered so far. -/
theorem Trigger.forall_mem_of_gather {P : Statement → Prop}
    (hread : ∀ v s, Statement.read (room - 1) v = .ok s → P s) {members : List (String × Json)}
    {got statements : Option (List Statement)} (hgot : ∀ ss ∈ got, ∀ s ∈ ss, P s)
    (h : gather room got members = .ok statements) : ∀ ss ∈ statements, ∀ s ∈ ss, P s := by
  induction members generalizing got with
  | nil => exact Except.ok.inj h ▸ hgot
  | cons m rest ih =>
    obtain ⟨key, v⟩ := m
    rw [gather] at h
    split at h
    · split at h
      · cases h
      · obtain ⟨ss, hss, h⟩ := Except.bind_eq_ok_iff.1 h
        refine ih ?_ h
        rintro _ ⟨⟩
        exact Json.forall_mem_of_readList hread hss
    · obtain ⟨_, _, h⟩ := Except.bind_eq_ok_iff.1 h
      exact ih hgot h

/-- The statements of a trigger that has been read fit two containers further in. -/
theorem Trigger.fits_of_read {t : Trigger} (h : Trigger.read (room + 2) v = .ok t) :
    ∀ s ∈ t.statements, s.Fits room := by
  unfold Trigger.read at h
  split at h
  · obtain ⟨statements, hgather, h⟩ := Except.bind_eq_ok_iff.1 h
    obtain ⟨kind, _, rfl⟩ := Except.map_eq_ok_iff.1 h
    have hall := forall_mem_of_gather (P := (Statement.Fits · room))
      (fun v s => Statement.fits_of_read) (by simp) hgather
    cases statements with
    | none => nofun
    | some ss => exact hall ss rfl
  · exact absurd h Json.unexpected_ne_ok

/-- So do those of a program, which is read where 127 containers may be nested. -/
theorem Program.fits_of_read {p : Program} (h : Program.read v = .ok p) :
    ∀ t ∈ p.triggers, ∀ s ∈ t.statements, s.Fits 123 := by
  refine Json.readRecord_yields
    (P := fun p : Program => ∀ t ∈ p.triggers, ∀ s ∈ t.statements, s.Fits 123) ?_ h
  intro _ _ triggers htriggers
  obtain h | h | ⟨v, hv⟩ := htriggers
  · cases h
  · cases h
    nofun
  · exact Json.forall_mem_of_readList (fun v t => Trigger.fits_of_read) hv

theorem TriggerKind.atLeastOne_eq {kind : TriggerKind} (h : kind.Paced) :
    kind.atLeastOne = kind := by
  cases kind with
  | scheduled s =>
    have hmax : (if 1 ≤ s.interval then s.interval else 1) = s.interval := if_pos h
    exact congrArg scheduled (congrArg (fun n => { s with interval := n }) hmax)
  | redstonePulse => rfl

namespace Program
variable {p : Program}

theorem atLeastOne_eq (h : ∀ t ∈ p.triggers, t.kind.Paced) : p.atLeastOne = p := by
  have htrigger (t) (ht : t ∈ p.triggers) : t.atLeastOne = t :=
    congrArg (fun kind => { t with kind := kind }) (TriggerKind.atLeastOne_eq (h t ht))
  have hmap : p.triggers.map Trigger.atLeastOne = p.triggers :=
    (List.map_congr_left htrigger).trans (List.map_id' _)
  exact congrArg (fun triggers => { p with triggers := triggers }) hmap

/-! ## What is written -/

/-- A program, its list of triggers, a trigger and its list of statements are the four containers
around each statement. -/
theorem depth_toJson_le_iff :
    p.toJson.depth ≤ n + 4 ↔ ∀ t ∈ p.triggers, ∀ s ∈ t.statements, s.toJson.depth ≤ n := by
  have htrigger (t : Trigger) :
      t.toJson.depth ≤ n + 2 ↔ ∀ s ∈ t.statements, s.toJson.depth ≤ n := by
    rw [t.depth_toJson, Json.depth, Nat.add_le_add_iff_right, Nat.add_le_add_iff_right,
      Statement.depthItems_toJsonAll_le_iff]
  rw [p.depth_toJson, Json.depth, Nat.add_le_add_iff_right, Nat.add_le_add_iff_right,
    Json.depthItems_le_iff, List.forall_mem_map]
  exact forall₂_congr fun t _ => htrigger t

/-- What has been read is written as a document that fits unless it has more branches inside one
another. -/
theorem nesting_le_iff_of_read (h : Program.read v = .ok p) :
    Json.nesting p.toJson.compact ≤ 127 ↔ p.branching ≤ 61 := by
  have hfits := fits_of_read h
  rw [Json.nesting_compact p.plain_toJson, depth_toJson_le_iff, branching_le_iff]
  have hiff (t) (ht : t ∈ p.triggers) (s) (hs : s ∈ t.statements) :
      s.toJson.depth ≤ 123 ↔ s.branching ≤ 61 :=
    Statement.Fits.depth_le_iff (n := 61) (hfits t ht s hs)
  exact forall₂_congr fun t ht => forall₂_congr fun s hs => hiff t ht s hs

/-! ## Ladders -/

open Statement (fieldsOf memberParts ofJson tagKey)

/-- So many branches around one that is given without its lists of statements. -/
def ladder : Nat → Json
  | 0 => .object [(tagKey, .string "if"), ("condition", .string "true")]
  | n + 1 => .object [(tagKey, .string "if"), ("condition", .string "true"),
      ("then_branch", .array [ladder n])]

def rungs : Nat → Statement
  | 0 => .branch "true" [] []
  | n + 1 => (rungs n).guardedBy "true"

def ladderDocument (n : Nat) : Json :=
  .object [("triggers", .array [.object (TriggerKind.redstonePulse.members ++
    [(Trigger.statementsKey, .array [ladder n])])])]

def ladderProgram (n : Nat) : Program := ⟨"", [⟨.redstonePulse, [rungs n]⟩]⟩

/-- A ladder is a written branch on each rung, and the innermost one has both lists left to their
defaults. -/
theorem written_ladder (n : Nat) :
    ∃ members, ladder n = .object ((tagKey, .string "if") :: members) ∧
      (fieldsOf .branch).Written (memberParts members) (rungs n) := by
  induction n with
  | zero => exact ⟨_, rfl, .omitted (.omitted (.given (.done Statement.branch) rfl))⟩
  | succ n ih =>
    obtain ⟨members, hladder, hwritten⟩ := ih
    have hread : ofJson (ladder n) = .ok (rungs n) := by
      rw [hladder]
      exact Statement.ofJson_written hwritten
    have hall : Statement.ofJsonAll [ladder n] = .ok [rungs n] := by
      simp [Statement.ofJsonAll, hread]
    exact ⟨_, rfl, .omitted (Statement.written_branch "true" hall)⟩

theorem plain_ladder (n : Nat) : (ladder n).Plain := by
  induction n with
  | zero => exact ⟨trivial, trivial, trivial⟩
  | succ n ih => exact ⟨trivial, trivial, ⟨ih, trivial⟩, trivial⟩

theorem depth_ladder (n : Nat) : (ladder n).depth = 2 * n + 1 := by
  induction n with
  | zero => rfl
  | succ n ih =>
    simp [ladder, Json.depth, Json.depthMembers, Json.depthItems, ih]
    omega

theorem readsWithin_ladder (n room : Nat) :
    ReadsWithin room (Statement.read room) (ladder n) (rungs n) := by
  obtain ⟨members, hladder, hwritten⟩ := written_ladder n
  have hplain := plain_ladder n
  rw [hladder] at hplain ⊢
  exact Statement.readsWithin_written hwritten hplain.2 room

theorem branching_ladderProgram (n : Nat) : (ladderProgram n).branching = n + 1 := by
  have hrungs : (rungs n).branching = n + 1 := by
    induction n with
    | zero => rfl
    | succ n ih =>
      simp [rungs, Statement.guardedBy, Statement.branching, Statement.branchingAll, ih]
  simp [ladderProgram, branching, Trigger.branching, Statement.branchingAll, hrungs]

theorem plain_ladderDocument (n : Nat) : (ladderDocument n).Plain :=
  ⟨⟨⟨trivial, ⟨plain_ladder n, trivial⟩, trivial⟩, trivial⟩, trivial⟩

theorem depth_ladderDocument (n : Nat) : (ladderDocument n).depth = 2 * n + 5 := by
  simp [ladderDocument, TriggerKind.members, Json.depth, Json.depthMembers, Json.depthItems,
    depth_ladder]

/-- A ladder is read wherever its text is not nested too deep, one container at a time from the
inside. -/
theorem readsWithin_ladderDocument (n : Nat) :
    ReadsWithin 127 read (ladderDocument n) (ladderProgram n) := by
  have hstatements : ReadsWithin 124 (Json.readList (Statement.read 123)) (.array [ladder n])
      [rungs n] :=
    Json.readsWithin_list (l := [n]) fun n _ => readsWithin_ladder n 123
  have htrigger := hstatements.container (Trigger.read_members .redstonePulse _ 123)
    (by simp [TriggerKind.members, Json.depth, Json.depthMembers])
  have htriggers : ReadsWithin 126 (Json.readList (Trigger.read 125))
      (.array [.object (TriggerKind.redstonePulse.members ++
        [(Trigger.statementsKey, .array [ladder n])])]) (ladderProgram n).triggers :=
    Json.readsWithin_list (l := [n]) fun _ _ => htrigger
  have hname : ((Fields.done Program.mk).optional "name" Json.readText "").Written []
      (Program.mk "") := .omitted (.done Program.mk)
  exact htriggers.container (hname.ofMembers_concat (by decide) _) rfl

theorem ofText_ladderDocument {n : Nat} (h : n ≤ 61) :
    read.ofText (ladderDocument n).compact = .ok (ladderProgram n) := by
  rw [(readsWithin_ladderDocument n).ofText (plain_ladderDocument n),
    Json.nesting_compact (plain_ladderDocument n), depth_ladderDocument, if_pos (by omega)]

/-! ## Storing again -/

theorem ofText_compact_of_ofText {text : String} (h : read.ofText text = .ok p) :
    read.ofText p.toJson.compact = if p.branching ≤ 61 then .ok p else .error .malformed := by
  have hread := Json.eq_ok_of_ofText h
  have hcompact := p.readsWithin.ofText p.plain_toJson
  rw [atLeastOne_eq (ProgramSession.paced_of_read_program hread)] at hcompact
  simpa only [nesting_le_iff_of_read hread] using hcompact

/-- The text that an accepted program is stored as is read as this program again, and stays the
same, if at most 61 of its branches are inside one another. If there are 62, it is refused; there
are never more. -/
theorem ofText_resaved {text : String} (h : read.ofText text = .ok p) :
    p.branching ≤ 62 ∧
      (p.branching ≤ 61 → read.ofText p.toJson.compact = .ok p) ∧
      (p.branching = 62 → read.ofText p.toJson.compact = .error .malformed) ∧
      ∀ q, read.ofText p.toJson.compact = .ok q → q.toJson.compact = p.toJson.compact := by
  have hcompact := ofText_compact_of_ofText h
  refine ⟨?_, fun hle => ?_, fun heq => ?_, fun q hq => ?_⟩
  · refine branching_le_iff.2 fun t ht s hs => ?_
    have hs := (fits_of_read (Json.eq_ok_of_ofText h) t ht s hs).branching
    omega
  · rw [hcompact, if_pos hle]
  · rw [hcompact, if_neg (by omega)]
  · rw [hcompact] at hq
    split at hq <;> cases hq
    rfl

theorem ofText_resaved_ladder :
    read.ofText (ladderDocument 60).compact = .ok (ladderProgram 60) ∧
      (ladderProgram 60).branching ≤ 61 ∧
      read.ofText (ladderProgram 60).toJson.compact = .ok (ladderProgram 60) := by
  have hread := ofText_ladderDocument (n := 60) (by decide)
  have hbranching : (ladderProgram 60).branching ≤ 61 := Nat.le_of_eq (branching_ladderProgram 60)
  exact ⟨hread, hbranching, (ofText_resaved hread).2.1 hbranching⟩

/-- One branch more, and what is accepted is stored as a text that is refused. -/
theorem ofText_resaved_refused :
    read.ofText (ladderDocument 61).compact = .ok (ladderProgram 61) ∧
      read.ofText (ladderProgram 61).toJson.compact = .error .malformed := by
  have hread := ofText_ladderDocument (n := 61) (by decide)
  refine ⟨hread, ?_⟩
  rw [ofText_compact_of_ofText hread, branching_ladderProgram]
  rfl

end Program
end FactoryScript
