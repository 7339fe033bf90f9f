import FactoryScript.Proofs.Script.Newline

/-!
# Programs with the same script

A script with clean texts tells its program up to the normal form: its lines tell the name and the
blocks, and the lines of a block tell its trigger.
-/

namespace FactoryScript
open Text

/-! ## Rows -/

/-- The lines of a piece and the empty line after it. -/
def rows (lines : List String) : List String := lines ++ [""]

theorem join_rows {lines : List String} (h : lines ≠ []) :
    String.join ((rows lines).map (· ++ "\n")) = "\n".intercalate lines ++ "\n\n" := by
  rw [rows, List.map_append, String.join_append, join_map_append h, String.append_assoc]
  rfl

/-- Groups of lines that are each followed by an empty row, as one text. -/
theorem join_flatMap_rows {groups : List (List String)} (h : ∀ lines ∈ groups, lines ≠ []) :
    String.join ((groups.flatMap rows).map (· ++ "\n")) =
      String.join (groups.map fun lines => "\n".intercalate lines ++ "\n\n") := by
  induction groups with
  | nil => rfl
  | cons lines rest ih =>
    obtain ⟨hlines, hrest⟩ := List.forall_mem_cons.1 h
    rw [List.flatMap_cons, List.map_append, String.join_append, join_rows hlines, ih hrest,
      List.map_cons, String.join_cons]

/-! ## Reading triggers -/

/-- Triggers are told apart one by one: a block can be read back whatever rows follow it. -/
theorem Trigger.rows_unique {ts ts' : List Trigger} (hts : ∀ t ∈ ts, t.Clean)
    (hts' : ∀ t ∈ ts', t.Clean) (h : (ts.map lines).flatMap rows = (ts'.map lines).flatMap rows) :
    ts.map normal = ts'.map normal := by
  have hrows (t : Trigger) (ts : List Trigger) : ((t :: ts).map lines).flatMap rows ≠ [] := by
    simp [rows]
  induction ts generalizing ts' with
  | nil =>
    cases ts' with
    | nil => rfl
    | cons t' ts' => exact absurd h.symm (hrows t' ts')
  | cons t ts ih =>
    cases ts' with
    | nil => exact absurd h (hrows t ts)
    | cons t' ts' =>
      rw [List.map_cons, List.map_cons, List.flatMap_cons, List.flatMap_cons, rows, rows,
        List.append_assoc, List.append_assoc] at h
      obtain ⟨ht, hts⟩ := List.forall_mem_cons.1 hts
      obtain ⟨ht', hts'⟩ := List.forall_mem_cons.1 hts'
      obtain ⟨hfirst, hrest⟩ := lines_unique ht ht' h
      rw [List.map_cons, List.map_cons, hfirst, ih hts hts' (List.cons.inj hrest).2]

/-! ## Reading programs -/

namespace Program

/-- Every text of the program can be read back from its script. -/
structure Clean (p : Program) : Prop where
  name : OneLine p.name
  triggers : ∀ t ∈ p.triggers, t.Clean

theorem Clean.unbroken {p : Program} (hp : p.Clean) : p.Unbroken where
  name := hp.name
  triggers t ht := (hp.triggers t ht).unbroken

theorem untrimmed_eq_join (p : Program) :
    p.untrimmed = String.join ((p.lineGroups.flatMap rows).map (· ++ "\n")) := by
  rw [join_flatMap_rows lines_ne_nil_of_mem_lineGroups, untrimmed, pieces_eq, List.map_map]
  rfl

theorem Clean.oneLine_of_mem_rows {p : Program} (hp : p.Clean) :
    ∀ l ∈ p.lineGroups.flatMap rows, OneLine l := by
  rw [List.forall_mem_flatMap]
  intro lines hlines
  rw [rows, List.forall_mem_append]
  exact ⟨hp.unbroken.oneLine_of_mem_lineGroups lines hlines, by decide⟩

/-- The line of the name starts with `name`, which opens no trigger. -/
theorem firstWord_of_nameLine? {name line : String} (h : nameLine? name = some line) :
    firstWord line = some "name" := by
  unfold nameLine? at h
  split at h
  · cases h
  · cases h
    rw [String.append_assoc]
    exact firstWord_of_splitAt (by decide)
      (splitAt_append_of_notMem (s := "name") (by decide) ("\"" ++ (name ++ "\"")))

theorem firstWord_header (t : Trigger) : firstWord t.header = some "every" := by
  obtain ⟨ws, h⟩ := t.kind.splitAt_header
  exact firstWord_of_splitAt (by decide) h

/-- The line of the name gives the name back, up to blanks. -/
theorem normalName_eq_of_nameLine? {name name' : String} (h : nameLine? name = nameLine? name') :
    normalName name = normalName name' := by
  unfold nameLine? at h
  unfold normalName
  split at h <;> split at h
  · simp_all
  · cases h
  · cases h
  · have hname := (String.append_right_inj _).1 ((String.append_left_inj _).1 (Option.some.inj h))
    simp_all

/-- The rows of a clean program give it back: first the name, which its first word tells from a
trigger, then the triggers. -/
theorem rows_unique {p q : Program} (hp : p.Clean) (hq : q.Clean)
    (h : p.lineGroups.flatMap rows = q.lineGroups.flatMap rows) : p.normal = q.normal := by
  have hblocks (ts : List Trigger) :
      NotFirst (fun l => firstWord l = some "name") ((ts.map Trigger.lines).flatMap rows) := by
    cases ts with
    | nil => exact notFirst_nil
    | cons t ts =>
      rw [List.map_cons, List.flatMap_cons, rows, Trigger.lines_eq, List.cons_append,
        List.cons_append, notFirst_cons, firstWord_header]
      decide
  have hname (p : Program) : ((nameLine? p.name).toList.map ([·])).flatMap rows =
      (nameLine? p.name).toList.flatMap fun line => [line, ""] := by
    cases nameLine? p.name <;> rfl
  rw [lineGroups, lineGroups, List.flatMap_append, List.flatMap_append, hname, hname] at h
  have hfirst (line : String) (hline : line ∈ nameLine? p.name ∨ line ∈ nameLine? q.name) :
      firstWord line = some "name" :=
    hline.elim firstWord_of_nameLine? firstWord_of_nameLine?
  obtain ⟨hline, htriggers⟩ := optional_unique
    (fun line hline => ⟨line, [""], rfl, hfirst line hline⟩) (hblocks _) (hblocks _)
    (fun _ _ _ _ h => by
      obtain ⟨hline, h⟩ := List.cons.inj h
      exact ⟨hline, (List.cons.inj h).2⟩) h
  rw [normal, normal, normalName_eq_of_nameLine? hline,
    Trigger.rows_unique hp.triggers hq.triggers htriggers]

/-- The script of a program with clean texts tells its normal form, and nothing else. -/
theorem script_eq_iff_normal_eq (p q : Program) :
    (p.Clean → q.Clean → (p.script = q.script ↔ p.normal = q.normal)) ∧
      (p.normal = q.normal → p.script = q.script) := by
  refine ⟨fun hp hq => ⟨fun h => ?_, script_eq_of_normal_eq⟩, script_eq_of_normal_eq⟩
  have hjoin := untrimmed_eq_of_script_eq h
  rw [untrimmed_eq_join, untrimmed_eq_join] at hjoin
  exact rows_unique hp hq
    (join_injective '\n' hp.oneLine_of_mem_rows hq.oneLine_of_mem_rows hjoin)

/-- A blank name, a delay of zero, a fluid and blank labels. -/
def verbose : Program where
  name := " "
  triggers :=
    [⟨.scheduled ⟨20, .ticks, false, some 0⟩,
      [.branch "a has gt 0 coal"
        [.input ((Transfer.ofLabel "a").withResource .fluid "water")] [.forget (some " ")]]⟩]

/-- The same without what a script does not show. -/
def terse : Program where
  name := ""
  triggers :=
    [⟨.scheduled ⟨20, .ticks, false, none⟩,
      [.branch "a has gt 0 coal"
        [.input ((Transfer.ofLabel "a").withItem "fluid::water")] [.forget none]]⟩]

theorem script_verbose :
    verbose.Clean ∧ terse.Clean ∧ (verbose.script = terse.script ↔ verbose.normal = terse.normal) ∧
      verbose.script = terse.script := by
  have hfluid : ((Transfer.ofLabel "a").withResource .fluid "water").Clean :=
    ⟨by decide, by decide, by decide, by decide, .inr ⟨by decide, by decide, by decide, by decide⟩,
      by decide⟩
  have hitem : ((Transfer.ofLabel "a").withItem "fluid::water").Clean :=
    ⟨by decide, by decide, by decide, by decide, .inr ⟨by decide, by decide, by decide, by decide⟩,
      by decide⟩
  have hverbose : verbose.Clean := by
    refine ⟨by decide, List.forall_mem_singleton.2 ?_⟩
    have hblank : ∀ s ∈ some " ", OneLine s := by decide
    exact ⟨⟨by decide, ⟨hfluid, trivial⟩, hblank, trivial⟩, trivial⟩
  have hterse : terse.Clean := by
    refine ⟨by decide, List.forall_mem_singleton.2 ?_⟩
    exact ⟨⟨by decide, ⟨hitem, trivial⟩, nofun, trivial⟩, trivial⟩
  obtain ⟨hiff, hscript⟩ := script_eq_iff_normal_eq verbose terse
  exact ⟨hverbose, hterse, hiff hverbose hterse, hscript rfl⟩

end Program
end FactoryScript
