import FactoryScript.Proofs.Host.Simulation
import FactoryScript.Proofs.Values.Store

/-!
# Commands on common values

Every command on the values is a process of its own: it loads the lists, edits them, and saves them
if they changed. `ValuesCommand.edit` is what it does to lists in memory. Processes one after the
other do to the store what the edits do to the lists, as long as every operation on files does what
it should. A store that is found and cannot be read is left alone, and the command fails. But
whether there is a store is asked first, and the answer is also no if the question fails: then the
lists are taken for empty (`ValuesLine.processes_faithful`, `ValuesLine.list_detour`).
-/

namespace FactoryScript

/-! ## Edits -/

theorem CommonValues.withList_list (v : CommonValues) (c : ValueCategory) :
    v.withList c (v.list c) = v := by
  cases c <;> rfl

/-- A command on common values. -/
inductive ValuesCommand
  | list
  | add (c : ValueCategory) (value : String)
  | remove (c : ValueCategory) (value : String)
  deriving DecidableEq, Repr

namespace ValuesCommand

def action (dir : String) : ValuesCommand → Action
  | list => .listValues dir
  | add c value => .addValue dir c value
  | remove c value => .removeValue dir c value

/-- What a command does to the lists, and whether it changes them. -/
def edit : ValuesCommand → CommonValues → Bool × CommonValues
  | list, v => (false, v)
  | add c value, v => v.add c value
  | remove c value, v => v.remove c value

/-- A command that reports no change has made none. -/
theorem edit_eq_of_unchanged {command : ValuesCommand} {v : CommonValues}
    (h : (command.edit v).1 = false) : (command.edit v).2 = v := by
  cases command with
  | list => rfl
  | add c value =>
    simp only [edit, CommonValues.add] at h ⊢
    split at h
    · rw [if_pos ‹_›]
    · cases h
  | remove c value =>
    simp only [edit, CommonValues.remove] at h ⊢
    have hkept : (v.list c).filter (· != Text.trim value) = v.list c := by
      rw [List.filter_eq_self]
      intro x hx
      rw [bne_iff_ne]
      rintro rfl
      rw [List.contains_iff_mem.2 hx] at h
      cases h
    rw [hkept, v.withList_list]

/-! ## What a command does -/

open ValueStore

variable {m : Type → Type} [Monad m] [Host m] {dir : String} {command : ValuesCommand} {w : World}
  {v : CommonValues}

/-- A command works on the lists that it has loaded, and ends there if they cannot be loaded. -/
theorem run_withValues (R : Simulation m)
    (body : ValueStore → CommonValues → m (Except String Unit)) (w : World) :
    R.run (Command.withValues dir body) w =
      match (R.run (inDir dir).tryLoad w).1 with
      | .error _ =>
        (.error ("failed to load " ++ (inDir dir).path), (R.run (inDir dir).tryLoad w).2)
      | .ok v => R.run (body (inDir dir) v) (R.run (inDir dir).tryLoad w).2 := by
  rw [Command.withValues, R.run_bind]
  cases (R.run (inDir dir).tryLoad w).1 with
  | error e => exact R.run_pure ..
  | ok v => rfl

/-- What follows on loading: the edited lists are saved, or something is printed where there is
nothing to save. -/
theorem exists_perform_eq (command : ValuesCommand) (dir : String) :
    ∃ body : ValueStore → CommonValues → m (Except String Unit),
      Command.perform (command.action dir) = Command.withValues dir body ∧
      ∀ s v, (∃ unchanged, body s v = Command.saveChanged s (command.edit v) unchanged) ∨
        (command.edit v).1 = false ∧ ∃ text, body s v = (do Host.print text; return .ok ()) := by
  cases command with
  | list =>
    rw [action, Command.perform]
    exact ⟨_, rfl, fun s v => .inr ⟨rfl, _, rfl⟩⟩
  | add c value =>
    rw [action, Command.perform]
    exact ⟨_, rfl, fun s v => .inl ⟨_, rfl⟩⟩
  | remove c value =>
    rw [action, Command.perform]
    exact ⟨_, rfl, fun s v => .inl ⟨_, rfl⟩⟩

/-- If the lists cannot be loaded nothing is done. -/
theorem exists_run_perform_of_error {e : StoreError} (R : Simulation m)
    (hload : (R.run (inDir dir).tryLoad w).1 = .error e) :
    ∃ notes, R.run (Command.perform (command.action dir)) w =
      (.error ("failed to load " ++ (inDir dir).path), w.noting notes) := by
  obtain ⟨body, hbody, -⟩ := exists_perform_eq (m := m) command dir
  obtain ⟨notes, hnotes⟩ := exists_run_tryLoad R (inDir dir) w
  refine ⟨notes, ?_⟩
  rw [hbody, run_withValues, hload, hnotes]

/-- If the lists do not change nothing is saved. -/
theorem exists_run_perform_of_unchanged (R : Simulation m)
    (hload : (R.run (inDir dir).tryLoad w).1 = .ok v) (hedit : (command.edit v).1 = false) :
    ∃ notes printed, R.run (Command.perform (command.action dir)) w =
      (.ok (), { w with notes := notes, printed := printed }) := by
  obtain ⟨body, hbody, hcases⟩ := exists_perform_eq (m := m) command dir
  obtain ⟨notes, hnotes⟩ := exists_run_tryLoad R (inDir dir) w
  rw [hbody, run_withValues, hload, hnotes]
  dsimp only
  rcases hcases (inDir dir) v with ⟨unchanged, hsave⟩ | ⟨-, text, hprint⟩
  · rw [hsave, Command.saveChanged, hedit]
    obtain ⟨more, hmore⟩ := R.exists_run_tell .command .info unchanged
      (Except.ok () : Except String Unit) (w.noting notes)
    exact ⟨_, _, hmore⟩
  · rw [hprint, R.run_bind, R.run_print, R.run_pure]
    exact ⟨_, _, rfl⟩

/-- If the lists change and nothing hinders their being saved, they are in the store afterwards. -/
theorem run_perform_of_changed {R : Simulation m}
    (hload : (R.run (inDir dir).tryLoad w).1 = .ok v) (hedit : (command.edit v).1 = true)
    (hsave : (inDir dir).Unhindered R (command.edit v).2 (R.run (inDir dir).tryLoad w).2) :
    (R.run (Command.perform (command.action dir)) w).1 = .ok () ∧
      stored dir (R.run (Command.perform (command.action dir)) w).2 =
        .ok (some (.file (command.edit v).2.pretty.toUTF8)) := by
  obtain ⟨body, hbody, hcases⟩ := exists_perform_eq (m := m) command dir
  rw [hbody, run_withValues, hload]
  dsimp only
  rcases hcases (inDir dir) v with ⟨unchanged, hchanged⟩ | ⟨hfalse, -⟩
  · have hsaved := hsave.run_trySave
    rw [hchanged, Command.saveChanged, if_pos hedit, R.run_bind, hsaved]
    dsimp only
    rw [R.run_pure]
    exact ⟨rfl, stored_of_run_trySave hsaved⟩
  · rw [hedit] at hfalse
    cases hfalse

end ValuesCommand

/-! ## Processes -/

/-- A command line for the values in a directory. -/
structure ValuesLine (dir : String) where
  configDir : Option String
  args : List String
  verbose : Bool
  command : ValuesCommand
  read_eq : Arguments.read configDir args = .ok ⟨verbose, command.action dir⟩

namespace ValuesLine
open ValueStore

variable {m : Type → Type} [Monad m] [Host m] {R : Simulation m} {dir : String}
  {l : ValuesLine dir} {lines : List (ValuesLine dir)} {w : World} {v : CommonValues}

/-- How the process of a command line ends, and the world after it. -/
def process (R : Simulation m) (l : ValuesLine dir) (w : World) : Ending × World :=
  R.run (Command.run l.configDir l.args) w

/-- The host of the process, which drops the messages that are not asked for. -/
def host (R : Simulation m) (l : ValuesLine dir) : Simulation (Host.Quiet m) :=
  R.quiet (Command.threshold l.verbose)

/-- Every file-system call of the process does what it should: it sees the store, and if it has
changed lists to save, nothing hinders it. -/
structure Unhindered (R : Simulation m) (l : ValuesLine dir) (w : World) : Prop where
  sees : (l.host R).Sees (inDir dir).path w
  saves : ∀ v, ((l.host R).run (inDir dir).tryLoad w).1 = .ok v → (l.command.edit v).1 = true →
    (inDir dir).Unhindered (l.host R) (l.command.edit v).2
      ((l.host R).run (inDir dir).tryLoad w).2

/-- Messages that are dropped have no part in what is loaded. -/
theorem run_tryLoad_host (s : ValueStore) :
    ((l.host R).run s.tryLoad w).1 = (R.run s.tryLoad w).1 := by
  rw [run_tryLoad, run_tryLoad]
  rfl

theorem process_eq {r : Except String Unit} {u : World}
    (h : (l.host R).run (Command.perform (l.command.action dir)) w = (r, u)) :
    l.process R w = (Command.ending r, u) :=
  Command.run_of_read R l.read_eq h

/-- A process that cannot load the lists fails before it has touched a file. -/
theorem process_of_error {e : StoreError} (hload : (R.run (inDir dir).tryLoad w).1 = .error e) :
    (l.process R w).1 = ⟨1, some ("failed to load " ++ (inDir dir).path)⟩ ∧
      (l.process R w).2.files = w.files := by
  rw [← run_tryLoad_host (l := l)] at hload
  obtain ⟨notes, hrun⟩ := ValuesCommand.exists_run_perform_of_error (l.host R) hload
  rw [process_eq hrun]
  exact ⟨rfl, rfl⟩

/-- A process whose edit finds nothing to do succeeds without touching a file. -/
theorem process_of_unchanged (hload : (R.run (inDir dir).tryLoad w).1 = .ok v)
    (hedit : (l.command.edit v).1 = false) :
    (l.process R w).1 = ⟨0, none⟩ ∧ (l.process R w).2.files = w.files ∧
      (l.process R w).2.home = w.home := by
  rw [← run_tryLoad_host (l := l)] at hload
  obtain ⟨notes, printed, hrun⟩ :=
    ValuesCommand.exists_run_perform_of_unchanged (l.host R) hload hedit
  rw [process_eq hrun]
  exact ⟨rfl, rfl, rfl⟩

/-- One process does to the store what the edit does to the lists. -/
theorem process_unhindered (hload : (inDir dir).loaded (stored dir w) = .ok v)
    (h : l.Unhindered R w) :
    (l.process R w).1 = ⟨0, none⟩ ∧
      (inDir dir).loaded (stored dir (l.process R w).2) = .ok (l.command.edit v).2 := by
  have htry := (run_tryLoad_of_sees h.sees).trans hload
  cases hedit : (l.command.edit v).1 with
  | false =>
    obtain ⟨hending, hfiles, hhome⟩ :=
      process_of_unchanged ((run_tryLoad_host (inDir dir)).symm.trans htry) hedit
    refine ⟨hending, ?_⟩
    rw [stored, hfiles, hhome, ← stored, hload, ValuesCommand.edit_eq_of_unchanged hedit]
  | true =>
    obtain ⟨hok, hstored⟩ := ValuesCommand.run_perform_of_changed htry hedit (h.saves v htry hedit)
    rw [process_eq (Prod.ext hok rfl), hstored, loaded_pretty]
    exact ⟨rfl, rfl⟩

/-! ## Processes one after the other -/

/-- How the processes of some command lines end, and the world after them. -/
def processes (R : Simulation m) : List (ValuesLine dir) → World → List Ending × World
  | [], w => ([], w)
  | l :: lines, w =>
    let (ending, u) := l.process R w
    let (endings, x) := processes R lines u
    (ending :: endings, x)

/-- None of the processes is hindered, each in the world that the ones before it have left, and
whoever loads the lists afterwards sees the store. -/
def AllUnhindered (R : Simulation m) : List (ValuesLine dir) → World → Prop
  | [], w => R.Sees (inDir dir).path w
  | l :: lines, w => l.Unhindered R w ∧ AllUnhindered R lines (l.process R w).2

/-- The first process, or else the last look, sees the store as the lines begin. -/
theorem AllUnhindered.sees (h : AllUnhindered R lines w) : R.Sees (inDir dir).path w := by
  cases lines with
  | nil => exact h
  | cons l lines =>
    obtain ⟨hexists, hread⟩ := h.1.sees
    exact ⟨hexists, hread⟩

/-- The lists after the edits of some command lines. -/
def edited (lines : List (ValuesLine dir)) (v : CommonValues) : CommonValues :=
  lines.foldl (fun v l => (l.command.edit v).2) v

/-- Along a run the store holds the lists of the edits so far, which the next process loads. -/
theorem processes_unhindered (hload : (inDir dir).loaded (stored dir w) = .ok v)
    (h : AllUnhindered R lines w) :
    (∀ e ∈ (processes R lines w).1, e = ⟨0, none⟩) ∧
      (R.run (inDir dir).tryLoad (processes R lines w).2).1 = .ok (edited lines v) := by
  induction lines generalizing w v with
  | nil => exact ⟨nofun, (run_tryLoad_of_sees h).trans hload⟩
  | cons l lines ih =>
    obtain ⟨hfirst, hrest⟩ := h
    -- the lists that the first process leaves are those that the next one loads
    obtain ⟨hending, hedit⟩ := process_unhindered hload hfirst
    obtain ⟨hendings, hedits⟩ := ih hedit hrest
    exact ⟨List.forall_mem_cons.2 ⟨hending, hendings⟩, hedits⟩

/-- The host finds the store, but does not read a document from it. -/
structure Unloadable (R : Simulation m) (dir : String) (w : World) : Prop where
  found : (R.run (Host.pathExists (inDir dir).path) w).1 = true
  noDocument : ∀ text v, (R.run (Host.readText (inDir dir).path) w).1 = .ok text →
    CommonValues.read.ofText text ≠ .ok v

/-- Reading may fail where there is a document, but it does not give one where there is none. -/
theorem unloadable_of_not_sound (hsound : ¬ Sound dir w)
    (hfound : (R.run (Host.pathExists (inDir dir).path) w).1 = true) : Unloadable R dir w := by
  refine ⟨hfound, fun text v htext hdocument => hsound fun _ => ⟨text, v, ?_, hdocument⟩⟩
  have hfetched := R.fetched_readText (inDir dir).path w
  rw [htext] at hfetched
  cases hfetched with
  | done h => exact h

/-- A store that is found and in which there is no document is an error. -/
theorem Unloadable.run_tryLoad (h : Unloadable R dir w) :
    ∃ e, (R.run (inDir dir).tryLoad w).1 = .error e := by
  rw [ValueStore.run_tryLoad, h.found]
  cases htext : (R.run (Host.readText (inDir dir).path) w).1 with
  | error cause => exact ⟨_, rfl⟩
  | ok text =>
    cases hdocument : CommonValues.read.ofText text with
    | error fault => exact ⟨.invalid (inDir dir).path fault, by rw [loadedFrom, hdocument]⟩
    | ok v => exact absurd hdocument (h.noDocument text v htext)

/-- Where the host does not find the store, the lists are taken for empty. -/
theorem run_tryLoad_of_missing (h : (R.run (Host.pathExists (inDir dir).path) w).1 = false) :
    (R.run (inDir dir).tryLoad w).1 = .ok .empty := by
  rw [run_tryLoad, h]
  rfl

/-- From a store that is missing or sound, processes of which no file-system call fails take the
lists through the edits one after the other. A process that changes nothing leaves every file as it
is. So does every process if the store is found and cannot be read or decoded, and then it fails.
But where the question for the store is answered with no, whatever stands there, the lists are taken
for empty. -/
theorem processes_faithful (R : Simulation m) (dir : String) (w : World) :
    (∀ lines : List (ValuesLine dir), Sound dir w → AllUnhindered R lines w →
      ∃ v, (R.run (inDir dir).tryLoad w).1 = .ok v ∧
        (∀ e ∈ (processes R lines w).1, e = ⟨0, none⟩) ∧
        (R.run (inDir dir).tryLoad (processes R lines w).2).1 = .ok (edited lines v)) ∧
    (∀ (l : ValuesLine dir) (v : CommonValues), (R.run (inDir dir).tryLoad w).1 = .ok v →
      (l.command.edit v).1 = false →
        (l.process R w).1 = ⟨0, none⟩ ∧ (l.process R w).2.files = w.files) ∧
    (Unloadable R dir w → ∀ l : ValuesLine dir,
      (l.process R w).1 = ⟨1, some ("failed to load " ++ (inDir dir).path)⟩ ∧
        (l.process R w).2.files = w.files) ∧
    (¬ Sound dir w → (R.run (Host.pathExists (inDir dir).path) w).1 = true →
      Unloadable R dir w) ∧
    ((R.run (Host.pathExists (inDir dir).path) w).1 = false →
      (R.run (inDir dir).tryLoad w).1 = .ok .empty) := by
  refine ⟨fun lines hsound h => ?_, fun l v hload hedit => ?_, fun h l => ?_,
    unloadable_of_not_sound, run_tryLoad_of_missing⟩
  · obtain ⟨v, hload⟩ := sound_iff.1 hsound
    exact ⟨v, (run_tryLoad_of_sees h.sees).trans hload, processes_unhindered hload h⟩
  · obtain ⟨hending, hfiles, -⟩ := process_of_unchanged hload hedit
    exact ⟨hending, hfiles⟩
  · obtain ⟨e, he⟩ := h.run_tryLoad
    exact process_of_error he

def addIron : ValuesLine "d" where
  configDir := some "d"
  args := ["values", "add", "item", " iron"]
  verbose := false
  command := .add .item " iron"
  read_eq := by decide +kernel

def removeIron : ValuesLine "d" where
  configDir := none
  args := ["values", "--config-dir", "d", "remove", "-v", "items", "iron"]
  verbose := true
  command := .remove .item "iron"
  read_eq := by decide +kernel

/-- The command line that lists what is in the directory of the environment. -/
def listIn (dir : String) (h : dir ≠ "") : ValuesLine dir where
  configDir := some dir
  args := ["values", "list"]
  verbose := false
  command := .list
  read_eq := by
    have hfold : ["values", "list"].foldlM Arguments.step Arguments.initial =
        .ok { Arguments.initial with command := .list } := rfl
    have hdir : Arguments.Progress.dir { Arguments.initial with command := .list } (some dir) =
        .ok dir := if_neg h
    have haction : Arguments.Progress.action { Arguments.initial with command := .list }
        (some dir) = .ok (.listValues dir) := by
      rw [Arguments.Progress.action.eq_def]
      dsimp only [Arguments.initial] at hdir ⊢
      rw [hdir]
      rfl
    rw [Arguments.read, hfold]
    dsimp only [bind, Except.bind]
    rw [haction]
    rfl

/-- The initial world with a store. -/
def withStore (bytes : ByteArray) : World :=
  { World.initial with
    files := (World.initial.files.put ["home", "d"] .directory).put ["home", "d", fileName]
      (.file bytes) }

def withIron : World := withStore (CommonValues.pretty ⟨[], ["iron"], [], [], []⟩).toUTF8

/-- The store is no document. -/
def withDamage : World := withStore "\x7b broken".toUTF8

theorem process_addIron : addIron.process .direct World.initial = (⟨0, none⟩, withIron) := by
  have hrun : (addIron.host .direct).run (Command.perform (addIron.command.action "d"))
      World.initial = (.ok (), withIron) := rfl
  exact process_eq hrun

theorem addIron_unhindered : addIron.Unhindered .direct World.initial := by
  refine ⟨(Simulation.Sees.direct ..).quiet _, fun v hload _ => ?_⟩
  obtain rfl : CommonValues.empty = v := Except.ok.inj hload
  exact ⟨fun _ _ => rfl, rfl, rfl⟩

theorem removeIron_unhindered : removeIron.Unhindered .direct withIron := by
  refine ⟨(Simulation.Sees.direct ..).quiet _, fun v hload _ => ?_⟩
  obtain ⟨notes, hnotes⟩ := exists_run_tryLoad (removeIron.host .direct) (inDir "d") withIron
  rw [hnotes]
  have hprepare : (removeIron.host .direct).run (inDir "d").prepare (withIron.noting notes) =
      (.ok (), withIron.noting notes) := rfl
  have hwrite (text : String) : (removeIron.host .direct).run
      (Host.writeText (inDir "d").temporary text) (withIron.noting notes) =
        (.ok (), (withIron.noting notes).withFiles (withIron.files.put
          ["home", "d", fileName ++ ".tmp"] (.file text.toUTF8))) := rfl
  refine ⟨fun _ hmissing => ?_, ?_, ?_⟩
  · cases hmissing
  · rw [hprepare, hwrite]
  · rw [hprepare, hwrite]
    rfl

/-- Iron comes and goes; before it is there removing it changes nothing, and where the store cannot
be decoded it is not added. But a store that one may not get at is listed as if there were none. -/
theorem processes_iron :
    (Simulation.direct.run (inDir "d").tryLoad
        (processes .direct [addIron, removeIron] World.initial).2).1 = .ok .empty ∧
      (removeIron.process .direct World.initial).2.files = World.initial.files ∧
      (addIron.process .direct withDamage).1.status = 1 ∧
      (addIron.process .direct withDamage).2.files = withDamage.files ∧
      ((listIn "d" (by decide)).process (.locked (· == "d/common_values.json")) withIron).1 =
        ⟨0, none⟩ := by
  have hsound : Sound "d" World.initial := sound_iff.2 ⟨.empty, rfl⟩
  have hdamage : ¬ Sound "d" withDamage := by
    rw [sound_iff]
    rintro ⟨v, hload⟩
    cases hload
  have hcalls : AllUnhindered .direct [addIron, removeIron] World.initial := by
    refine ⟨addIron_unhindered, ?_, .direct ..⟩
    rw [process_addIron]
    exact removeIron_unhindered
  obtain ⟨hrun, hidle, -⟩ := processes_faithful .direct "d" World.initial
  obtain ⟨v, hload, -, hedited⟩ := hrun [addIron, removeIron] hsound hcalls
  obtain rfl : CommonValues.empty = v := Except.ok.inj hload
  obtain ⟨-, -, hfails, hunloadable, -⟩ := processes_faithful .direct "d" withDamage
  obtain ⟨hending, hfiles⟩ := hfails (hunloadable hdamage rfl) addIron
  obtain ⟨-, hunchanged, -, -, hmissing⟩ :=
    processes_faithful (.locked (· == "d/common_values.json")) "d" withIron
  exact ⟨hedited, (hidle removeIron .empty hload rfl).2, congrArg Ending.status hending, hfiles,
    (hunchanged (listIn "d" (by decide)) .empty (hmissing rfl) rfl).1⟩

/-! ### A path that is too long -/

/-- A path of the directory `d`, with steps in front that lead nowhere. -/
def detour : Nat → String
  | 0 => "d"
  | n + 1 => "./" ++ detour n

theorem utf8ByteSize_detour (n : Nat) : (detour n).utf8ByteSize = 2 * n + 1 := by
  induction n with
  | zero => rfl
  | succ n ih =>
    have hstep : "./".utf8ByteSize = 2 := rfl
    rw [detour, String.utf8ByteSize_append, ih, hstep]
    omega

theorem exists_stored_eq_error (h : FileTree.maxPath < dir.utf8ByteSize) (w : World) :
    ∃ e, stored dir w = .error e := by
  have hjoin : dir.utf8ByteSize ≤ (Path.join dir fileName).utf8ByteSize := by
    unfold Path.join
    split_ifs with hempty
    · rw [hempty]
      exact Nat.zero_le _
    · rw [String.utf8ByteSize_append]
      exact Nat.le_add_right ..
    · rw [String.utf8ByteSize_append, String.utf8ByteSize_append, Nat.add_assoc]
      exact Nat.le_add_right ..
  have hcheck : ∃ e, FileTree.checkPath (Path.join dir fileName) = .error e := by
    unfold FileTree.checkPath
    split_ifs with hnul hlong
    · exact ⟨_, rfl⟩
    · exact ⟨_, rfl⟩
    · exact absurd (Nat.lt_of_lt_of_le h hjoin) hlong
  obtain ⟨e, he⟩ := hcheck
  exact ⟨e, by rw [stored, FileTree.view, he]; rfl⟩

/-- A store whose path is too long is neither found nor read, wherever the path would lead, and the
lists are printed as if they were empty. -/
theorem list_of_tooLong (h : FileTree.maxPath < dir.utf8ByteSize) (hdir : dir ≠ "") (w : World) :
    (∃ e, w.files.readText w.home (inDir dir).path = .error e) ∧
      ((listIn dir hdir).process .direct w).1 = ⟨0, none⟩ := by
  obtain ⟨e, he⟩ := exists_stored_eq_error h w
  have hmissing : w.files.pathExists w.home (inDir dir).path = false := by
    rw [pathExists_inDir, he]
  have hload : (Simulation.direct.run (inDir dir).tryLoad w).1 = .ok .empty :=
    run_tryLoad_of_missing hmissing
  refine ⟨⟨e, by rw [readText_inDir, he]; rfl⟩, ?_⟩
  exact (process_of_unchanged (l := listIn dir hdir) hload rfl).1

theorem detour_ne_empty (n : Nat) : detour n ≠ "" := by
  intro h
  have hsize := utf8ByteSize_detour n
  rw [h] at hsize
  cases hsize

/-- Step by step, the path leads to the directory. -/
theorem walk_detour {t : FileTree} {start : Place}
    (h : t.lookUp (start ++ ["d"]) = .ok (some .directory)) (n : Nat) :
    t.walk start (Path.pieces (detour n)) = .ok (start ++ ["d"]) := by
  induction n with
  | zero =>
    have hpieces : Path.pieces (detour 0) = ["d"] := by decide
    rw [hpieces, FileTree.walk, if_neg (by decide), if_neg (by decide), h]
    rfl
  | succ n ih =>
    have hpieces : Path.pieces (detour (n + 1)) = "." :: Path.pieces (detour n) := by
      rw [Path.pieces, detour, String.toList_append]
      rfl
    rw [hpieces, FileTree.walk, if_pos rfl, ih]

def withChest : World := withStore "\x7b\"Labels\": [\"chest\"]\x7d".toUTF8

/-- The store stands where the path leads, but the path is too long to be looked at or read, and the
lists are printed as if they were empty. -/
theorem list_detour :
    let dir := detour 2048
    withChest.files.walk withChest.home (Path.pieces dir) = .ok ["home", "d"] ∧
      (∃ bytes, withChest.files.entry? ["home", "d", fileName] = some (.file bytes)) ∧
      (∃ e, withChest.files.readText withChest.home (inDir dir).path = .error e) ∧
      ((listIn dir (detour_ne_empty 2048)).process .direct withChest).1 = ⟨0, none⟩ := by
  intro dir
  have hlong : FileTree.maxPath < dir.utf8ByteSize := by
    rw [utf8ByteSize_detour]
    decide
  exact ⟨walk_detour rfl 2048, ⟨_, rfl⟩, list_of_tooLong hlong (detour_ne_empty 2048) withChest⟩

end ValuesLine
end FactoryScript
