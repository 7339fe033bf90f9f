import FactoryScript.Command.Run
import FactoryScript.Host.World

/-!
# Programs on a simulated host

Programs are written for any host. On a host that acts on a `World`, a program is a function of the
world in which it starts, and `Simulation` says what the operations of such a host do. What they
have to do when they succeed is fixed. They fail where the operations on trees of files fail, and
they may also fail for reasons of their own, such as a disk that is full or a directory that may not
be searched. Then writing may have done a part of its work, and asking whether something stands at a
path is answered with no, whatever stands there.
-/

namespace FactoryScript

namespace FileTree

/-- How reading a text can end. -/
inductive Fetched (t : FileTree) (home : Place) (path : String) : Except FileError String → Prop
  | done {r : Except FileError String} (h : t.readText home path = r) : Fetched t home path r
  | failed (e : FileError) : Fetched t home path (.error e)

/-- How writing a text can end, and what the files are then. -/
inductive Written (t : FileTree) (home : Place) (path text : String) :
    Except FileError Unit → FileTree → Prop
  | done {u : FileTree} (h : t.writeText home path text = .ok u) :
    Written t home path text (.ok ()) u
  | failed (e : FileError) : Written t home path text (.error e) t
  /-- Something else is in the file than was to be written. -/
  | torn {u : FileTree} {part : ByteArray} (e : FileError)
    (h : t.writeBytes home path part = .ok u) : Written t home path text (.error e) u

/-- How creating directories can end. -/
inductive Made (t : FileTree) (home : Place) (path : String) :
    Except FileError Unit → FileTree → Prop
  | done {u : FileTree} (h : t.createDirs home path = (u, .ok ())) : Made t home path (.ok ()) u
  | refused (e : FileError) : Made t home path (.error e) t
  /-- The directories are made up to a part of the path. -/
  | failed {part : String} (e : FileError) (h : Path.pieces part <+: Path.pieces path) :
    Made t home path (.error e) (t.createDirs home part).1

/-- How renaming a file can end. -/
inductive Moved (t : FileTree) (home : Place) (source target : String) :
    Except FileError Unit → FileTree → Prop
  | done {u : FileTree} (h : t.rename home source target = .ok u) :
    Moved t home source target (.ok ()) u
  | failed (e : FileError) : Moved t home source target (.error e) t

end FileTree

namespace World

/-- The world with other files. -/
def withFiles (w : World) (files : FileTree) : World := { w with files := files }

theorem withFiles_withFiles (w : World) (t u : FileTree) :
    (w.withFiles t).withFiles u = w.withFiles u := rfl

/-- The world after some more messages. -/
def noting (w : World) (notes : List (Topic × Note)) : World := { w with notes := w.notes ++ notes }

theorem noting_noting (w : World) (notes more : List (Topic × Note)) :
    (w.noting notes).noting more = w.noting (notes ++ more) := by
  rw [noting, noting, noting, List.append_assoc]

end World

/-- How the programs of a host act on worlds. -/
structure Simulation (m : Type → Type) [Monad m] [Host m] where
  run {α : Type} : m α → World → α × World
  run_pure {α : Type} (a : α) (w : World) : run (pure a) w = (a, w)
  run_bind {α β : Type} (x : m α) (f : α → m β) (w : World) :
    run (x >>= f) w = run (f (run x w).1) (run x w).2
  /-- What is found is there. -/
  exists_run_pathExists (path : String) (w : World) :
    ∃ found, run (Host.pathExists path) w = (found, w) ∧
      (found = true → w.files.pathExists w.home path = true)
  exists_run_readText (path : String) (w : World) :
    ∃ r, run (Host.readText path) w = (r, w) ∧ w.files.Fetched w.home path r
  exists_run_writeText (path text : String) (w : World) :
    ∃ r u, run (Host.writeText path text) w = (r, w.withFiles u) ∧
      w.files.Written w.home path text r u
  exists_run_createDirs (path : String) (w : World) :
    ∃ r u, run (Host.createDirs path) w = (r, w.withFiles u) ∧ w.files.Made w.home path r u
  exists_run_rename (source target : String) (w : World) :
    ∃ r u, run (Host.rename source target) w = (r, w.withFiles u) ∧
      w.files.Moved w.home source target r u
  run_print (text : String) (w : World) :
    run (Host.print text) w = ((), { w with printed := w.printed ++ text })
  /-- A message is kept or dropped. -/
  exists_run_note (topic : Topic) (n : Note) (w : World) :
    ∃ notes, run (Host.note topic n) w = ((), w.noting notes)

namespace Simulation

/-- The simulated host itself, where nothing fails that the trees of files allow. -/
def direct : Simulation (StateM World) where
  run x w := x w
  run_pure _ _ := rfl
  run_bind _ _ _ := rfl
  exists_run_pathExists _ _ := ⟨_, rfl, id⟩
  exists_run_readText _ _ := ⟨_, rfl, .done rfl⟩
  exists_run_writeText path text w := by
    change ∃ r u, World.attempt (fun w => w.files.writeText w.home path text) w = _ ∧ _
    rw [World.attempt]
    cases h : w.files.writeText w.home path text with
    | error e => exact ⟨_, w.files, rfl, .failed e⟩
    | ok u => exact ⟨_, u, rfl, .done h⟩
  exists_run_createDirs path w := by
    rcases h : w.files.createDirs w.home path with ⟨u, e | ⟨⟩⟩
    · have hu : (w.files.createDirs w.home path).1 = u := congrArg Prod.fst h
      refine ⟨.error e, u, ?_, hu ▸ .failed e (List.prefix_refl _)⟩
      change (match w.files.createDirs w.home path with | (files, r) => (r, w.withFiles files)) = _
      rw [h]
    · refine ⟨.ok (), u, ?_, .done h⟩
      change (match w.files.createDirs w.home path with | (files, r) => (r, w.withFiles files)) = _
      rw [h]
  exists_run_rename source target w := by
    change ∃ r u, World.attempt (fun w => w.files.rename w.home source target) w = _ ∧ _
    rw [World.attempt]
    cases h : w.files.rename w.home source target with
    | error e => exact ⟨_, w.files, rfl, .failed e⟩
    | ok u => exact ⟨_, u, rfl, .done h⟩
  run_print _ _ := rfl
  exists_run_note topic n _ := ⟨[(topic, n)], rfl⟩

end Simulation

/-! ### A host with locks -/

/-- What is said of a path that one may not get at. -/
def FileError.denied : FileError := .other "Permission denied (os error 13)"

/-- The simulated host for someone who may not get at some paths. -/
abbrev Host.Locked := ReaderT (String → Bool) (StateM World)

/-- An operation that is refused if one of its paths is locked. -/
def Host.Locked.guard {α : Type} (paths : List String) (x : StateM World (Except FileError α)) :
    Host.Locked (Except FileError α) := fun locked =>
  if paths.any locked then pure (.error .denied) else x

instance : Host Host.Locked where
  pathExists path := fun locked w => (!locked path && w.files.pathExists w.home path, w)
  readText path := Host.Locked.guard [path] (Host.readText path)
  writeText path text := Host.Locked.guard [path] (Host.writeText path text)
  createDirs path := Host.Locked.guard [path] (Host.createDirs path)
  rename source target := Host.Locked.guard [source, target] (Host.rename source target)
  note topic n := fun _ => Host.note topic n
  print text := fun _ => Host.print text

namespace Simulation

/-- An operation on a host with locks is refused and changes nothing, or is the operation of the
host without them. -/
theorem guard_apply {α : Type} (paths : List String) (x : StateM World (Except FileError α))
    (locked : String → Bool) (w : World) :
    Host.Locked.guard paths x locked w = (.error .denied, w) ∨
      Host.Locked.guard paths x locked w = x w := by
  rw [Host.Locked.guard]
  split
  · exact .inl rfl
  · exact .inr rfl

/-- A locked path is not found, whatever stands there, and nothing can be done with it. -/
def locked (locked : String → Bool) : Simulation Host.Locked where
  run x w := x locked w
  run_pure _ _ := rfl
  run_bind _ _ _ := rfl
  exists_run_pathExists _ _ := ⟨_, rfl, fun h => (Bool.and_eq_true_iff.1 h).2⟩
  exists_run_readText path w := by
    obtain h | h := guard_apply [path] (Host.readText path) locked w
    · exact ⟨_, h, .failed _⟩
    · exact ⟨_, h, .done rfl⟩
  exists_run_writeText path text w := by
    obtain h | h := guard_apply [path] (Host.writeText path text) locked w
    · exact ⟨_, w.files, h, .failed _⟩
    · obtain ⟨r, u, hrun, hwritten⟩ := direct.exists_run_writeText path text w
      exact ⟨r, u, h.trans hrun, hwritten⟩
  exists_run_createDirs path w := by
    obtain h | h := guard_apply [path] (Host.createDirs path) locked w
    · exact ⟨_, w.files, h, .refused _⟩
    · obtain ⟨r, u, hrun, hmade⟩ := direct.exists_run_createDirs path w
      exact ⟨r, u, h.trans hrun, hmade⟩
  exists_run_rename source target w := by
    obtain h | h := guard_apply [source, target] (Host.rename source target) locked w
    · exact ⟨_, w.files, h, .failed _⟩
    · obtain ⟨r, u, hrun, hmoved⟩ := direct.exists_run_rename source target w
      exact ⟨r, u, h.trans hrun, hmoved⟩
  run_print _ _ := rfl
  exists_run_note topic n _ := ⟨[(topic, n)], rfl⟩

variable {m : Type → Type} [Monad m] [Host m] (R : Simulation m)

theorem noting_nil (w : World) : w.noting [] = w := by
  rw [World.noting, List.append_nil]

/-- The host that drops messages below a level. -/
def quiet (threshold : Level) : Simulation (Host.Quiet m) where
  run x w := R.run (x threshold) w
  run_pure a w := R.run_pure a w
  run_bind x f w := R.run_bind (x threshold) (fun a => f a threshold) w
  exists_run_pathExists path w := R.exists_run_pathExists path w
  exists_run_readText path w := R.exists_run_readText path w
  exists_run_writeText path text w := R.exists_run_writeText path text w
  exists_run_createDirs path w := R.exists_run_createDirs path w
  exists_run_rename source target w := R.exists_run_rename source target w
  run_print text w := R.run_print text w
  exists_run_note topic n w := by
    change ∃ notes, R.run (if threshold.admits n.level then Host.note topic n else pure ()) w = _
    split
    · exact R.exists_run_note topic n w
    · exact ⟨[], by rw [noting_nil, R.run_pure]⟩

/-! ### Looking at files -/

theorem world_pathExists (path : String) (w : World) :
    (R.run (Host.pathExists path) w).2 = w := by
  obtain ⟨found, hrun, -⟩ := R.exists_run_pathExists path w
  rw [hrun]

theorem world_readText (path : String) (w : World) : (R.run (Host.readText path) w).2 = w := by
  obtain ⟨r, hrun, -⟩ := R.exists_run_readText path w
  rw [hrun]

theorem fetched_readText (path : String) (w : World) :
    w.files.Fetched w.home path (R.run (Host.readText path) w).1 := by
  obtain ⟨r, hrun, hfetched⟩ := R.exists_run_readText path w
  rw [hrun]
  exact hfetched

/-- The texts that the host reads in a world, and how it fails to read some. -/
def texts (w : World) (path : String) : Except FileError String := (R.run (Host.readText path) w).1

/-- What the host tells about a path is what stands there: it finds it, and does not fail to read
it. -/
structure Sees (path : String) (w : World) : Prop where
  pathExists : (R.run (Host.pathExists path) w).1 = w.files.pathExists w.home path
  readText : w.files.pathExists w.home path = true →
    (R.run (Host.readText path) w).1 = w.files.readText w.home path

theorem Sees.direct (path : String) (w : World) : Simulation.direct.Sees path w :=
  ⟨rfl, fun _ => rfl⟩

theorem Sees.quiet {R : Simulation m} {path : String} {w : World} (h : R.Sees path w)
    (threshold : Level) :
    (R.quiet threshold).Sees path w := ⟨h.pathExists, h.readText⟩

/-! ### Messages -/

theorem exists_run_pure {α : Type} (a : α) (w : World) :
    ∃ notes, R.run (pure a : m α) w = (a, w.noting notes) :=
  ⟨[], by rw [noting_nil, R.run_pure]⟩

/-- A result that is told. -/
theorem exists_run_tell (topic : Topic) (level : Level) (text : String) {α : Type} (a : α)
    (w : World) : ∃ notes,
      R.run (Host.tell topic level text >>= fun _ => (pure a : m α)) w = (a, w.noting notes) := by
  obtain ⟨notes, hnotes⟩ := R.exists_run_note topic ⟨level, text⟩ w
  exact ⟨notes, by rw [R.run_bind, Host.tell, hnotes, R.run_pure]⟩

theorem exists_run_bind {α β : Type} {x : m α} {a : α} {w : World}
    (hx : ∃ notes, R.run x w = (a, w.noting notes)) (f : α → m β) :
    ∃ notes, R.run (x >>= f) w = R.run (f a) (w.noting notes) := by
  obtain ⟨notes, hnotes⟩ := hx
  exact ⟨notes, by rw [R.run_bind, hnotes]⟩

/-- A program that tells something about each item of a list. -/
theorem exists_run_forM {α : Type} {f : α → m PUnit}
    (hf : ∀ a w, ∃ notes, R.run (f a) w = (⟨⟩, w.noting notes)) (l : List α) (w : World) :
    ∃ notes, R.run (l.forM f) w = (⟨⟩, w.noting notes) := by
  induction l generalizing w with
  | nil => exact R.exists_run_pure ..
  | cons a rest ih =>
    obtain ⟨notes, hnotes⟩ := R.exists_run_bind (hf a w) fun _ => rest.forM f
    obtain ⟨more, hmore⟩ := ih (w.noting notes)
    exact ⟨notes ++ more, hnotes.trans (by rw [hmore, World.noting_noting])⟩

end Simulation

/-! ## Processes

A process does what the action of its command line does, with the messages that are asked for. -/

namespace Command

variable {m : Type → Type} [Monad m] [Host m]

/-- How a process ends when its action has ended. -/
def ending : Except String Unit → Ending
  | .ok () => ⟨0, none⟩
  | .error e => ⟨1, some e⟩

/-- The least level of the messages that are asked for. -/
def threshold (verbose : Bool) : Level := if verbose then .debug else .info

/-- A command line that can be read runs its action at the threshold that it asks for, and ends as
the action ends. -/
theorem run_of_read (R : Simulation m) {configDir : Option String} {args : List String}
    {verbose : Bool} {action : Action} {w u : World} {r : Except String Unit}
    (hread : Arguments.read configDir args = .ok ⟨verbose, action⟩)
    (h : (R.quiet (threshold verbose)).run (perform action) w = (r, u)) :
    R.run (run configDir args) w = (ending r, u) := by
  change R.run ((perform action : Host.Quiet m _) (threshold verbose)) w = (r, u) at h
  rw [threshold] at h
  rw [run, hread]
  dsimp only
  rw [R.run_bind, h]
  cases r with
  | error e => exact R.run_pure ..
  | ok a => exact R.run_pure ..

end Command
end FactoryScript
