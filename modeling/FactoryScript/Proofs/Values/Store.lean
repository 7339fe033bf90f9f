import FactoryScript.Proofs.Host.FileTree
import FactoryScript.Proofs.Host.Simulation
import FactoryScript.Proofs.Json.Pretty
import FactoryScript.Proofs.Json.Written
import FactoryScript.Values.Store

/-!
# The store of common values is all or nothing

Loading is a function of what stands at the path of the store (`ValueStore.loaded`). Saving can stop
at each of its three steps, and `ValueStore.Outcome` says what the files are then. Only the last
step touches the store itself, and it puts a whole document there, which is read as what was saved.
-/

namespace FactoryScript

/-! ## Documents -/

namespace CommonValues

theorem readList_listJson (l : List String) :
    Json.readList Json.readText (listJson l) = .ok l := by
  have htext : ∀ s, Json.readText (.string s) = .ok s := fun _ => rfl
  exact Json.readList_map htext l

/-- The five lists are read back as they were written. -/
theorem read_toJson (v : CommonValues) : read v.toJson = .ok v := by
  have hwritten : fields.Written [("Labels", listJson v.labels), ("ItemIds", listJson v.items),
      ("FluidIds", listJson v.fluids), ("EnergyIds", listJson v.energies),
      ("GasIds", listJson v.gases)] v :=
    Fields.Written.done CommonValues.mk
      |>.given (readList_listJson v.labels)
      |>.given (readList_listJson v.items)
      |>.given (readList_listJson v.fluids)
      |>.given (readList_listJson v.energies)
      |>.given (readList_listJson v.gases)
  exact hwritten.ofMembers (by decide)

theorem plain_toJson (v : CommonValues) : v.toJson.Plain := by
  have hlist (l : List String) : (listJson l).Plain :=
    Json.plainItems_iff.2 (List.forall_mem_map.2 fun _ _ => trivial)
  exact ⟨hlist _, hlist _, hlist _, hlist _, hlist _, trivial⟩

/-- The text of the store is read as the values that were written, whatever their characters. -/
theorem ofText_pretty (v : CommonValues) : read.ofText v.pretty = .ok v := by
  rw [pretty, v.plain_toJson.ofText_pretty_eq, read_toJson]

end CommonValues

theorem fromUTF8?_toUTF8 (s : String) : String.fromUTF8? s.toUTF8 = some s := by
  rw [String.fromUTF8?, String.toUTF8_eq_toByteArray, dif_pos s.isValidUTF8]
  rfl

namespace ValueStore
open FileTree

variable {m : Type → Type} [Monad m] [Host m] {dir : String} {w : World} {v : CommonValues}

theorem isName_fileName : IsName fileName := ⟨by decide, by decide, by decide, by decide⟩

theorem isName_temporary : IsName (fileName ++ ".tmp") :=
  ⟨by decide, by decide, by decide, by decide⟩

theorem path_inDir (dir : String) : (inDir dir).path = Path.join dir fileName := rfl

theorem temporary_inDir (dir : String) :
    (inDir dir).temporary = Path.join dir (fileName ++ ".tmp") :=
  Path.join_append dir fileName ".tmp"

/-! ## Loading -/

/-- What loading makes of what the host tells about the path of the store. -/
def loadedFrom (s : ValueStore) :
    Bool → Except FileError String → Except StoreError CommonValues
  | false, _ => .ok .empty
  | true, .error cause => .error (.unreadable s.path cause)
  | true, .ok text =>
    match CommonValues.read.ofText text with
    | .error fault => .error (.invalid s.path fault)
    | .ok values => .ok values

/-- What loading makes of what stands at the path of the store. -/
def loaded (s : ValueStore) : Except FileError (Option Entry) → Except StoreError CommonValues
  | .ok (some .directory) => .error (.unreadable s.path .isDirectory)
  | .ok (some (.file bytes)) =>
    match String.fromUTF8? bytes with
    | none => .error (.unreadable s.path .notText)
    | some text =>
      match CommonValues.read.ofText text with
      | .error fault => .error (.invalid s.path fault)
      | .ok values => .ok values
  | _ => .ok .empty

/-- What stands at the path of the store. -/
def stored (dir : String) (w : World) : Except FileError (Option Entry) :=
  w.files.view w.home dir fileName

theorem pathExists_inDir (dir : String) (w : World) :
    w.files.pathExists w.home (inDir dir).path =
      match stored dir w with
      | .ok (some _) => true
      | _ => false := pathExists_join isName_fileName

theorem pathExists_inDir_iff (dir : String) (w : World) :
    w.files.pathExists w.home (inDir dir).path = true ↔ ∃ e, stored dir w = .ok (some e) := by
  rw [pathExists_inDir]
  rcases stored dir w with _ | _ | e
  · exact ⟨nofun, nofun⟩
  · exact ⟨nofun, nofun⟩
  · exact ⟨fun _ => ⟨e, rfl⟩, fun _ => rfl⟩

theorem loaded_of_missing {s : ValueStore} {found : Except FileError (Option Entry)}
    (h : ∀ e, found ≠ .ok (some e)) : s.loaded found = .ok .empty := by
  rcases found with _ | _ | e
  · rfl
  · rfl
  · exact absurd rfl (h e)

/-- What is read from the store is what stands there, as a text. -/
theorem readText_inDir (dir : String) (w : World) :
    w.files.readText w.home (inDir dir).path =
      (stored dir w).bind fun e => (bytesOf e).bind fun bytes =>
        match String.fromUTF8? bytes with
        | some text => .ok text
        | none => .error .notText := by
  rw [readText, path_inDir, readBytes_join isName_fileName, stored]
  cases w.files.view w.home dir fileName <;> rfl

/-- The store is missing, or it can be read and decoded. -/
def Sound (dir : String) (w : World) : Prop :=
  w.files.pathExists w.home (inDir dir).path = true →
    ∃ text v, w.files.readText w.home (inDir dir).path = .ok text ∧
      CommonValues.read.ofText text = .ok v

/-- The store is sound exactly if what stands there can be loaded. -/
theorem sound_iff : Sound dir w ↔ ∃ v, (inDir dir).loaded (stored dir w) = .ok v := by
  rw [Sound, readText_inDir, pathExists_inDir]
  rcases stored dir w with e | _ | _ | bytes
  · exact ⟨fun _ => ⟨_, rfl⟩, nofun⟩
  · exact ⟨fun _ => ⟨_, rfl⟩, nofun⟩
  · simp [Except.bind, bytesOf, loaded]
  · simp only [Except.bind, bytesOf, loaded]
    cases String.fromUTF8? bytes with
    | none => simp
    | some text => cases hread : CommonValues.read.ofText text <;> simp [hread]

/-- Loading asks the host for the text at the path of the store, and leaves the world as it is but
for messages. -/
theorem exists_run_tryLoad (R : Simulation m) (s : ValueStore) (w : World) :
    ∃ notes, R.run s.tryLoad w =
      (s.loadedFrom (R.run (Host.pathExists s.path) w).1 (R.run (Host.readText s.path) w).1,
        w.noting notes) := by
  rw [tryLoad, R.run_bind, R.world_pathExists]
  cases (R.run (Host.pathExists s.path) w).1 with
  | false => exact R.exists_run_tell ..
  | true =>
    rw [Bool.not_true, if_neg Bool.false_ne_true, R.run_bind, R.world_readText]
    cases (R.run (Host.readText s.path) w).1 with
    | error cause => exact R.exists_run_pure ..
    | ok text =>
      dsimp only [loadedFrom]
      cases CommonValues.read.ofText text with
      | error fault => exact R.exists_run_pure ..
      | ok values => exact R.exists_run_tell ..

theorem run_tryLoad (R : Simulation m) (s : ValueStore) (w : World) :
    (R.run s.tryLoad w).1 =
      s.loadedFrom (R.run (Host.pathExists s.path) w).1 (R.run (Host.readText s.path) w).1 := by
  obtain ⟨notes, hnotes⟩ := exists_run_tryLoad R s w
  rw [hnotes]

/-- Where the host sees the store, what is loaded is what stands there. -/
theorem run_tryLoad_of_sees {R : Simulation m} (h : R.Sees (inDir dir).path w) :
    (R.run (inDir dir).tryLoad w).1 = (inDir dir).loaded (stored dir w) := by
  rw [run_tryLoad, h.pathExists]
  cases hexists : w.files.pathExists w.home (inDir dir).path with
  | false =>
    rw [← Bool.not_eq_true, pathExists_inDir_iff, not_exists] at hexists
    exact (loaded_of_missing hexists).symm
  | true =>
    rw [h.readText hexists, readText_inDir]
    rw [pathExists_inDir_iff] at hexists
    obtain ⟨e, he⟩ := hexists
    rw [he]
    cases e with
    | directory => rfl
    | file bytes =>
      simp only [loadedFrom, loaded, Except.bind, bytesOf]
      cases String.fromUTF8? bytes <;> rfl

/-! ## Saving -/

/-- How the first step of saving can end, and what the files are then. -/
inductive Prepared (s : ValueStore) (t : FileTree) (home : Place) :
    Except FileError Unit → FileTree → Prop
  | ready : Prepared s t home (.ok ()) t
  | made {r : Except FileError Unit} {u : FileTree} (hdir : s.dir ≠ "")
    (h : t.Made home s.dir r u) : Prepared s t home r u

/-- Before the lists are saved directories are made if need be, and nothing else is done. -/
theorem exists_run_prepare (R : Simulation m) (s : ValueStore) (w : World) :
    ∃ r u, R.run s.prepare w = (r, w.withFiles u) ∧ s.Prepared w.files w.home r u := by
  rw [prepare]
  split <;> rename_i hdir
  · exact ⟨_, w.files, R.run_pure .., .ready⟩
  · rw [R.run_bind, R.world_pathExists]
    split
    · exact ⟨_, w.files, R.run_pure .., .ready⟩
    · obtain ⟨r, u, hrun, hmade⟩ := R.exists_run_createDirs s.dir w
      exact ⟨r, u, hrun, .made hdir hmade⟩

/-- How saving can end, and what the files are then. -/
inductive Outcome (s : ValueStore) (v : CommonValues) (t : FileTree) (home : Place) :
    Except StoreError Unit → FileTree → Prop
  | blocked {u : FileTree} {e : FileError} (hprepare : s.Prepared t home (.error e) u) :
    Outcome s v t home (.error (.unwritable s.dir e)) u
  | unwritten {u x : FileTree} {e : FileError} (hprepare : s.Prepared t home (.ok ()) u)
    (hwrite : u.Written home s.temporary v.pretty (.error e) x) :
    Outcome s v t home (.error (.unwritable s.temporary e)) x
  | unmoved {u x y : FileTree} {e : FileError} (hprepare : s.Prepared t home (.ok ()) u)
    (hwrite : u.Written home s.temporary v.pretty (.ok ()) x)
    (hrename : x.Moved home s.temporary s.path (.error e) y) :
    Outcome s v t home (.error (.unwritable s.path e)) y
  | saved {u x y : FileTree} (hprepare : s.Prepared t home (.ok ()) u)
    (hwrite : u.Written home s.temporary v.pretty (.ok ()) x)
    (hrename : x.Moved home s.temporary s.path (.ok ()) y) :
    Outcome s v t home (.ok ()) y

/-- Saving ends in one of the listed outcomes, whichever operation of the host fails. -/
theorem exists_run_trySave (R : Simulation m) (s : ValueStore) (v : CommonValues) (w : World) :
    ∃ r u notes, R.run (s.trySave v) w = (r, (w.withFiles u).noting notes) ∧
      s.Outcome v w.files w.home r u := by
  have hdone {x : m (Except StoreError Unit)} {r : Except StoreError Unit} {u : FileTree}
      (hx : ∃ notes, R.run x (w.withFiles u) = (r, (w.withFiles u).noting notes))
      (houtcome : s.Outcome v w.files w.home r u) :
      ∃ r u' notes, R.run x (w.withFiles u) = (r, (w.withFiles u').noting notes) ∧
        s.Outcome v w.files w.home r u' := by
    obtain ⟨notes, hnotes⟩ := hx
    exact ⟨r, u, notes, hnotes, houtcome⟩
  obtain ⟨r, u, hrun, hprepare⟩ := exists_run_prepare R s w
  rw [trySave, R.run_bind, hrun]
  cases r with
  | error e => exact hdone (R.exists_run_pure ..) (.blocked hprepare)
  | ok a =>
    obtain ⟨r, x, hrun, hwrite⟩ :=
      R.exists_run_writeText s.temporary v.pretty (w.withFiles u)
    rw [World.withFiles_withFiles] at hrun
    dsimp only
    rw [R.run_bind, hrun]
    cases r with
    | error e => exact hdone (R.exists_run_pure ..) (.unwritten hprepare hwrite)
    | ok a =>
      obtain ⟨r, y, hrun, hrename⟩ := R.exists_run_rename s.temporary s.path (w.withFiles x)
      rw [World.withFiles_withFiles] at hrun
      dsimp only
      rw [R.run_bind, hrun]
      cases r with
      | error e => exact hdone (R.exists_run_pure ..) (.unmoved hprepare hwrite hrename)
      | ok a => exact hdone (R.exists_run_tell ..) (.saved hprepare hwrite hrename)

/-- Every file-system call that saving the lists makes succeeds. -/
structure Unhindered (R : Simulation m) (s : ValueStore) (v : CommonValues) (w : World) : Prop where
  createDirs : s.dir ≠ "" → (R.run (Host.pathExists s.dir) w).1 = false →
    (R.run (Host.createDirs s.dir) w).1 = .ok ()
  writeText : (R.run (Host.writeText s.temporary v.pretty) (R.run s.prepare w).2).1 = .ok ()
  rename : (R.run (Host.rename s.temporary s.path)
    (R.run (Host.writeText s.temporary v.pretty) (R.run s.prepare w).2).2).1 = .ok ()

/-- An unhindered host makes the directories. -/
theorem Unhindered.run_prepare {R : Simulation m} {s : ValueStore} (h : s.Unhindered R v w) :
    (R.run s.prepare w).1 = .ok () := by
  rw [prepare]
  split <;> rename_i hdir
  · rw [R.run_pure]
  · rw [R.run_bind, R.world_pathExists]
    cases hexists : (R.run (Host.pathExists s.dir) w).1 with
    | true => rw [if_pos rfl, R.run_pure]
    | false => exact h.createDirs hdir hexists

/-- An unhindered host saves the lists. -/
theorem Unhindered.run_trySave {R : Simulation m} {s : ValueStore} (h : s.Unhindered R v w) :
    (R.run (s.trySave v) w).1 = .ok () := by
  rw [trySave, R.run_bind, h.run_prepare]
  dsimp only
  rw [R.run_bind, h.writeText]
  dsimp only
  rw [R.run_bind, h.rename]
  dsimp only
  rw [R.run_bind, R.run_pure]

section
variable {t u x : FileTree} {home : Place}

/-- The directories that are made lie on the way to the store, if the way is clear. -/
theorem Prepared.grown {r : Except FileError Unit} (h : (inDir dir).Prepared t home r u)
    (ht : t.Rooted) (hhome : t.entry? home = some .directory) (hclear : t.ClearWay home dir) :
    Grown t u (follow (base home dir) (way dir)) := by
  cases h with
  | ready => exact .refl t _
  | made hdir h =>
    have hgrown {part : String} (hpart : Path.pieces part <+: Path.pieces (inDir dir).dir) :
        Grown t (t.createDirs home part).1 (follow (base home dir) (way dir)) :=
      grown_createDirs hclear ht hhome isName_fileName.slash hdir hpart
    cases h with
    | done h =>
      have hall := hgrown (List.prefix_refl _)
      rwa [h] at hall
    | refused e => exact .refl t _
    | failed e hpart => exact hgrown hpart

/-- Whatever becomes of the temporary file, nothing changes of the store. -/
theorem view_of_written {r : Except FileError Unit}
    (h : u.Written home (inDir dir).temporary v.pretty r x) :
    x.view home dir fileName = u.view home dir fileName := by
  have hkept {bytes : ByteArray}
      (h : u.writeBytes home (inDir dir).temporary bytes = .ok x) :
      x.view home dir fileName = u.view home dir fileName := by
    rw [temporary_inDir] at h
    obtain ⟨-, p, e, hp, he, hdirectory, rfl⟩ := writeBytes_join_eq_ok isName_temporary h
    rw [← (lookUp_eq_ok_iff.1 he).2] at hdirectory
    exact view_put_of_ne hp hdirectory (by decide)
  cases h with
  | done h => exact hkept h
  | failed e => rfl
  | torn e h => exact hkept h

/-- Where saving ends with an error, the store is as it was. -/
theorem Outcome.alike {e : StoreError} (h : (inDir dir).Outcome v t home (.error e) u)
    (ht : t.Rooted) (hhome : t.entry? home = some .directory) (hclear : t.ClearWay home dir) :
    Alike (u.view home dir fileName) (t.view home dir fileName) := by
  cases h with
  | blocked hprepare => exact (hprepare.grown ht hhome hclear).alike ht hclear
  | unwritten hprepare hwrite =>
    rw [view_of_written hwrite]
    exact (hprepare.grown ht hhome hclear).alike ht hclear
  | unmoved hprepare hwrite hrename =>
    cases hrename
    rw [view_of_written hwrite]
    exact (hprepare.grown ht hhome hclear).alike ht hclear

/-- Where saving ends without an error, the store is the document of the lists. -/
theorem Outcome.view_eq (h : (inDir dir).Outcome v t home (.ok ()) u) :
    u.view home dir fileName = .ok (some (.file v.pretty.toUTF8)) := by
  cases h with
  | saved _ hwrite hrename =>
    obtain ⟨hwrite⟩ := hwrite
    obtain ⟨hrename⟩ := hrename
    rw [temporary_inDir] at hwrite hrename
    obtain ⟨-, p, e, hp, he, hdirectory, rfl⟩ := writeBytes_join_eq_ok isName_temporary hwrite
    obtain ⟨hpath, q, bytes, e', hq, hbytes, he', hdirectory', rfl⟩ :=
      rename_join_eq_ok isName_temporary isName_fileName hrename
    rw [← (lookUp_eq_ok_iff.1 he).2] at hdirectory
    obtain rfl : q = p := by rw [hq.eq_follow, hp.eq_follow]
    have hplace : q ++ [fileName] ≠ q ++ [fileName ++ ".tmp"] := by
      rw [ne_eq, List.append_cancel_left_eq]
      decide
    -- what is moved is what was written just before
    have hfile := (lookUp_eq_ok_iff.1 hbytes).2
    have hwritten := hfile
    rw [entry?_put_self (by simp)] at hwritten
    obtain rfl : v.pretty.toUTF8 = bytes := Entry.file.inj (Option.some.inj hwritten)
    obtain ⟨hlength, hentry⟩ := lookUp_eq_ok_iff.1 he'
    rw [← entry?_erase_of_ne hplace] at hentry
    have herase : KeepsDirectories _ _ := .erase (by rw [hfile]; exact nofun)
    exact view_put_self hpath (hq.mono herase) (lookUp_eq_ok_iff.2 ⟨hlength, hentry⟩) hdirectory'

end

theorem stored_of_run_trySave {R : Simulation m}
    (h : (R.run ((inDir dir).trySave v) w).1 = .ok ()) :
    stored dir (R.run ((inDir dir).trySave v) w).2 = .ok (some (.file v.pretty.toUTF8)) := by
  obtain ⟨r, u, notes, hrun, houtcome⟩ := exists_run_trySave R (inDir dir) v w
  rw [hrun] at h ⊢
  obtain rfl : r = .ok () := h
  exact houtcome.view_eq

theorem loaded_eq_of_alike {s : ValueStore} {found found' : Except FileError (Option Entry)}
    (h : Alike found found') : s.loaded found = s.loaded found' := by
  rcases h with rfl | ⟨hmissing, hmissing'⟩
  · rfl
  · rw [loaded_of_missing hmissing, loaded_of_missing hmissing']

/-- The document of the lists is loaded as the lists. -/
theorem loaded_pretty (s : ValueStore) (v : CommonValues) :
    s.loaded (.ok (some (.file v.pretty.toUTF8))) = .ok v := by
  simp only [loaded, fromUTF8?_toUTF8, v.ofText_pretty]

theorem exists_run_save (R : Simulation m) (s : ValueStore) (v : CommonValues) (w : World) :
    ∃ notes, R.run (s.save v) w = ((), (R.run (s.trySave v) w).2.noting notes) := by
  rw [save, R.run_bind]
  cases (R.run (s.trySave v) w).1 with
  | ok a => exact R.exists_run_pure ..
  | error e => exact R.exists_run_note ..

end ValueStore

/-- A world as it can be: every entry stands in a directory, and paths start in one. -/
structure World.Rooted (w : World) : Prop where
  files : w.files.Rooted
  home : w.files.entry? w.home = some .directory

namespace ValueStore
open FileTree

variable {m : Type → Type} [Monad m] [Host m]

/-- Saving either succeeds, and then the store is the document of the lists, or it fails, and then
the store is as it was before; the latter provided that no step back comes after a missing name on
the way to the directory of the store. So where the host sees the store, exactly the saved lists are
loaded, or what would have been loaded before. Saving succeeds if no file-system call fails. Saving
without a result does the same. -/
theorem trySave_allOrNothing (R : Simulation m) (w : World) (dir : String) (v : CommonValues) :
    let s := inDir dir
    let after := (R.run (s.trySave v) w).2
    ((R.run (s.trySave v) w).1 = .ok () ∧
        stored dir after = .ok (some (.file v.pretty.toUTF8)) ∧
        (R.Sees s.path after → (R.run s.tryLoad after).1 = .ok v) ∨
      (∃ e, (R.run (s.trySave v) w).1 = .error e) ∧
        (w.Rooted → w.files.ClearWay w.home dir →
          Alike (stored dir after) (stored dir w) ∧
          (R.Sees s.path w → R.Sees s.path after →
            (R.run s.tryLoad after).1 = (R.run s.tryLoad w).1))) ∧
    (s.Unhindered R v w → (R.run (s.trySave v) w).1 = .ok ()) ∧
    ∃ notes, R.run (s.save v) w = ((), after.noting notes) := by
  intro s after
  refine ⟨?_, Unhindered.run_trySave, exists_run_save R s v w⟩
  obtain ⟨r, u, notes, hrun, houtcome⟩ := exists_run_trySave R s v w
  have hresult : (R.run (s.trySave v) w).1 = r := congrArg Prod.fst hrun
  have hafter : after = (w.withFiles u).noting notes := congrArg Prod.snd hrun
  have hstored : stored dir after = u.view w.home dir fileName := by
    rw [hafter]
    rfl
  rw [hresult]
  cases r with
  | ok a =>
    left
    have hdocument : stored dir after = .ok (some (.file v.pretty.toUTF8)) :=
      hstored.trans houtcome.view_eq
    refine ⟨rfl, hdocument, fun hsees => ?_⟩
    rw [run_tryLoad_of_sees hsees, hdocument, loaded_pretty]
  | error e =>
    right
    refine ⟨⟨e, rfl⟩, fun hw hclear => ?_⟩
    have halike : Alike (stored dir after) (stored dir w) :=
      hstored ▸ houtcome.alike hw.files hw.home hclear
    refine ⟨halike, fun hsees hsees' => ?_⟩
    rw [run_tryLoad_of_sees hsees', run_tryLoad_of_sees hsees, loaded_eq_of_alike halike]

/-- A directory stands where the temporary file should go. -/
def obstructed : World :=
  { World.initial with
    files := (World.initial.files.put ["home", fileName] (.file "[]".toUTF8)).put
      ["home", fileName ++ ".tmp"] .directory }

theorem obstructed_rooted : obstructed.Rooted := by
  have hinitial : World.initial.files.Rooted := rooted_empty.put (p := []) rfl fun _ => rfl
  have hstore : (World.initial.files.put ["home", fileName] (.file "[]".toUTF8)).Rooted :=
    hinitial.put (p := ["home"]) rfl nofun
  exact ⟨hstore.put (p := ["home"]) rfl fun _ => rfl, rfl⟩

/-- The second step of saving fails, and the store is read as before; where nothing is in the way,
saving succeeds. -/
theorem trySave_obstructed :
    let after := (((inDir "").trySave .empty : StateM World _) obstructed).2
    (((inDir "").trySave .empty : StateM World _) obstructed).1 =
        .error (.unwritable (inDir "").temporary .isDirectory) ∧
      (((inDir "").tryLoad : StateM World _) after).1 =
        (((inDir "").tryLoad : StateM World _) obstructed).1 ∧
      (((inDir "").trySave .empty : StateM World _) World.initial).1 = .ok () := by
  have hfails : (((inDir "").trySave .empty : StateM World _) obstructed).1 =
      .error (.unwritable (inDir "").temporary .isDirectory) := rfl
  have hclear : obstructed.files.ClearWay obstructed.home "" := by
    intro before after hway _
    obtain ⟨-, rfl⟩ := List.append_eq_nil_iff.1 hway.symm
    exact List.not_mem_nil
  have hfree : (inDir "").Unhindered .direct .empty World.initial := ⟨fun _ _ => rfl, rfl, rfl⟩
  have hsaved := (trySave_allOrNothing .direct World.initial "" .empty).2.1 hfree
  rcases (trySave_allOrNothing .direct obstructed "" .empty).1 with ⟨hsucceeds, -⟩ | ⟨-, hkept⟩
  · have hok := hfails.symm.trans hsucceeds
    cases hok
  · have hloaded := (hkept obstructed_rooted hclear).2
    exact ⟨hfails, hloaded (.direct ..) (.direct ..), hsaved⟩

/-- The way leads back after a name that is missing at first. -/
def backwards : ValueStore := inDir "common_values.json/.."

/-- The directory that is made on the way can be the store itself. -/
theorem trySave_backwards :
    let after := ((backwards.trySave .empty : StateM World _) World.initial).2
    (∃ e, ((backwards.trySave .empty : StateM World _) World.initial).1 = .error e) ∧
      ((backwards.tryLoad : StateM World _) after).1 ≠
        ((backwards.tryLoad : StateM World _) World.initial).1 := by
  have hbefore : ((backwards.tryLoad : StateM World _) World.initial).1 = .ok .empty := rfl
  have hafter : ((backwards.tryLoad : StateM World _)
      ((backwards.trySave .empty : StateM World _) World.initial).2).1 =
        .error (.unreadable backwards.path .isDirectory) := rfl
  refine ⟨⟨.unwritable backwards.path .isDirectory, rfl⟩, ?_⟩
  rw [hbefore, hafter]
  exact nofun

end ValueStore
end FactoryScript
