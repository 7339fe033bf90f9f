import FactoryScript.Host.FileTree
import FactoryScript.Proofs.Run
import FactoryScript.Proofs.Host.Path
import Mathlib.Data.List.Induction

/-!
# Trees of files under operations

What a path leads to is said by `FileTree.view`, and reading at the path is a function of that. An
operation is said by the entries it changes: a file is put at one place, a renamed one leaves a
place and gets to another, and new directories stand on the way to the directory they were made for
(`FileTree.Grown`). Directories are never lost by these, so a walk that leads to a place still does.
-/

namespace FactoryScript.FileTree

variable {t u : FileTree} {p q start : Place} {name : String} {names : List String}

/-! ## Entries -/

/-- Taking one place out of a list of entries leaves what stands at every other place. -/
theorem lookup_filter_ne (h : q ≠ p) (entries : List (Place × Entry)) :
    (entries.filter fun e => e.1 != p).lookup q = entries.lookup q := by
  induction entries with
  | nil => rfl
  | cons e rest ih =>
    obtain ⟨place, entry⟩ := e
    by_cases hp : place = p
    · have hq : (q == place) = false := beq_false_of_ne (hp ▸ h)
      rw [List.filter_cons_of_neg (by simp [hp]), ih, List.lookup_cons, hq]
    · rw [List.filter_cons_of_pos (by simp [hp]), List.lookup_cons, List.lookup_cons, ih]

theorem entry?_erase_of_ne (h : q ≠ p) : entry? (t.erase p) q = t.entry? q := by
  rw [ entry?, entry?, erase, lookup_filter_ne h]

theorem entry?_put_self {e : Entry} (h : p ≠ []) : entry? (t.put p e) p = some e := by
  rw [ entry?, if_neg h, put, List.lookup_cons_self]

theorem entry?_put_of_ne {e : Entry} (h : q ≠ p) : entry? (t.put p e) q = t.entry? q := by
  have hq : (q == p) = false := beq_false_of_ne h
  rw [ entry?, entry?, put, List.lookup_cons, hq, erase, lookup_filter_ne h]

/-- Every entry stands in a directory. -/
def Rooted (t : FileTree) : Prop :=
  ∀ p name, t.entry? (p ++ [name]) ≠ none → t.entry? p = some .directory

/-- In a rooted tree every place on the way to something that stands is a directory. -/
theorem Rooted.of_prefix (ht : t.Rooted) (h : t.entry? q ≠ none) (hp : p <+: q) (hne : p ≠ q) :
    t.entry? p = some .directory := by
  induction q using List.reverseRecOn with
  | nil => exact absurd (List.prefix_nil.1 hp) hne
  | append_singleton q name ih =>
    have hq := ht q name h
    rcases List.prefix_concat_iff.1 hp with rfl | hp
    · exact absurd rfl hne
    · by_cases heq : p = q
      · rw [heq]
        exact hq
      · exact ih (by rw [hq]; exact Option.some_ne_none _) hp heq

/-- The parent of a directory is a directory; the top is its own parent. -/
theorem Rooted.dropLast (ht : t.Rooted) (h : t.entry? p = some .directory) :
    t.entry? p.dropLast = some .directory := by
  rcases List.eq_nil_or_concat p with rfl | ⟨q, name, rfl⟩
  · rfl
  · rw [List.concat_eq_append, List.dropLast_concat]
    refine ht q name ?_
    rw [← List.concat_eq_append, h]
    exact Option.some_ne_none _

theorem rooted_empty : empty.Rooted := by
  intro p name h
  rw [ entry?, if_neg (by simp)] at h
  exact absurd rfl h

/-- A new entry goes into a directory, and is no file where there was a directory. -/
theorem Rooted.put {e : Entry} (ht : t.Rooted) (hp : t.entry? p = some .directory)
    (he : t.entry? (p ++ [name]) = some .directory → e = .directory) :
    (t.put (p ++ [name]) e).Rooted := by
  intro q name' h
  by_cases hq : q = p ++ [name]
  · -- the new entry is the directory of one that was there before
    subst hq
    have hne : p ++ [name] ++ [name'] ≠ p ++ [name] := by simp
    rw [entry?_put_of_ne hne] at h
    rw [entry?_put_self (by simp), he (ht _ _ h)]
  · rw [entry?_put_of_ne hq]
    by_cases hplace : q ++ [name'] = p ++ [name]
    · obtain ⟨rfl, -⟩ := List.append_inj' hplace rfl
      exact hp
    · rw [entry?_put_of_ne hplace] at h
      exact ht q name' h

/-! ## Walks -/

/-- The place to which names lead if nothing is in the way. -/
def follow (start : Place) : List String → Place
  | [] => start
  | name :: rest =>
    if name = "." then follow start rest
    else if name = ".." then follow start.dropLast rest
    else follow (start ++ [name]) rest

theorem follow_append (start : Place) (before after : List String) :
    follow start (before ++ after) = follow (follow start before) after := by
  induction before generalizing start with
  | nil => rfl
  | cons name rest ih =>
    rw [List.cons_append, follow, follow]
    split_ifs <;> exact ih _

/-- Names that do not lead back lead deeper. -/
theorem prefix_follow (h : ".." ∉ names) (start : Place) : start <+: follow start names := by
  induction names generalizing start with
  | nil => exact List.prefix_refl start
  | cons name rest ih =>
    obtain ⟨hname, hrest⟩ := List.ne_and_not_mem_of_not_mem_cons h
    rw [follow, if_neg hname.symm]
    split_ifs
    · exact ih hrest start
    · exact (List.prefix_append start [name]).trans (ih hrest _)

theorem lookUp_eq_ok_iff {e : Option Entry} : t.lookUp p = .ok e ↔
    (p.getLast?.getD "").utf8ByteSize ≤ maxName ∧ t.entry? p = e := by
  rw [lookUp]
  split_ifs with h
  · exact ⟨nofun, fun hle => absurd hle.1 (Nat.not_le.2 h)⟩
  · rw [Except.ok.injEq]
    exact ⟨fun he => ⟨Nat.not_lt.1 h, he⟩, And.right⟩

/-- A walk that arrives: every name on it leads to a directory. -/
inductive Leads (t : FileTree) : Place → List String → Place → Prop
  | arrived (p : Place) : Leads t p [] p
  | stay {p q : Place} {rest : List String} (h : Leads t p rest q) : Leads t p ("." :: rest) q
  | back {p q : Place} {rest : List String} (h : Leads t p.dropLast rest q) :
    Leads t p (".." :: rest) q
  | enter {p q : Place} {name : String} {rest : List String} (hdot : name ≠ ".")
    (hdots : name ≠ "..") (hentry : t.lookUp (p ++ [name]) = .ok (some .directory))
    (h : Leads t (p ++ [name]) rest q) : Leads t p (name :: rest) q

/-- A walk succeeds exactly along names that lead from directory to directory. -/
theorem walk_eq_ok_iff : t.walk p names = .ok q ↔ t.Leads p names q := by
  constructor
  · intro h
    induction names generalizing p with
    | nil =>
      cases h
      exact .arrived _
    | cons name rest ih =>
      rw [walk] at h
      split_ifs at h with hdot hdots
      · subst hdot
        exact .stay (ih h)
      · subst hdots
        exact .back (ih h)
      · split at h
        · cases h
        · rename_i hentry
          exact .enter hdot hdots hentry (ih h)
        · cases h
        · cases h
  · intro h
    induction h with
    | arrived p => rfl
    | stay _ ih => rw [walk, if_pos rfl, ih]
    | back _ ih => rw [walk, if_neg (by decide), if_pos rfl, ih]
    | enter hdot hdots hentry _ ih =>
      rw [walk, if_neg hdot, if_neg hdots, hentry]
      exact ih

/-- A walk along two lists of names is the walk along the first and then along the second. -/
theorem walk_append (t : FileTree) (p : Place) (before after : List String) :
    t.walk p (before ++ after) = (t.walk p before).bind fun q => t.walk q after := by
  induction before generalizing p with
  | nil => rfl
  | cons name rest ih =>
    rw [List.cons_append, walk, walk]
    split_ifs
    · exact ih p
    · exact ih p.dropLast
    · rcases t.lookUp (p ++ [name]) with e | _ | _ | bytes
      · rfl
      · rfl
      · exact ih (p ++ [name])
      · rfl

theorem lookUp_ne_notFound : t.lookUp p ≠ .error .notFound := by
  rw [lookUp]
  split_ifs <;> exact nofun

/-- A walk that misses something leads to directories up to a name that is not there. -/
theorem exists_missing_of_walk (h : t.walk p names = .error .notFound) :
    ∃ before name after q, names = before ++ name :: after ∧ t.Leads p before q ∧
      name ≠ "." ∧ name ≠ ".." ∧ t.lookUp (q ++ [name]) = .ok none := by
  induction names generalizing p with
  | nil => cases h
  | cons name rest ih =>
    rw [walk] at h
    split_ifs at h with hdot hdots
    · obtain ⟨before, last, after, q, rfl, hq, hlast⟩ := ih h
      exact ⟨"." :: before, last, after, q, hdot ▸ rfl, .stay hq, hlast⟩
    · obtain ⟨before, last, after, q, rfl, hq, hlast⟩ := ih h
      exact ⟨".." :: before, last, after, q, hdots ▸ rfl, .back hq, hlast⟩
    · split at h
      · rename_i hfound
        rw [Except.error.inj h] at hfound
        exact absurd hfound lookUp_ne_notFound
      · rename_i hfound
        obtain ⟨before, last, after, q, rfl, hq, hlast⟩ := ih h
        exact ⟨name :: before, last, after, q, rfl, .enter hdot hdots hfound hq, hlast⟩
      · cases h
      · rename_i hfound
        exact ⟨[], name, rest, p, rfl, .arrived p, hdot, hdots, hfound⟩

/-- Every directory of the first tree is one of the second. -/
def KeepsDirectories (t u : FileTree) : Prop :=
  ∀ p, t.entry? p = some .directory → u.entry? p = some .directory

namespace Leads

theorem eq_follow (h : t.Leads p names q) : q = follow p names := by
  induction h with
  | arrived p => rfl
  | stay _ ih => rw [follow, if_pos rfl, ih]
  | back _ ih => rw [follow, if_neg (by decide), if_pos rfl, ih]
  | enter hdot hdots _ _ ih => rw [follow, if_neg hdot, if_neg hdots, ih]

/-- A tree that keeps all directories of another one can be walked wherever that one can. -/
theorem mono (hkeeps : KeepsDirectories t u) (h : t.Leads p names q) : u.Leads p names q := by
  induction h with
  | arrived p => exact .arrived p
  | stay _ ih => exact .stay ih
  | back _ ih => exact .back ih
  | enter hdot hdots hentry _ ih =>
    obtain ⟨hlength, hdirectory⟩ := lookUp_eq_ok_iff.1 hentry
    exact .enter hdot hdots (lookUp_eq_ok_iff.2 ⟨hlength, hkeeps _ hdirectory⟩) ih

/-- In a rooted tree a walk never leaves the directories. -/
theorem isDirectory (ht : t.Rooted) (h : t.Leads p names q) (hp : t.entry? p = some .directory) :
    t.entry? q = some .directory := by
  induction h with
  | arrived p => exact hp
  | stay _ ih => exact ih hp
  | back _ ih => exact ih (ht.dropLast hp)
  | enter _ _ hentry _ ih => exact ih (lookUp_eq_ok_iff.1 hentry).2

end Leads

/-! ## Paths into a directory -/

/-- A name that a path can end in, and that is not taken for a direction. -/
structure IsName (name : String) : Prop where
  slash : '/' ∉ name.toList
  ne_empty : name ≠ ""
  ne_dot : name ≠ "."
  ne_dots : name ≠ ".."

/-- Where paths into a directory start. -/
def base (home : Place) (dir : String) : Place :=
  if (Path.lead dir).head? = some "" then [] else home

/-- The names on the way to a directory. -/
def way (dir : String) : List String := (Path.lead dir).filter (· ≠ "")

variable {home : Place} {dir : String}

/-- A file in a directory is located by one check of the whole path and one walk along the
directory's own names. -/
theorem locate_join (hname : IsName name) : t.locate home (Path.join dir name) =
    (checkPath (Path.join dir name)).bind fun _ =>
      (t.walk (base home dir) (way dir)).map fun p => ⟨p ++ [name], false⟩ := by
  have hpieces := Path.pieces_join hname.slash dir
  have hstart : ((Path.lead dir ++ [name]).head? = some "") ↔ (Path.lead dir).head? = some "" := by
    cases Path.lead dir with
    | nil => simp [hname.ne_empty]
    | cons first rest => rfl
  have hnames : (Path.lead dir ++ [name]).filter (· ≠ "") = way dir ++ [name] := by
    rw [List.filter_append, way]
    simp [hname.ne_empty]
  have hpath : Path.join dir name ≠ "" := by
    intro hempty
    rw [hempty] at hpieces
    have hlast := congrArg List.getLast? hpieces
    rw [List.getLast?_concat] at hlast
    exact hname.ne_empty (Option.some.inj hlast).symm
  have harrive (p : Place) : arrive p name (some name = some "") = ⟨p ++ [name], false⟩ := by
    rw [arrive, if_neg hname.ne_dot, if_neg hname.ne_dots]
    simp [hname.ne_empty]
  simp only [locate, hpieces, hstart, hnames, hpath, if_false, List.getLast?_concat,
    List.dropLast_concat, harrive, base, ne_eq]
  rfl

/-- What stands at a name in a directory. -/
def view (t : FileTree) (home : Place) (dir name : String) : Except FileError (Option Entry) :=
  (checkPath (Path.join dir name)).bind fun _ =>
    (t.walk (base home dir) (way dir)).bind fun p => t.lookUp (p ++ [name])

/-- What a reader finds under a name: the path is short enough, the directory's names lead
somewhere, and the name is looked up there. -/
theorem view_eq_ok_iff {e : Option Entry} : t.view home dir name = .ok e ↔
    checkPath (Path.join dir name) = .ok () ∧
      ∃ p, t.Leads (base home dir) (way dir) p ∧ t.lookUp (p ++ [name]) = .ok e := by
  rw [view, Except.bind_eq_ok_iff]
  constructor
  · rintro ⟨⟨⟩, hpath, h⟩
    obtain ⟨p, hp, h⟩ := Except.bind_eq_ok_iff.1 h
    exact ⟨hpath, p, walk_eq_ok_iff.1 hp, h⟩
  · rintro ⟨hpath, p, hp, h⟩
    exact ⟨(), hpath, Except.bind_eq_ok_iff.2 ⟨p, walk_eq_ok_iff.2 hp, h⟩⟩

/-- A file exists for the program when the view of it is something; a view that fails counts as
nothing. -/
theorem pathExists_join (hname : IsName name) : t.pathExists home (Path.join dir name) =
    match t.view home dir name with
    | .ok (some _) => true
    | _ => false := by
  rw [pathExists, locate_join hname, view]
  cases checkPath (Path.join dir name) with
  | error e => rfl
  | ok _ =>
    cases t.walk (base home dir) (way dir) with
    | error e => rfl
    | ok p =>
      simp only [Except.bind, Except.map]
      cases t.lookUp (p ++ [name]) with
      | error e => rfl
      | ok e =>
        cases e with
        | none => rfl
        | some e => cases e <;> rfl

/-- The contents of a file, if these are what is asked for. -/
def bytesOf : Option Entry → Except FileError ByteArray
  | none => .error .notFound
  | some .directory => .error .isDirectory
  | some (.file bytes) => .ok bytes

/-- Reading a file in a directory reads whatever the view shows. -/
theorem readBytes_join (hname : IsName name) :
    t.readBytes home (Path.join dir name) = (t.view home dir name).bind bytesOf := by
  rw [readBytes, locate_join hname, view]
  cases checkPath (Path.join dir name) with
  | error e => rfl
  | ok _ =>
    cases t.walk (base home dir) (way dir) with
    | error e => rfl
    | ok p =>
      simp only [Except.bind, Except.map, bind]
      cases t.lookUp (p ++ [name]) with
      | error e => rfl
      | ok e =>
        cases e with
        | none => rfl
        | some e => cases e <;> rfl

theorem view_eq_of_leads (h : t.Leads (base home dir) (way dir) p) :
    t.view home dir name =
      (checkPath (Path.join dir name)).bind fun _ => t.lookUp (p ++ [name]) := by
  rw [view, walk_eq_ok_iff.2 h]
  rfl

/-! ## Files put at a place -/

theorem KeepsDirectories.put {bytes : ByteArray} (h : t.entry? p ≠ some .directory) :
    KeepsDirectories t (t.put p (.file bytes)) := by
  intro q hq
  have hne : q ≠ p := fun heq => h (heq ▸ hq)
  rw [entry?_put_of_ne hne, hq]

theorem KeepsDirectories.erase (h : t.entry? p ≠ some .directory) :
    KeepsDirectories t (t.erase p) := by
  intro q hq
  have hne : q ≠ p := fun heq => h (heq ▸ hq)
  rw [entry?_erase_of_ne hne, hq]

theorem view_put_of_ne {other : String} {bytes : ByteArray}
    (hp : t.Leads (base home dir) (way dir) p) (he : t.entry? (p ++ [other]) ≠ some .directory)
    (hne : name ≠ other) :
    (t.put (p ++ [other]) (.file bytes)).view home dir name = t.view home dir name := by
  have hplace : p ++ [name] ≠ p ++ [other] := fun heq => hne (by simpa using heq)
  rw [view_eq_of_leads hp, view_eq_of_leads (hp.mono (.put he)), lookUp, lookUp,
    entry?_put_of_ne hplace]

/-- What has been put where a name is looked up is what the next view of that name shows. -/
theorem view_put_self {bytes : ByteArray} {e : Option Entry}
    (hpath : checkPath (Path.join dir name) = .ok ())
    (hp : t.Leads (base home dir) (way dir) p) (he : t.lookUp (p ++ [name]) = .ok e)
    (hdirectory : e ≠ some .directory) :
    (t.put (p ++ [name]) (.file bytes)).view home dir name = .ok (some (.file bytes)) := by
  obtain ⟨hlength, hentry⟩ := lookUp_eq_ok_iff.1 he
  refine view_eq_ok_iff.2 ⟨hpath, p, hp.mono (.put (hentry ▸ hdirectory)), ?_⟩
  exact lookUp_eq_ok_iff.2 ⟨hlength, entry?_put_self (by simp)⟩

/-- A file is written where no directory stands. -/
theorem writeBytes_eq_ok {path : String} {bytes : ByteArray}
    (h : t.writeBytes home path bytes = .ok u) :
    ∃ p e, t.locate home path = .ok ⟨p, false⟩ ∧ t.lookUp p = .ok e ∧ e ≠ some .directory ∧
      u = t.put p (.file bytes) := by
  rw [writeBytes] at h
  obtain ⟨⟨p, slash⟩, htarget, h⟩ := Except.bind_eq_ok_iff.1 h
  cases slash with
  | true => cases h
  | false =>
    obtain ⟨e, he, h⟩ := Except.bind_eq_ok_iff.1 h
    refine ⟨p, e, htarget, he, ?_⟩
    split at h
    · cases h
    · exact ⟨nofun, (Except.ok.inj h).symm⟩
    · exact ⟨nofun, (Except.ok.inj h).symm⟩

/-- A write that succeeds has found its directory, met no directory under the name, and put the
bytes there. -/
theorem writeBytes_join_eq_ok {bytes : ByteArray} (hname : IsName name)
    (h : t.writeBytes home (Path.join dir name) bytes = .ok u) :
    checkPath (Path.join dir name) = .ok () ∧
      ∃ p e, t.Leads (base home dir) (way dir) p ∧ t.lookUp (p ++ [name]) = .ok e ∧
        e ≠ some .directory ∧ u = t.put (p ++ [name]) (.file bytes) := by
  obtain ⟨place, e, htarget, he, hdirectory, rfl⟩ := writeBytes_eq_ok h
  rw [locate_join hname] at htarget
  obtain ⟨⟨⟩, hpath, htarget⟩ := Except.bind_eq_ok_iff.1 htarget
  obtain ⟨p, hp, htarget⟩ := Except.map_eq_ok_iff.1 htarget
  cases htarget
  exact ⟨hpath, p, e, walk_eq_ok_iff.1 hp, he, hdirectory, rfl⟩

/-- A renaming that succeeds moves a file within one directory, over a file or over nothing. -/
theorem rename_join_eq_ok {old new : String} (hold : IsName old) (hnew : IsName new)
    (h : t.rename home (Path.join dir old) (Path.join dir new) = .ok u) :
    checkPath (Path.join dir new) = .ok () ∧
      ∃ p bytes e, t.Leads (base home dir) (way dir) p ∧
        t.lookUp (p ++ [old]) = .ok (some (.file bytes)) ∧
        t.lookUp (p ++ [new]) = .ok e ∧ e ≠ some .directory ∧
        u = (t.erase (p ++ [old])).put (p ++ [new]) (.file bytes) := by
  rw [rename, readBytes_join hold, locate_join hold, locate_join hnew] at h
  obtain ⟨bytes, hbytes, h⟩ := Except.bind_eq_ok_iff.1 h
  obtain ⟨e, he, hbytes⟩ := Except.bind_eq_ok_iff.1 hbytes
  obtain ⟨-, p, hp, hplace⟩ := view_eq_ok_iff.1 he
  obtain ⟨origin, horigin, h⟩ := Except.bind_eq_ok_iff.1 h
  obtain ⟨goal, hgoal, h⟩ := Except.bind_eq_ok_iff.1 h
  obtain ⟨⟨⟩, -, horigin⟩ := Except.bind_eq_ok_iff.1 horigin
  obtain ⟨⟨⟩, hpath, hgoal⟩ := Except.bind_eq_ok_iff.1 hgoal
  rw [walk_eq_ok_iff.2 hp] at horigin hgoal
  cases horigin
  cases hgoal
  obtain ⟨e', he', h⟩ := Except.bind_eq_ok_iff.1 h
  have hfile : e = some (.file bytes) := by
    cases e with
    | none => cases hbytes
    | some e =>
      cases e with
      | directory => cases hbytes
      | file bytes => exact congrArg (some ∘ Entry.file) (Except.ok.inj hbytes)
  refine ⟨hpath, p, bytes, e', hp, hfile ▸ hplace, he', ?_⟩
  split at h
  · cases h
  · exact ⟨nofun, (Except.ok.inj h).symm⟩
  · exact ⟨nofun, (Except.ok.inj h).symm⟩

/-! ## Directories made on the way -/

/-- The second tree has more directories, all of them on the way to a place. -/
def Grown (t u : FileTree) (d : Place) : Prop :=
  ∀ q, u.entry? q = t.entry? q ∨
    (t.entry? q = none ∧ u.entry? q = some .directory ∧ q <+: d)

theorem Grown.refl (t : FileTree) (d : Place) : Grown t t d := fun _ => .inl rfl

theorem Grown.keepsDirectories {d : Place} (h : Grown t u d) : KeepsDirectories t u := by
  intro q hq
  rcases h q with heq | ⟨hnone, -, -⟩
  · rw [heq, hq]
  · rw [hq] at hnone
    cases hnone

/-- A directory made at a free place above or at `d` is growth towards `d`. -/
theorem Grown.put {d : Place} (h : Grown t u d) (hp : u.entry? p = none) (hd : p <+: d) :
    Grown t (u.put p .directory) d := by
  intro q
  by_cases hq : q = p
  · subst hq
    have hne : q ≠ [] := by
      rintro rfl
      cases hp
    rcases h q with heq | ⟨-, hdirectory, -⟩
    · exact .inr ⟨heq ▸ hp, entry?_put_self hne, hd⟩
    · rw [hp] at hdirectory
      cases hdirectory
  · rw [entry?_put_of_ne hq]
    exact h q

theorem place_arrive (p : Place) (name : String) (slash : Bool) :
    (arrive p name slash).place = follow p [name] := by
  rw [arrive, follow]
  split_ifs <;> rfl

theorem reach_eq_ok (h : t.reach start names = .ok p) : p = follow start names := by
  rw [reach] at h
  rcases List.eq_nil_or_concat names with rfl | ⟨before, name, rfl⟩
  · exact (Except.ok.inj h).symm
  · rw [List.concat_eq_append, List.getLast?_concat, List.dropLast_concat] at h
    obtain ⟨q, hq, rfl⟩ := Except.map_eq_ok_iff.1 h
    rw [List.concat_eq_append, follow_append, place_arrive, (walk_eq_ok_iff.1 hq).eq_follow]

/-- A directory is made only where nothing stands. -/
theorem createDir_eq_ok (h : t.createDir start names = .ok u) :
    t.entry? (follow start names) = none ∧ u = t.put (follow start names) .directory := by
  rw [createDir] at h
  obtain ⟨p, hp, h⟩ := Except.bind_eq_ok_iff.1 h
  obtain ⟨e, he, h⟩ := Except.bind_eq_ok_iff.1 h
  rw [← reach_eq_ok hp]
  cases e with
  | some e => cases h
  | none => exact ⟨(lookUp_eq_ok_iff.1 he).2, (Except.ok.inj h).symm⟩

/-- Growth changes no answer about a place at which something stood before. -/
theorem Grown.lookUp_eq {d : Place} (h : Grown t u d) (hp : t.lookUp p ≠ .ok none) :
    u.lookUp p = t.lookUp p := by
  rw [lookUp] at hp ⊢
  rw [lookUp]
  split_ifs at hp ⊢
  · rfl
  · rcases h p with heq | ⟨hnone, -, -⟩
    · rw [heq]
    · exact absurd (congrArg _ hnone) hp

/-- A walk that comes to a file does so where directories are made elsewhere. -/
theorem Grown.walk_eq_error {d : Place} {e : FileError} (h : Grown t u d) (he : e ≠ .notFound)
    (hwalk : t.walk p names = .error e) : u.walk p names = .error e := by
  induction names generalizing p with
  | nil => cases hwalk
  | cons name rest ih =>
    rw [walk] at hwalk ⊢
    split_ifs at hwalk ⊢
    · exact ih hwalk
    · exact ih hwalk
    · have hfound : t.lookUp (p ++ [name]) ≠ .ok none := by
        intro hnone
        rw [hnone] at hwalk
        exact he (Except.error.inj hwalk).symm
      rw [h.lookUp_eq hfound]
      generalize t.lookUp (p ++ [name]) = found at hwalk hfound ⊢
      rcases found with e' | _ | _ | bytes
      · exact hwalk
      · exact absurd rfl hfound
      · exact ih hwalk
      · exact hwalk

/-- No directory is made where a walk comes to a file. -/
theorem createDir_ne_ok {e : FileError} (he : e ≠ .notFound)
    (hwalk : t.walk start names = .error e) : t.createDir start names ≠ .ok u := by
  intro h
  rw [createDir] at h
  obtain ⟨p, hp, h⟩ := Except.bind_eq_ok_iff.1 h
  obtain ⟨found, hfound, h⟩ := Except.bind_eq_ok_iff.1 h
  rcases List.eq_nil_or_concat names with rfl | ⟨before, name, rfl⟩
  · cases hwalk
  · rw [List.concat_eq_append] at hwalk hp
    rw [reach, List.getLast?_concat, List.dropLast_concat] at hp
    obtain ⟨q, hq, rfl⟩ := Except.map_eq_ok_iff.1 hp
    rw [walk_append, hq] at hwalk
    rw [place_arrive, follow] at hfound
    change t.walk q [name] = .error e at hwalk
    rw [walk] at hwalk
    split_ifs at hwalk hfound
    · cases hwalk
    · cases hwalk
    · rw [follow] at hfound
      rw [hfound] at hwalk
      cases found with
      | none => exact he (Except.error.inj hwalk).symm
      | some e => cases h

/-- Names from a place lead to a directory that is there, or on the way to a place, or no directory
can be made where they lead. -/
def Heads (t : FileTree) (start : Place) (names : List String) (d : Place) : Prop :=
  t.entry? (follow start names) = some .directory ∨ follow start names <+: d ∨
    ∃ e, e ≠ .notFound ∧ t.walk start names = .error e

/-- Making sure of one directory on the way to `d` is growth towards `d`, whether it was there, was
made or could not be made. -/
theorem Grown.ensureDir {d : Place} (h : Grown t u d) (hnames : t.Heads start names d) :
    Grown t (u.ensureDir start names).1 d := by
  rw [FileTree.ensureDir]
  cases hcreate : u.createDir start names with
  | error e => exact h
  | ok v =>
    obtain ⟨hnone, rfl⟩ := createDir_eq_ok hcreate
    rcases hnames with hdirectory | hd | ⟨e, he, hwalk⟩
    · rw [h.keepsDirectories _ hdirectory] at hnone
      cases hnone
    · exact h.put hnone hd
    · exact absurd hcreate (createDir_ne_ok he (h.walk_eq_error he hwalk))

/-- The same for all directories of a way, by induction over its names from the end. -/
theorem Grown.ensureWay {d : Place} {reversed : List String} (h : Grown t u d)
    (hnames : ∀ ns, ns <+: reversed.reverse → t.Heads start ns d) :
    Grown t (u.ensureWay start reversed).1 d := by
  induction reversed with
  | nil => exact h
  | cons name before ih =>
    have hall := hnames _ (List.prefix_refl _)
    have hbefore := ih fun ns hns => hnames ns
      (hns.trans (by rw [List.reverse_cons]; exact List.prefix_append _ _))
    rw [FileTree.ensureWay]
    split
    · rcases hway : u.ensureWay start before with ⟨v, _ | _⟩ <;> rw [hway] at hbefore
      · exact hbefore
      · exact hbefore.ensureDir hall
    · exact h.ensureDir hall

/-- Single dots do not change where a list of names leads to. -/
theorem follow_filter (start : Place) (names : List String) :
    follow start (names.filter (· ≠ ".")) = follow start names := by
  induction names generalizing start with
  | nil => rfl
  | cons name rest ih =>
    by_cases hdot : name = "."
    · rw [List.filter_cons_of_neg (by simp [hdot]), follow, if_pos hdot, ih]
    · rw [List.filter_cons_of_pos (by simp [hdot]), follow, follow, if_neg hdot, if_neg hdot, ih,
        ih]

/-- Nor do they change what a walk answers, since a walk starts and stays in directories. -/
theorem walk_filter (t : FileTree) (start : Place) (names : List String) :
    t.walk start (names.filter (· ≠ ".")) = t.walk start names := by
  induction names generalizing start with
  | nil => rfl
  | cons name rest ih =>
    by_cases hdot : name = "."
    · rw [List.filter_cons_of_neg (by simp [hdot]), walk, if_pos hdot, ih]
    · rw [List.filter_cons_of_pos (by simp [hdot]), walk, walk, if_neg hdot, if_neg hdot]
      simp only [ih]

/-- On the way to a directory no step back comes after a name that is missing. -/
def ClearWay (t : FileTree) (home : Place) (dir : String) : Prop :=
  ∀ before after, way dir = before ++ after → t.walk (base home dir) before = .error .notFound →
    ".." ∉ after

/-- Up to the first name that is missing a clear way leads to directories, and then it goes deeper,
unless it ends at a file. -/
theorem ClearWay.heads (h : t.ClearWay home dir) (ht : t.Rooted)
    (hhome : t.entry? home = some .directory) {ns : List String} (hns : ns <+: way dir) :
    t.Heads (base home dir) ns (follow (base home dir) (way dir)) := by
  have hbase : t.entry? (base home dir) = some .directory := by
    rw [base]
    split_ifs
    · rfl
    · exact hhome
  obtain ⟨rest, hrest⟩ := hns
  cases hwalk : t.walk (base home dir) ns with
  | ok p =>
    left
    have hp := walk_eq_ok_iff.1 hwalk
    rw [← hp.eq_follow]
    exact hp.isDirectory ht hbase
  | error e =>
    right
    by_cases he : e = .notFound
    · left
      subst he
      rw [← hrest, follow_append]
      exact prefix_follow (h ns rest hrest.symm hwalk) _
    · exact .inr ⟨e, he, hwalk⟩

/-- Making the directory of a path, or a part of the way to it. -/
theorem grown_createDirs {part : String} (h : t.ClearWay home dir) (ht : t.Rooted)
    (hhome : t.entry? home = some .directory) (hname : '/' ∉ name.toList)
    (hdir : Path.parent (Path.join dir name) ≠ "")
    (hpart : Path.pieces part <+: Path.pieces (Path.parent (Path.join dir name))) :
    Grown t (t.createDirs home part).1 (follow (base home dir) (way dir)) := by
  have hlead : (Path.pieces (Path.join dir name)).dropLast = Path.lead dir := by
    rw [Path.pieces_join hname, List.dropLast_concat]
  cases hpieces : Path.lead dir with
  | nil => exact absurd (Path.parent_eq_empty (hlead.trans hpieces)) hdir
  | cons first rest =>
    obtain ⟨⟨-, hhead⟩, hfilter⟩ := Path.pieces_parent (hlead.trans hpieces)
    have hidle : (Path.lead dir).filter (!Path.isIdle ·) = (way dir).filter (· ≠ ".") := by
      rw [way, List.filter_filter]
      refine List.filter_congr fun piece _ => ?_
      rw [Bool.eq_iff_iff]
      simp [Path.isIdle, and_comm]
    have hnames : (Path.pieces part).filter (!Path.isIdle ·) <+: (way dir).filter (· ≠ ".") := by
      rw [← hidle, hpieces, ← hfilter]
      exact hpart.filter _
    by_cases hempty : part = ""
    · subst hempty
      exact .refl t _
    have hstart : (if (Path.pieces part).head? = some "" && part != "" then [] else home) =
        base home dir := by
      rw [base, hpieces, Path.head?_pieces_of_prefix hpart, hhead]
      simp [hempty]
    rw [createDirs]
    cases checkPath part with
    | error e => exact .refl t _
    | ok _ =>
      simp only [hstart]
      refine (Grown.refl t _).ensureWay fun ns hns => ?_
      rw [List.reverse_reverse] at hns
      obtain ⟨rest, hrest⟩ := hns.trans hnames
      obtain ⟨ns', rest', hway, rfl, -⟩ := List.filter_eq_append_iff.1 hrest.symm
      have hheads := h.heads ht hhome ⟨rest', hway.symm⟩
      rwa [Heads, follow_filter, walk_filter]

/-- If the directory is missing, nothing stands in it. -/
theorem ClearWay.leads (h : t.ClearWay home dir) (ht : t.Rooted) {d : Place} (hgrown : Grown t u d)
    (hu : u.Leads (base home dir) (way dir) q) (hq : t.entry? (q ++ [name]) ≠ none) :
    t.Leads (base home dir) (way dir) q := by
  cases hwalk : t.walk (base home dir) (way dir) with
  | ok p =>
    have hp := walk_eq_ok_iff.1 hwalk
    rwa [hu.eq_follow, ← hp.eq_follow]
  | error e =>
    exfalso
    by_cases he : e = .notFound
    · subst he
      obtain ⟨before, last, after, p, hway, hp, hdot, hdots, hnone⟩ := exists_missing_of_walk hwalk
      have hmissing : t.walk (base home dir) (before ++ [last]) = .error .notFound := by
        rw [walk_append, walk_eq_ok_iff.2 hp]
        change t.walk p [last] = _
        rw [walk, if_neg hdot, if_neg hdots, hnone]
      have hafter := h (before ++ [last]) after (by simp [hway]) hmissing
      have habove : p ++ [last] <+: q := by
        rw [hu.eq_follow, hway, follow_append, ← hp.eq_follow, follow, if_neg hdot, if_neg hdots]
        exact prefix_follow hafter _
      -- so something would stand below a name that is not there
      have hdirectory : t.entry? (p ++ [last]) = some .directory := by
        refine ht.of_prefix hq (habove.trans (List.prefix_append q [name])) fun heq => ?_
        have hlength := habove.length_le
        rw [heq, List.length_append, List.length_singleton] at hlength
        omega
      rw [(lookUp_eq_ok_iff.1 hnone).2] at hdirectory
      cases hdirectory
    · have hblocked := hgrown.walk_eq_error he hwalk
      rw [walk_eq_ok_iff.2 hu] at hblocked
      cases hblocked

/-- The same stands there, or nothing does. -/
def Alike (found found' : Except FileError (Option Entry)) : Prop :=
  found = found' ∨ (∀ e, found ≠ .ok (some e)) ∧ ∀ e, found' ≠ .ok (some e)

/-- Directories made on the way to a directory change nothing of what stands in it. -/
theorem Grown.alike (h : Grown t u (follow (base home dir) (way dir))) (ht : t.Rooted)
    (hclear : t.ClearWay home dir) : Alike (u.view home dir name) (t.view home dir name) := by
  by_cases hu : ∃ q, u.Leads (base home dir) (way dir) q
  · obtain ⟨q, hq⟩ := hu
    have hentry : u.entry? (q ++ [name]) = t.entry? (q ++ [name]) := by
      rcases h (q ++ [name]) with heq | ⟨-, -, hprefix⟩
      · exact heq
      · rw [← hq.eq_follow] at hprefix
        have hlength := hprefix.length_le
        rw [List.length_append, List.length_singleton] at hlength
        omega
    by_cases ht' : t.Leads (base home dir) (way dir) q
    · left
      rw [view_eq_of_leads hq, view_eq_of_leads ht', lookUp, lookUp, hentry]
    · right
      have hnone : t.entry? (q ++ [name]) = none := by
        by_contra hne
        exact ht' (hclear.leads ht h hq hne)
      constructor
      · intro e he
        obtain ⟨-, p, hp, he⟩ := view_eq_ok_iff.1 he
        rw [hp.eq_follow, ← hq.eq_follow, lookUp_eq_ok_iff, hentry, hnone] at he
        cases he.2
      · intro e he
        obtain ⟨-, p, hp, -⟩ := view_eq_ok_iff.1 he
        rw [hp.eq_follow, ← hq.eq_follow] at hp
        exact ht' hp
  · right
    constructor
    · intro e he
      obtain ⟨-, p, hp, -⟩ := view_eq_ok_iff.1 he
      exact hu ⟨p, hp⟩
    · intro e he
      obtain ⟨-, p, hp, -⟩ := view_eq_ok_iff.1 he
      exact hu ⟨p, hp.mono h.keepsDirectories⟩

/-! ## Writing at a path -/

/-- A path leads where it led before as long as no directory is lost. -/
theorem locate_mono {path : String} {target : Target} (hkeeps : KeepsDirectories t u)
    (h : t.locate home path = .ok target) : u.locate home path = .ok target := by
  rw [locate] at h ⊢
  obtain ⟨⟨⟩, hpath, h⟩ := Except.bind_eq_ok_iff.1 h
  refine Except.bind_eq_ok_iff.2 ⟨(), hpath, ?_⟩
  by_cases hempty : path = ""
  · rw [if_pos hempty] at h
    cases h
  rw [if_neg hempty] at h ⊢
  generalize (Path.pieces path).filter (· ≠ "") = names at h ⊢
  cases hlast : names.getLast? with
  | none =>
    rw [hlast] at h
    exact h
  | some name =>
    rw [hlast] at h
    obtain ⟨dir, hdir, h⟩ := Except.map_eq_ok_iff.1 h
    refine Except.map_eq_ok_iff.2 ⟨dir, ?_, h⟩
    exact walk_eq_ok_iff.2 ((walk_eq_ok_iff.1 hdir).mono hkeeps)

/-- There is a file with exactly this text at a path, and elsewhere stands what stood there
before. -/
structure Replaced (t u : FileTree) (home : Place) (path text : String) : Prop where
  exists_place : ∃ p, u.locate home path = .ok ⟨p, false⟩ ∧
    u.entry? p = some (.file text.toUTF8) ∧ ∀ q, q ≠ p → u.entry? q = t.entry? q
  readBytes_eq : u.readBytes home path = .ok text.toUTF8

/-- A write that succeeds replaces exactly one file. -/
theorem replaced_of_writeText {path text : String} (h : t.writeText home path text = .ok u) :
    t.Replaced u home path text := by
  obtain ⟨p, e, hlocate, he, hdirectory, rfl⟩ := writeBytes_eq_ok h
  obtain ⟨hlength, hentry⟩ := lookUp_eq_ok_iff.1 he
  rw [← hentry] at hdirectory
  have hplace : p ≠ [] := fun hp => hdirectory (hp ▸ rfl)
  have hself : entry? (t.put p (.file text.toUTF8)) p = some (.file text.toUTF8) :=
    entry?_put_self hplace
  have hlocate : locate (t.put p (.file text.toUTF8)) home path = .ok ⟨p, false⟩ :=
    locate_mono (.put hdirectory) hlocate
  refine ⟨⟨p, hlocate, hself, fun q => entry?_put_of_ne⟩, ?_⟩
  exact Except.bind_eq_ok_iff.2 ⟨_, hlocate,
    Except.bind_eq_ok_iff.2 ⟨_, lookUp_eq_ok_iff.2 ⟨hlength, hself⟩, rfl⟩⟩

end FactoryScript.FileTree
