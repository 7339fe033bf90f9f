import FactoryScript.Host.FileTree

/-!
# The simulated host

A world is a tree of files, with a directory in it from which paths start, and what has been
printed and told so far.
-/

namespace FactoryScript

structure World where
  files : FileTree
  home : Place
  /-- The messages so far, first one first. -/
  notes : List (Topic × Note)
  printed : String

namespace World

/-- The name of the directory in which a world starts. -/
def homeName : String := "home"

def initial : World := ⟨FileTree.empty.put [homeName] .directory, [homeName], [], ""⟩

/-- Carries out an operation that changes the files if it succeeds. -/
def attempt (change : World → Except FileError FileTree) : StateM World (Except FileError Unit) :=
  fun w =>
    match change w with
    | .ok files => (.ok (), { w with files := files })
    | .error e => (.error e, w)

/-- What stands below the directory in which paths start, each with its path. -/
def listing (w : World) : List (String × Entry) :=
  w.files.entries.filterMap fun (place, e) =>
    if w.home.isPrefixOf place && place != w.home then
      some ("/".intercalate (place.drop w.home.length), e)
    else none

end World

instance : Host (StateM World) where
  pathExists path := fun w => (w.files.pathExists w.home path, w)
  readText path := fun w => (w.files.readText w.home path, w)
  writeText path text := World.attempt fun w => w.files.writeText w.home path text
  createDirs path := fun w =>
    match w.files.createDirs w.home path with
    | (files, r) => (r, { w with files := files })
  rename source target := World.attempt fun w => w.files.rename w.home source target
  note topic n := fun w => ((), { w with notes := w.notes ++ [(topic, n)] })
  print text := fun w => ((), { w with printed := w.printed ++ text })

end FactoryScript
