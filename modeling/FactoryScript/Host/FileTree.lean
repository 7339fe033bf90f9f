import FactoryScript.Host.Basic

/-!
# Trees of files

A simulated file system: directories and files, found by the names that lead to them. A path is
followed name by name, and everything on the way has to be a directory. Paths and names must not be
too long; the length of a name counts once it is looked up.
-/

namespace FactoryScript

inductive Entry
  | directory
  | file (bytes : ByteArray)

/-- The names on the way from the root. -/
abbrev Place := List String

/-- Everything below the root, which is a directory itself. -/
structure FileTree where
  entries : List (Place × Entry)

structure Target where
  place : Place
  /-- The path can only mean a directory. -/
  wantsDirectory : Bool
  deriving DecidableEq, Repr

namespace FileTree

def empty : FileTree := ⟨[]⟩

def entry? (t : FileTree) (p : Place) : Option Entry :=
  if p = [] then some .directory else t.entries.lookup p

def isDirectory (t : FileTree) (p : Place) : Bool :=
  match t.entry? p with
  | some .directory => true
  | _ => false

def erase (t : FileTree) (p : Place) : FileTree := ⟨t.entries.filter fun e => e.1 != p⟩

/-- Puts an entry at a place, whatever stood there. -/
def put (t : FileTree) (p : Place) (e : Entry) : FileTree := ⟨(p, e) :: (t.erase p).entries⟩

def maxName : Nat := 255

def maxPath : Nat := 4095

/-- Looks at a place whose directory is known to be there. -/
def lookUp (t : FileTree) (p : Place) : Except FileError (Option Entry) :=
  if maxName < (p.getLast?.getD "").utf8ByteSize then .error .nameTooLong else .ok (t.entry? p)

/-- What is wrong with a path, wherever it would lead. -/
def checkPath (path : String) : Except FileError Unit :=
  if '\x00' ∈ path.toList then .error .nulInPath
  else if maxPath < path.utf8ByteSize then .error .nameTooLong
  else .ok ()

/-- Follows names from a directory; each has to lead to a directory. -/
def walk (t : FileTree) (start : Place) : List String → Except FileError Place
  | [] => .ok start
  | name :: rest =>
    if name = "." then t.walk start rest
    else if name = ".." then t.walk start.dropLast rest
    else
      match t.lookUp (start ++ [name]) with
      | .error e => .error e
      | .ok (some .directory) => t.walk (start ++ [name]) rest
      | .ok (some (.file _)) => .error .notDirectory
      | .ok none => .error .notFound

/-- The last step of a path, which may lead to anything and to nothing. -/
def arrive (dir : Place) (name : String) (slash : Bool) : Target :=
  if name = "." then ⟨dir, true⟩
  else if name = ".." then ⟨dir.dropLast, true⟩
  else ⟨dir ++ [name], slash⟩

/-- Finds the place of a path; `home` is where paths without a leading slash start. -/
def locate (t : FileTree) (home : Place) (path : String) : Except FileError Target := do
  checkPath path
  let pieces := Path.pieces path
  let start := if pieces.head? = some "" then [] else home
  let names := pieces.filter (· ≠ "")
  if path = "" then .error .notFound
  else
    match names.getLast? with
    | none => .ok ⟨start, true⟩
    | some name =>
      (t.walk start names.dropLast).map fun dir =>
        arrive dir name (pieces.getLast? = some "")

/-! ## Operations on paths -/

section
variable (t : FileTree) (home : Place)

def pathExists (path : String) : Bool :=
  match t.locate home path with
  | .error _ => false
  | .ok target =>
    match t.lookUp target.place with
    | .error _ | .ok none => false
    | .ok (some .directory) => true
    | .ok (some (.file _)) => !target.wantsDirectory

def readBytes (path : String) : Except FileError ByteArray := do
  let target ← t.locate home path
  match ← t.lookUp target.place with
  | none => .error .notFound
  | some .directory => .error .isDirectory
  | some (.file bytes) => if target.wantsDirectory then .error .notDirectory else .ok bytes

def readText (path : String) : Except FileError String := do
  let bytes ← t.readBytes home path
  match String.fromUTF8? bytes with
  | some text => .ok text
  | none => .error .notText

/-- Writes a whole file. A path that can only mean a directory is refused, whatever stands there. -/
def writeBytes (path : String) (bytes : ByteArray) : Except FileError FileTree := do
  let target ← t.locate home path
  if target.wantsDirectory then .error .isDirectory
  else
    match ← t.lookUp target.place with
    | some .directory => .error .isDirectory
    | some (.file _) | none => .ok (t.put target.place (.file bytes))

def writeText (path text : String) : Except FileError FileTree :=
  t.writeBytes home path text.toUTF8

/-- Moves a file; what stands at its new path may only be a file. -/
def rename (source target : String) : Except FileError FileTree := do
  let bytes ← t.readBytes home source
  let origin ← t.locate home source
  let goal ← t.locate home target
  match ← t.lookUp goal.place with
  | some .directory => .error .isDirectory
  | some (.file _) | none =>
    if goal.wantsDirectory then .error .notDirectory
    else .ok ((t.erase origin.place).put goal.place (.file bytes))

end

/-! ## Creating directories -/

/-- Follows names to where a directory is or is to be. -/
def reach (t : FileTree) (start : Place) (names : List String) : Except FileError Place :=
  match names.getLast? with
  | none => .ok start
  | some name => (t.walk start names.dropLast).map fun dir => (arrive dir name true).place

def createDir (t : FileTree) (start : Place) (names : List String) : Except FileError FileTree := do
  let place ← t.reach start names
  match ← t.lookUp place with
  | some _ => .error .alreadyExists
  | none => .ok (t.put place .directory)

def reachesDirectory (t : FileTree) (start : Place) (names : List String) : Bool :=
  match t.reach start names with
  | .ok place => t.isDirectory place
  | .error _ => false

/-- Creates one directory, unless it is one already. -/
def ensureDir (t : FileTree) (start : Place) (names : List String) :
    FileTree × Except FileError Unit :=
  match t.createDir start names with
  | .ok t => (t, .ok ())
  | .error e => (t, if t.reachesDirectory start names then .ok () else .error e)

/-- Creates the directory to which names lead, given last name first. Only if something on the way
is missing, the way is created before it. -/
def ensureWay (t : FileTree) (start : Place) : List String → FileTree × Except FileError Unit
  | [] => (t, .ok ())
  | name :: before =>
    let names := (name :: before).reverse
    match t.createDir start names with
    | .error .notFound =>
      match t.ensureWay start before with
      | (t, .ok ()) => t.ensureDir start names
      | (t, .error e) => (t, .error e)
    | _ => t.ensureDir start names

def createDirs (t : FileTree) (home : Place) (path : String) : FileTree × Except FileError Unit :=
  let pieces := Path.pieces path
  let start := if pieces.head? = some "" && path != "" then [] else home
  match checkPath path with
  | .error e => (t, .error e)
  | .ok () => t.ensureWay start (pieces.filter fun piece => !Path.isIdle piece).reverse

end FileTree
end FactoryScript
