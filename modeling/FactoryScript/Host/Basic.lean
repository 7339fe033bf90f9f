import FactoryScript.Note

/-!
# The host

What a program needs from its surroundings: files, a place for messages, and an output. Programs
are written for any monad with a `Host`, so that they run in the real world and on a simulated one.
-/

namespace FactoryScript

/-! ## Paths

A path is a text. Slashes separate the names in it, a leading slash makes it start at the root, and
one at the end demands a directory. -/

namespace Path

/-- The pieces between slashes, of which there is always at least one. -/
def split : List Char → List (List Char)
  | [] => [[]]
  | c :: rest =>
    if c = '/' then [] :: split rest
    else
      match split rest with
      | [] => [[c]]
      | piece :: pieces => (c :: piece) :: pieces

def pieces (path : String) : List String := (split path.toList).map String.ofList

/-- The path of a name inside a directory; the empty path stands for where one is. -/
def join (dir name : String) : String :=
  if dir = "" then name
  else if dir.toList.getLast? = some '/' then dir ++ name
  else dir ++ "/" ++ name

/-- A piece that leads nowhere. -/
def isIdle (piece : String) : Bool := piece == "" || piece == "."

/-- The path without its last name, and without the idle pieces before it; the empty path is what
remains of a single name. -/
def parent (path : String) : String :=
  match (pieces path).dropLast with
  | [] => ""
  | first :: rest =>
    let rest := (rest.reverse.dropWhile isIdle).reverse
    if first = "" ∧ rest = [] then "/" else "/".intercalate (first :: rest)

end Path

/-! ## Operations -/

/-- Why an operation on files failed. -/
inductive FileError
  | notFound
  | alreadyExists
  | notDirectory
  | isDirectory
  /-- A name, or the whole path, has too many bytes. -/
  | nameTooLong
  /-- The path holds the character U+0000, with which paths end. -/
  | nulInPath
  /-- The bytes of a file are no text. -/
  | notText
  | other (text : String)
  deriving DecidableEq, Repr

def FileError.text : FileError → String
  | notFound => "No such file or directory (os error 2)"
  | alreadyExists => "File exists (os error 17)"
  | notDirectory => "Not a directory (os error 20)"
  | isDirectory => "Is a directory (os error 21)"
  | nameTooLong => "File name too long (os error 36)"
  | nulInPath => "file name contained an unexpected NUL byte"
  | notText => "stream did not contain valid UTF-8"
  | other text => text

class Host (m : Type → Type) where
  pathExists : String → m Bool
  readText : String → m (Except FileError String)
  /-- Writes a whole file; a file that exists is replaced. -/
  writeText : String → String → m (Except FileError Unit)
  /-- Creates a directory and the directories that lead to it. -/
  createDirs : String → m (Except FileError Unit)
  /-- Moves a file, in one step, to a path where there may be a file already. -/
  rename : String → String → m (Except FileError Unit)
  note : Topic → Note → m Unit
  print : String → m Unit

namespace Host
variable {m : Type → Type}

def tell [Host m] (topic : Topic) (level : Level) (text : String) : m Unit :=
  note topic ⟨level, text⟩

/-- A host that drops messages below a level. -/
abbrev Quiet (m : Type → Type) := ReaderT Level m

instance [Monad m] [Host m] : Host (Quiet m) where
  pathExists path := fun _ => pathExists path
  readText path := fun _ => readText path
  writeText path text := fun _ => writeText path text
  createDirs path := fun _ => createDirs path
  rename source target := fun _ => rename source target
  note topic n := fun threshold => if threshold.admits n.level then note topic n else pure ()
  print text := fun _ => print text

end Host
end FactoryScript
