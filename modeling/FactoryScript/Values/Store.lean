import FactoryScript.Host.Basic
import FactoryScript.Text.Basic
import FactoryScript.Values.Basic

/-!
# The store of common values

The lists live in one file inside a directory. They are written to a temporary file first, which
then takes the place of the store, so that a failure leaves the store as it was.
-/

namespace FactoryScript

inductive StoreError
  | unreadable (path : String) (cause : FileError)
  | unwritable (path : String) (cause : FileError)
  /-- The file is no document of common values. -/
  | invalid (path : String) (fault : Fault)
  deriving DecidableEq, Repr

def StoreError.message : StoreError → String
  | unreadable path cause => "failed to read file " ++ path ++ ": " ++ cause.text
  | unwritable path cause => "failed to write file " ++ path ++ ": " ++ cause.text
  | invalid path _ => "invalid JSON in " ++ path

/-- A store, named by the path of its file. -/
structure ValueStore where
  path : String
  deriving DecidableEq, Repr

namespace ValueStore

def fileName : String := "common_values.json"

def inDir (dir : String) : ValueStore := ⟨Path.join dir fileName⟩

/-- The directory that has to exist; the empty path needs none. -/
def dir (s : ValueStore) : String := Path.parent s.path

/-- Where the lists are written first. -/
def temporary (s : ValueStore) : String := s.path ++ ".tmp"

variable {m : Type → Type} [Monad m] [Host m]

/-- Reads the lists; if there is no file they are empty. -/
def tryLoad (s : ValueStore) : m (Except StoreError CommonValues) := do
  if !(← Host.pathExists s.path) then
    Host.tell .store .debug
      ("No common values at " ++ Text.quoted s.path ++ ", using empty lists")
    return .ok .empty
  match ← Host.readText s.path with
  | .error cause => return .error (.unreadable s.path cause)
  | .ok text =>
    match CommonValues.read.ofText text with
    | .error fault => return .error (.invalid s.path fault)
    | .ok values =>
      Host.tell .store .debug
        ("Loaded common values from " ++ Text.quoted s.path ++ " (" ++ values.labels.length.repr ++
          " labels)")
      return .ok values

/-- Creates the directory of the store if it is missing. -/
def prepare (s : ValueStore) : m (Except FileError Unit) := do
  if s.dir = "" then return .ok ()
  if ← Host.pathExists s.dir then return .ok ()
  Host.createDirs s.dir

def trySave (s : ValueStore) (values : CommonValues) : m (Except StoreError Unit) := do
  match ← s.prepare with
  | .error cause => return .error (.unwritable s.dir cause)
  | .ok () =>
  match ← Host.writeText s.temporary values.pretty with
  | .error cause => return .error (.unwritable s.temporary cause)
  | .ok () =>
  match ← Host.rename s.temporary s.path with
  | .error cause => return .error (.unwritable s.path cause)
  | .ok () =>
    Host.tell .store .debug ("Saved common values to " ++ Text.quoted s.path)
    return .ok ()

/-- Reads the lists, which are empty if that fails. -/
def load (s : ValueStore) : m CommonValues := do
  match ← s.tryLoad with
  | .ok values => return values
  | .error e =>
    Host.tell .store .warn ("Using empty common values: " ++ e.message)
    return .empty

/-- Writes the lists; a failure is only told. -/
def save (s : ValueStore) (values : CommonValues) : m Unit := do
  match ← s.trySave values with
  | .ok () => return
  | .error e => Host.tell .store .warn ("Failed to save common values: " ++ e.message)

end ValueStore
end FactoryScript
