import FactoryScript.Command.Run

/-!
# The program

Runs the command line on the files of the machine. Messages and errors go to the standard error
stream.
-/

namespace FactoryScript

def FileError.ofIO (e : IO.Error) : FileError :=
  match e with
  | .noFileOrDirectory .. => .notFound
  | .alreadyExists .. => .alreadyExists
  | .inappropriateType _ 20 _ => .notDirectory
  | .inappropriateType _ 21 _ => .isDirectory
  | .invalidArgument _ 36 _ => .nameTooLong
  | e => .other e.toString

namespace Machine

def attempt {α : Type} (action : IO α) : IO (Except FileError α) := do
  match ← action.toBaseIO with
  | .ok a => return .ok a
  | .error e => return .error (.ofIO e)

end Machine

instance : Host IO where
  pathExists path := do
    match ← Machine.attempt (IO.FS.realPath path) with
    | .ok _ => return true
    | .error _ => return false
  readText path := do
    match ← Machine.attempt (IO.FS.readBinFile path) with
    | .error e => return .error e
    | .ok bytes =>
      match String.fromUTF8? bytes with
      | some text => return .ok text
      | none => return .error .notText
  writeText path text := Machine.attempt (IO.FS.writeFile path text)
  createDirs path := Machine.attempt (IO.FS.createDirAll path)
  rename source target := Machine.attempt (IO.FS.rename source target)
  note topic n := IO.eprintln (n.line topic)
  print text := do
    let out ← IO.getStdout
    out.putStr text
    out.flush

end FactoryScript

open FactoryScript in
def main (args : List String) : IO UInt32 := do
  let ending ← Command.run (← IO.getEnv "SFM_CONFIG_DIR") args
  if let some e := ending.error then IO.eprintln ("Error: " ++ e)
  return ending.status.toUInt32
