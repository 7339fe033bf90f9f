import FactoryScript.Command.Arguments
import FactoryScript.Graph.Document
import FactoryScript.Graph.Script
import FactoryScript.Program.Document
import FactoryScript.Program.Script
import FactoryScript.Session.Edit
import FactoryScript.Budget
import FactoryScript.Values.Store
import FactoryScript.Wizard

/-!
# Commands

Every command reads its document, makes a script of it, and prints the script or writes it to a
file. The commands for common values load the lists, change them, and save them if they changed.
-/

namespace FactoryScript

structure Ending where
  status : UInt8
  /-- What went wrong, unless it is the arguments that are wrong. -/
  error : Option String
  deriving DecidableEq, Repr

namespace Command

def version : String := "sfm 0.1.0"

variable {m : Type → Type} [Monad m] [Host m]

def readDocument {α : Type} (read : Reader α) (path : String) : m (Except String α) := do
  Host.tell .command .debug ("Reading " ++ Text.quoted path)
  match ← Host.readText path with
  | .error _ => return .error ("failed to read " ++ path)
  | .ok text =>
    match read.ofText text with
    | .error _ => return .error ("invalid JSON in " ++ path)
    | .ok a => return .ok a

/-- Prints a script, with a line end after it, or writes it to a file. -/
def emit (code : String) (output : Option String) : m (Except String Unit) := do
  let status := Budget.device.status code
  if status.warning then
    Host.tell .command .warn
      ("Generated code is close to the size budget (" ++ status.text ++ ")")
  match output with
  | some path =>
    match ← exportScript path code with
    | .ok () => return .ok ()
    | .error _ => return .error ("failed to export to " ++ path)
  | none =>
    Host.print (if code.toList.getLast? = some '\n' then code else code ++ "\n")
    return .ok ()

def compile {α : Type} (read : Reader α) (path : String) (output : Option String)
    (script : α → m String) : m (Except String Unit) := do
  match ← readDocument read path with
  | .error e => return .error e
  | .ok a => emit (← script a) output

def buildTemplate (t : Template) : m String := do
  Host.tell .command .info ("Rendering template: " ++ t.name)
  Host.tell .template .debug ("Building template: " ++ t.name)
  return t.program.script

/-- The script of a graph; triggers without connections are mentioned. -/
def buildGraph (triggers : List GraphTrigger) : m String := do
  (triggers.filter fun t => t.connections.isEmpty).forM fun t =>
    Host.tell .graph .debug ("Skipping trigger '" ++ t.name ++ "' without connections")
  return Graph.script triggers

/-! ## Common values -/

def listLine (values : CommonValues) (c : ValueCategory) : String :=
  c.name ++ ": " ++ ", ".intercalate (values.list c) ++ "\n"

def withValues (dir : String) (body : ValueStore → CommonValues → m (Except String Unit)) :
    m (Except String Unit) := do
  let store := ValueStore.inDir dir
  match ← store.tryLoad with
  | .error _ => return .error ("failed to load " ++ store.path)
  | .ok values => body store values

/-- Saves changed lists; if nothing changed, says so instead. -/
def saveChanged (store : ValueStore) (changed : Bool × CommonValues) (unchanged : String) :
    m (Except String Unit) := do
  if changed.1 then
    match ← store.trySave changed.2 with
    | .ok () => return .ok ()
    | .error _ => return .error ("failed to save " ++ store.path)
  else
    Host.tell .command .info unchanged
    return .ok ()

/-! ## Running -/

def perform : Action → m (Except String Unit)
  | .template t output => do emit (← buildTemplate t) output
  | .render path output => compile Program.read path output fun p => pure p.script
  | .graph path output => compile Graph.read path output buildGraph
  | .wizard path output => compile WizardLayout.read path output fun w => pure w.script
  | .listValues dir =>
    withValues dir fun _ values => do
      Host.print (String.join ((Named.all : List ValueCategory).map (listLine values)))
      return .ok ()
  | .addValue dir c value =>
    withValues dir fun store values =>
      saveChanged store (values.add c value)
        ("'" ++ Text.trim value ++ "' is blank or already in the " ++ c.name ++ " list")
  | .removeValue dir c value =>
    withValues dir fun store values =>
      saveChanged store (values.remove c value)
        ("'" ++ Text.trim value ++ "' is not in the " ++ c.name ++ " list")

/-- Runs a command line; debug messages are dropped unless they are asked for. -/
def run (configDir : Option String) (args : List String) : m Ending := do
  match Arguments.read configDir args with
  | .error .help => return ⟨0, none⟩
  | .error .version =>
    Host.print (version ++ "\n")
    return ⟨0, none⟩
  | .error .usage => return ⟨2, none⟩
  | .ok invocation =>
    let threshold : Level := if invocation.verbose then .debug else .info
    match ← (perform invocation.action : Host.Quiet m (Except String Unit)) threshold with
    | .ok () => return ⟨0, none⟩
    | .error e => return ⟨1, some e⟩

end Command
end FactoryScript
