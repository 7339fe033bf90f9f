import FactoryScript.Named
import FactoryScript.Program.Template
import FactoryScript.Values.Basic

/-!
# Command-line arguments

Arguments are read from left to right by a machine. A word goes down to a command or is an operand
of the command reached, a dash introduces options, and after two dashes alone there are only
operands. Every command knows its own options; an option may be given once to each command on the
way.
-/

namespace FactoryScript

inductive Action
  | template (t : Template) (output : Option String)
  | render (path : String) (output : Option String)
  | graph (path : String) (output : Option String)
  | wizard (path : String) (output : Option String)
  | listValues (dir : String)
  | addValue (dir : String) (category : ValueCategory) (value : String)
  | removeValue (dir : String) (category : ValueCategory) (value : String)
  deriving DecidableEq, Repr

structure Invocation where
  verbose : Bool
  action : Action
  deriving DecidableEq, Repr

/-- Why there is nothing to be done. -/
inductive Stop
  | help
  | version
  | usage
  deriving DecidableEq, Repr

inductive CommandName
  | root | template | render | graph | wizard | values | list | add | remove | help
  deriving DecidableEq, Repr

namespace CommandName

def name : CommandName → String
  | root => "sfm" | template => "template" | render => "render" | graph => "graph"
  | wizard => "wizard" | values => "values" | list => "list" | add => "add" | remove => "remove"
  | help => "help"

/-- The commands below a command, beside `help`. -/
def children : CommandName → List CommandName
  | root => [template, render, graph, wizard, values]
  | values => [list, add, remove]
  | _ => []

def child? (c : CommandName) (word : String) : Option CommandName :=
  c.children.find? fun d => d.name == word

/-- The commands about which `help` can be asked: those below a command, and `help` itself. -/
def topics (c : CommandName) : List CommandName :=
  if c.children.isEmpty then [] else help :: c.children

def topic? (c : CommandName) (word : String) : Option CommandName :=
  c.topics.find? fun d => d.name == word

end CommandName

inductive Switch
  | verbose | help | version | output | configDir
  deriving DecidableEq, Repr

namespace Switch

def long : Switch → String
  | verbose => "verbose" | help => "help" | version => "version" | output => "output"
  | configDir => "config-dir"

def short? : Switch → Option Char
  | verbose => some 'v' | help => some 'h' | version => some 'V' | output => some 'o'
  | configDir => none

def takesValue : Switch → Bool
  | output | configDir => true
  | verbose | help | version => false

end Switch

def CommandName.switches : CommandName → List Switch
  | .root => [.verbose, .help, .version]
  | .values => [.verbose, .help, .configDir]
  | .template | .render | .graph | .wizard => [.verbose, .help, .output]
  | .list | .add | .remove => [.verbose, .help]
  | .help => []

namespace Arguments

/-- How far the reading has come. -/
structure Progress where
  command : CommandName
  verbose : Bool
  seen : List Switch
  pending : Option Switch
  /-- Set after two dashes. -/
  literal : Bool
  /-- Set after the word `help`. -/
  helping : Bool
  output : Option String
  configDir : Option String
  operands : List String
  deriving DecidableEq, Repr

def initial : Progress := ⟨.root, false, [], none, false, false, none, none, []⟩

/-- Looks an option of the last command up. -/
def Progress.known (p : Progress) (test : Switch → Bool) : Except Stop Switch :=
  match p.command.switches.find? test with
  | some s => .ok s
  | none => .error .usage

/-- Records an option, which may not be repeated. -/
def Progress.mark (p : Progress) (s : Switch) : Except Stop Progress :=
  if s ∈ p.seen then .error .usage else .ok { p with seen := s :: p.seen }

/-- An option that has no value. -/
def Progress.raise (p : Progress) : Switch → Except Stop Progress
  | .help => .error .help
  | .version => .error .version
  | s => do
    let p ← p.mark s
    return { p with verbose := true }

/-- An option and its value, which is a path. -/
def Progress.assign (p : Progress) (s : Switch) (value : String) : Except Stop Progress := do
  let p ← p.mark s
  if value = "" then .error .usage
  else
    match s with
    | .configDir => return { p with pending := none, configDir := some value }
    | _ => return { p with pending := none, output := some value }

/-- An option with a long name, which may hold a value after an equals sign. -/
def Progress.long (p : Progress) (text : List Char) : Except Stop Progress := do
  let name := String.ofList (text.takeWhile (· ≠ '='))
  let s ← p.known fun s => s.long == name
  match text.dropWhile (· ≠ '='), s.takesValue with
  | [], false => p.raise s
  | [], true => return { p with pending := some s }
  | _ :: value, true => p.assign s (String.ofList value)
  | _ :: _, false => .error .usage

/-- Options with short names; what follows one that takes a value is its value. -/
def Progress.shorts (p : Progress) : List Char → Except Stop Progress
  | [] => .ok p
  | c :: rest => do
    let s ← p.known fun s => s.short? == some c
    if s.takesValue then
      match rest with
      | [] => return { p with pending := some s }
      | '=' :: value => p.assign s (String.ofList value)
      | value => p.assign s (String.ofList value)
    else
      let p ← p.raise s
      p.shorts rest

/-- The operand at a position is admissible. -/
def accepts (c : CommandName) (position : Nat) (word : String) : Bool :=
  match c, position with
  | .template, 0 => (Template.parse word).toBool
  | .render, 0 | .graph, 0 | .wizard, 0 => word != ""
  | .add, 0 | .remove, 0 => (ValueCategory.parse word).toBool
  | .add, 1 | .remove, 1 => true
  | _, _ => false

def Progress.word (p : Progress) (word : String) : Except Stop Progress :=
  match if p.literal then none else p.command.child? word with
  | some c => .ok { p with command := c, seen := [], operands := [] }
  | none =>
    if !p.literal && word == CommandName.help.name && !p.command.children.isEmpty then
      .ok { p with helping := true }
    else if accepts p.command p.operands.length word then
      .ok { p with operands := p.operands ++ [word] }
    else .error .usage

def step (p : Progress) (arg : String) : Except Stop Progress :=
  if p.helping then
    match p.command.topic? arg with
    | some c => .ok { p with command := c }
    | none => .error .usage
  else
    match p.pending, p.literal, arg.toList with
    | some _, _, '-' :: _ :: _ => .error .usage
    | some s, _, _ => p.assign s arg
    | none, false, ['-', '-'] => .ok { p with literal := true }
    | none, false, '-' :: '-' :: text => p.long text
    | none, false, '-' :: c :: text => p.shorts (c :: text)
    | none, _, _ => p.word arg

/-- The directory of the values: the one that was given, or that of the environment, or the one
from which paths start. -/
def Progress.dir (p : Progress) (configDir : Option String) : Except Stop String :=
  match p.configDir, configDir with
  | some dir, _ => .ok dir
  | none, some dir => if dir = "" then .error .usage else .ok dir
  | none, none => .ok "."

def Progress.action (p : Progress) (configDir : Option String) : Except Stop Action :=
  match p.command, p.operands with
  | .template, [name] =>
    match Template.parse name with
    | .ok t => .ok (.template t p.output)
    | .error _ => .error .usage
  | .render, [path] => .ok (.render path p.output)
  | .graph, [path] => .ok (.graph path p.output)
  | .wizard, [path] => .ok (.wizard path p.output)
  | .list, [] => (p.dir configDir).map .listValues
  | .add, [category, value] => do
    let dir ← p.dir configDir
    match ValueCategory.parse category with
    | .ok c => return .addValue dir c value
    | .error _ => .error .usage
  | .remove, [category, value] => do
    let dir ← p.dir configDir
    match ValueCategory.parse category with
    | .ok c => return .removeValue dir c value
    | .error _ => .error .usage
  | _, _ => .error .usage

/-- Reads all arguments; `configDir` is the directory that the environment names, if it does. -/
def read (configDir : Option String) (args : List String) : Except Stop Invocation := do
  let p ← args.foldlM step initial
  if p.helping then .error .help
  else if p.pending.isSome then .error .usage
  else return ⟨p.verbose, ← p.action configDir⟩

end Arguments
end FactoryScript
