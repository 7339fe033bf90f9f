import FactoryScript.Proofs.Host.Simulation
import FactoryScript.Proofs.Host.FileTree

/-!
# Commands that make scripts

A generator command reads its whole document before anything else (`exists_run_perform`). Without
its script it does nothing more; with it, it prints the script, whose last line it ends if need be,
or writes the script as it is.
-/

namespace FactoryScript
open Text

/-! ## Ends of scripts -/

namespace Text

/-- The text ends in one line end, or it is one line end short of that. -/
def EndsOnce (s : String) : Prop :=
  ∃ line : String, line.toList.getLast? ≠ some '\n' ∧ (s = line ∨ s = line ++ "\n")

/-- The text with a line end, unless it has one. -/
def ended (s : String) : String := if s.toList.getLast? = some '\n' then s else s ++ "\n"

theorem EndsOnce.exists_ended_eq {s : String} (h : EndsOnce s) :
    ∃ line : String, line.toList.getLast? ≠ some '\n' ∧ (s = line ∨ s = line ++ "\n") ∧
      ended s = line ++ "\n" := by
  obtain ⟨line, hline, rfl | rfl⟩ := h
  · exact ⟨s, hline, .inl rfl, if_neg hline⟩
  · exact ⟨line, hline, .inr rfl, if_pos (by simp)⟩

theorem endsOnce_trimEnd (s : String) : EndsOnce (trimEnd s) := by
  refine ⟨trimEnd s, fun h => ?_, .inl rfl⟩
  rw [trimEnd, String.toList_ofList, dropEnd, List.getLast?_reverse] at h
  have hblank := List.head?_dropWhile_not isBlank s.toList.reverse
  rw [h] at hblank
  cases hblank

end Text

theorem Program.endsOnce_script (p : Program) : EndsOnce p.script := endsOnce_trimEnd _

theorem Graph.endsOnce_script (triggers : List GraphTrigger) :
    EndsOnce (Graph.script triggers) := by
  rw [Graph.script]
  split
  · exact ⟨placeholder, by decide, .inl rfl⟩
  · exact endsOnce_trimEnd _

theorem WizardLayout.endsOnce_script (w : WizardLayout) : EndsOnce w.script := by
  obtain ⟨before, hbefore⟩ : ∃ before, w.lines = before ++ ["END"] := by
    rw [lines]
    exact ⟨_, rfl⟩
  refine ⟨String.join (before.map (· ++ "\n")) ++ "END", by simp, .inr ?_⟩
  rw [script, hbefore]
  simp [String.append_assoc]

/-! ## Documents -/

/-- The document in what has been read at a path. There is none if no text could be read, or if the
text is not the whole of a document that is accepted. -/
def Command.document {α : Type} (read : Reader α) (path : String) :
    Except FileError String → Except String α
  | .error _ => .error ("failed to read " ++ path)
  | .ok text =>
    match read.ofText text with
    | .error _ => .error ("invalid JSON in " ++ path)
    | .ok a => .ok a

section
variable {m : Type → Type} [Monad m] [Host m] {α : Type}

/-- A document is read from what the host finds under its path, and nothing but notes is left
behind. -/
theorem exists_run_readDocument (R : Simulation m) (read : Reader α) (path : String) (w : World) :
    ∃ notes, R.run (Command.readDocument read path) w =
      (Command.document read path (R.texts (w.noting notes) path), w.noting notes) := by
  obtain ⟨notes, hnotes⟩ :=
    R.exists_run_note .command ⟨.debug, "Reading " ++ Text.quoted path⟩ w
  refine ⟨notes, ?_⟩
  rw [Command.readDocument, R.run_bind, Host.tell, hnotes]
  dsimp only
  rw [R.run_bind, R.world_readText, Simulation.texts]
  cases (R.run (Host.readText path) (w.noting notes)).1 with
  | error e => exact R.run_pure ..
  | ok text =>
    dsimp only [Command.document]
    cases read.ofText text with
    | error fault => exact R.run_pure ..
    | ok a => exact R.run_pure ..

/-- A script is made of a document that is there, and then it is printed or written. -/
theorem exists_run_compile (R : Simulation m) {script : α → m String} {made : α → String}
    (hscript : ∀ a w, ∃ notes, R.run (script a) w = (made a, w.noting notes)) (read : Reader α)
    (path : String) (output : Option String) (w : World) :
    ∃ notes more, R.run (Command.compile read path output script) w =
      match (Command.document read path (R.texts (w.noting notes) path)).map made with
      | .error e => (.error e, w.noting notes)
      | .ok code => R.run (Command.emit code output) (w.noting more) := by
  rw [Command.compile]
  obtain ⟨notes, hnotes⟩ := exists_run_readDocument R read path w
  refine ⟨notes, ?_⟩
  rw [R.run_bind, hnotes]
  cases Command.document read path (R.texts (w.noting notes) path) with
  | error e => exact ⟨[], R.run_pure ..⟩
  | ok a =>
    obtain ⟨more, hmore⟩ := R.exists_run_bind (hscript a (w.noting notes))
      fun code => Command.emit code output
    rw [World.noting_noting] at hmore
    exact ⟨notes ++ more, hmore⟩

/-- Building a template gives its script and leaves nothing but notes behind. -/
theorem exists_run_buildTemplate (R : Simulation m) (t : Template) (w : World) :
    ∃ notes, R.run (Command.buildTemplate t : m String) w = (t.program.script, w.noting notes) := by
  obtain ⟨notes, hnotes⟩ := R.exists_run_bind
    (R.exists_run_note .command ⟨.info, "Rendering template: " ++ t.name⟩ w) fun _ => do
      Host.tell .template .debug ("Building template: " ++ t.name)
      return t.program.script
  obtain ⟨more, hmore⟩ := R.exists_run_tell .template .debug ("Building template: " ++ t.name)
    t.program.script (w.noting notes)
  refine ⟨notes ++ more, ?_⟩
  rw [Command.buildTemplate, Host.tell, hnotes, hmore, World.noting_noting]

/-- So does building a graph. -/
theorem exists_run_buildGraph (R : Simulation m) (triggers : List GraphTrigger) (w : World) :
    ∃ notes, R.run (Command.buildGraph triggers : m String) w =
      (Graph.script triggers, w.noting notes) := by
  have hloop := R.exists_run_forM (fun (t : GraphTrigger) w => R.exists_run_note .graph
    ⟨.debug, "Skipping trigger '" ++ t.name ++ "' without connections"⟩ w)
    (triggers.filter fun t => t.connections.isEmpty) w
  obtain ⟨notes, hnotes⟩ := R.exists_run_bind hloop fun _ =>
    (pure (Graph.script triggers) : m String)
  exact ⟨notes, hnotes.trans (R.run_pure ..)⟩

end

/-! ## Generator commands -/

/-- A command that makes a script. -/
inductive Generator
  | template (t : Template)
  | render (path : String)
  | graph (path : String)
  | wizard (path : String)
  deriving DecidableEq, Repr

namespace Generator

def action (output : Option String) : Generator → Action
  | template t => .template t output
  | render path => .render path output
  | graph path => .graph path output
  | wizard path => .wizard path output

/-- The script that the command makes of what is read at the path of its document. -/
def script (texts : String → Except FileError String) : Generator → Except String String
  | template t => .ok t.program.script
  | render path => (Command.document Program.read path (texts path)).map Program.script
  | graph path => (Command.document Graph.read path (texts path)).map Graph.script
  | wizard path => (Command.document WizardLayout.read path (texts path)).map WizardLayout.script

/-- All four generators end their script with one line break. -/
theorem endsOnce_script {g : Generator} {texts : String → Except FileError String} {code : String}
    (h : g.script texts = .ok code) : EndsOnce code := by
  cases g with
  | template t =>
    obtain rfl := Except.ok.inj h
    exact t.program.endsOnce_script
  | render path =>
    obtain ⟨p, -, rfl⟩ := Except.map_eq_ok_iff.1 h
    exact p.endsOnce_script
  | graph path =>
    obtain ⟨triggers, -, rfl⟩ := Except.map_eq_ok_iff.1 h
    exact Graph.endsOnce_script triggers
  | wizard path =>
    obtain ⟨layout, -, rfl⟩ := Except.map_eq_ok_iff.1 h
    exact layout.endsOnce_script

variable {m : Type → Type} [Monad m] [Host m]

/-- Nothing but messages comes before the script is there. -/
theorem exists_run_perform (R : Simulation m) (g : Generator) (output : Option String) (w : World) :
    ∃ notes more, R.run (Command.perform (g.action output)) w =
      match g.script (R.texts (w.noting notes)) with
      | .error e => (.error e, w.noting notes)
      | .ok code => R.run (Command.emit code output) (w.noting more) := by
  cases g with
  | template t =>
    exact ⟨[], R.exists_run_bind (exists_run_buildTemplate R t w) fun code =>
      Command.emit code output⟩
  | render path => exact exists_run_compile R (fun _ => R.exists_run_pure _) ..
  | graph path => exact exists_run_compile R (exists_run_buildGraph R) ..
  | wizard path => exact exists_run_compile R (fun _ => R.exists_run_pure _) ..

end Generator

/-! ## Delivering a script -/

section
variable {m : Type → Type} [Monad m] [Host m]

/-- What is done with a script when all warnings have been given. -/
def deliver (code : String) : Option String → m (Except String Unit)
  | some path => do
    match ← exportScript path code with
    | .ok () => return .ok ()
    | .error _ => return .error ("failed to export to " ++ path)
  | none => do
    Host.print (ended code)
    return .ok ()

theorem exists_run_emit (R : Simulation m) (code : String) (output : Option String) (w : World) :
    ∃ notes, R.run (Command.emit code output) w = R.run (deliver code output) (w.noting notes) := by
  rw [Command.emit.eq_def]
  dsimp only
  split
  · exact R.exists_run_bind (R.exists_run_note ..) fun _ => deliver code output
  · exact ⟨[], by rw [Simulation.noting_nil]; rfl⟩

theorem run_deliver_none (R : Simulation m) (code : String) (w : World) :
    R.run (deliver code none) w = (.ok (), { w with printed := w.printed ++ ended code }) := by
  rw [deliver, R.run_bind, R.run_print, R.run_pure]

/-- A script that goes to a file is written there or reported as not exported, and not printed. -/
theorem exists_run_deliver_some (R : Simulation m) (code path : String) (w : World) :
    ∃ r u notes, R.run (Host.writeText path code) w = (r, w.withFiles u) ∧
      w.files.Written w.home path code r u ∧
      R.run (deliver code (some path)) w =
        (r.mapError fun _ => "failed to export to " ++ path, (w.withFiles u).noting notes) := by
  obtain ⟨r, u, hrun, hwritten⟩ := R.exists_run_writeText path code w
  have hexport : ∃ notes, R.run (exportScript path code) w =
      (r.mapError fun cause => ⟨path, cause⟩, (w.withFiles u).noting notes) := by
    rw [exportScript, R.run_bind, hrun]
    cases r with
    | error cause => exact R.exists_run_pure ..
    | ok a => exact R.exists_run_tell ..
  obtain ⟨notes, hnotes⟩ := hexport
  refine ⟨r, u, notes, hrun, hwritten, ?_⟩
  rw [deliver, R.run_bind, hnotes]
  cases r with
  | error cause => exact R.run_pure ..
  | ok a => exact R.run_pure ..

end

/-! ## Processes -/

/-- A command line for a generator command. -/
structure GeneratorLine where
  configDir : Option String
  args : List String
  verbose : Bool
  command : Generator
  output : Option String
  read_eq : Arguments.read configDir args = .ok ⟨verbose, command.action output⟩

namespace GeneratorLine
variable {m : Type → Type} [Monad m] [Host m] {R : Simulation m} {l : GeneratorLine} {w : World}
  {code : String}

/-- How the process of a command line ends, and the world after it. -/
def process (R : Simulation m) (l : GeneratorLine) (w : World) : Ending × World :=
  R.run (Command.run l.configDir l.args) w

/-- The host of the process, which drops the messages that are not asked for. -/
def host (R : Simulation m) (l : GeneratorLine) : Simulation (Host.Quiet m) :=
  R.quiet (Command.threshold l.verbose)

/-- The process has failed and left files and output alone. -/
structure Failed (R : Simulation m) (l : GeneratorLine) (w : World) (error : String) : Prop where
  ending_eq : (l.process R w).1 = ⟨1, some error⟩
  files_eq : (l.process R w).2.files = w.files
  printed_eq : (l.process R w).2.printed = w.printed

/-- The process has printed the script, up to the line end at its end, and then one line end, and
has left the files alone. -/
structure Printed (R : Simulation m) (l : GeneratorLine) (w : World) (code : String) : Prop where
  ending_eq : (l.process R w).1 = ⟨0, none⟩
  files_eq : (l.process R w).2.files = w.files
  printed_eq : ∃ line : String, line.toList.getLast? ≠ some '\n' ∧
    (code = line ∨ code = line ++ "\n") ∧ (l.process R w).2.printed = w.printed ++ (line ++ "\n")

/-- The process has printed nothing and, unless writing failed, the file has the script and nothing
else has changed. -/
structure Written (R : Simulation m) (l : GeneratorLine) (w : World) (code path : String) :
    Prop where
  printed_eq : (l.process R w).2.printed = w.printed
  written : ∃ notes, match (l.host R |>.run (Host.writeText path code) (w.noting notes)).1 with
    | .ok () => (l.process R w).1 = ⟨0, none⟩ ∧
      w.files.Replaced (l.process R w).2.files w.home path code
    | .error _ => (l.process R w).1 = ⟨1, some ("failed to export to " ++ path)⟩

/-- The process reads all that it reads in one world, in which so far only messages have been added.
It fails without its script, and delivers the script otherwise. -/
theorem exists_process_eq (R : Simulation m) (l : GeneratorLine) (w : World) : ∃ notes,
    (∀ e, l.command.script ((l.host R).texts (w.noting notes)) = .error e →
      l.process R w = (⟨1, some e⟩, w.noting notes)) ∧
    ∀ code, l.command.script ((l.host R).texts (w.noting notes)) = .ok code →
      ∃ more, ∀ r u, (l.host R).run (deliver code l.output) (w.noting more) = (r, u) →
        l.process R w = (Command.ending r, u) := by
  obtain ⟨notes, before, hperform⟩ :=
    Generator.exists_run_perform (l.host R) l.command l.output w
  refine ⟨notes, fun e h => ?_, fun code h => ?_⟩
  · rw [h] at hperform
    exact Command.run_of_read R l.read_eq hperform
  · rw [h] at hperform
    obtain ⟨more, hemit⟩ := exists_run_emit (l.host R) code l.output (w.noting before)
    rw [World.noting_noting] at hemit
    exact ⟨before ++ more, fun r u hrun =>
      Command.run_of_read R l.read_eq (hperform.trans (hemit.trans hrun))⟩

theorem failed {e : String} {notes : List (Topic × Note)}
    (hprocess : l.process R w = (⟨1, some e⟩, w.noting notes)) : l.Failed R w e := by
  constructor <;> rw [hprocess] <;> rfl

/-- Delivering a script without an output file is printing it. -/
theorem printed {notes : List (Topic × Note)} (hends : EndsOnce code) (houtput : l.output = none)
    (hdeliver : ∀ r u, (l.host R).run (deliver code l.output) (w.noting notes) = (r, u) →
      l.process R w = (Command.ending r, u)) : l.Printed R w code := by
  rw [houtput] at hdeliver
  have hprocess := hdeliver _ _ (run_deliver_none (l.host R) code (w.noting notes))
  obtain ⟨line, hline, hcode, hended⟩ := hends.exists_ended_eq
  refine ⟨?_, ?_, line, hline, hcode, ?_⟩
  · rw [hprocess]
    rfl
  · rw [hprocess]
    rfl
  · rw [hprocess, ← hended]
    rfl

/-- Delivering a script to an output file writes that file, or fails to. -/
theorem written {path : String} {notes : List (Topic × Note)} (houtput : l.output = some path)
    (hdeliver : ∀ r u, (l.host R).run (deliver code l.output) (w.noting notes) = (r, u) →
      l.process R w = (Command.ending r, u)) : l.Written R w code path := by
  rw [houtput] at hdeliver
  obtain ⟨r, u, more, hwrite, hwritten, hrun⟩ :=
    exists_run_deliver_some (l.host R) code path (w.noting notes)
  have hprocess := hdeliver _ _ hrun
  refine ⟨by rw [hprocess]; rfl, notes, ?_⟩
  rw [hwrite, hprocess]
  cases hwritten with
  | done hfiles => exact ⟨rfl, FileTree.replaced_of_writeText hfiles⟩
  | failed e => rfl
  | torn e hpart => rfl

/-- A command makes its script of what it reads, which is the text of its document unless reading
fails. Without its script, whatever is wrong with the document, it fails, and neither prints
anything nor changes a file. With its script, it prints that script with one line end at its end and
changes no file, or, if an output file is named, it prints nothing and that file holds exactly the
script, unless writing it fails. -/
theorem generates_allOrNothing (R : Simulation m) (l : GeneratorLine) (w : World) : ∃ notes,
    let texts := (l.host R).texts (w.noting notes)
    (∀ path, w.files.Fetched w.home path (texts path)) ∧
    (∀ e, l.command.script texts = .error e → l.Failed R w e) ∧
    (∀ code, l.command.script texts = .ok code → l.output = none → l.Printed R w code) ∧
    (∀ code path, l.command.script texts = .ok code → l.output = some path →
      l.Written R w code path) := by
  obtain ⟨notes, hfails, hdelivers⟩ := exists_process_eq R l w
  refine ⟨notes, fun path => (l.host R).fetched_readText path (w.noting notes), fun e he => ?_,
    fun code hcode houtput => ?_, fun code path hcode houtput => ?_⟩
  · exact failed (hfails e he)
  · obtain ⟨more, hdeliver⟩ := hdelivers code hcode
    exact printed (Generator.endsOnce_script hcode) houtput hdeliver
  · obtain ⟨more, hdeliver⟩ := hdelivers code hcode
    exact written houtput hdeliver

/-- The initial world with a document, and a script from before. -/
def withDocument (text : String) : World :=
  { World.initial with
    files := (World.initial.files.put ["home", "in.json"] (.file text.toUTF8)).put
      ["home", "out.sfm"] (.file "old".toUTF8) }

def wizardToFile : GeneratorLine where
  configDir := none
  args := ["wizard", "in.json", "-o", "out.sfm"]
  verbose := false
  command := .wizard "in.json"
  output := some "out.sfm"
  read_eq := by decide +kernel

def renderToOutput : GeneratorLine where
  configDir := none
  args := ["render", "in.json", "-v"]
  verbose := true
  command := .render "in.json"
  output := none
  read_eq := by decide +kernel

/-- The texts of the initial world with a document. -/
def textsWith (text : String) : String → Except FileError String :=
  (withDocument text).files.readText [World.homeName]

/-- A layout that breaks off leaves the script from before; an empty layout replaces it; an empty
program is a line end alone; and a document that may not be read is none, whatever it holds. -/
theorem generates_allOrNothing_wizard :
    wizardToFile.Failed .direct (withDocument "\x7b") "invalid JSON in in.json" ∧
      wizardToFile.Written .direct (withDocument "\x7b\x7d") "EVERY 20 TICKS DO\nEND\n" "out.sfm" ∧
      renderToOutput.Printed .direct (withDocument "\x7b\x7d") "" ∧
      (renderToOutput.process .direct (withDocument "\x7b\x7d")).2.printed = "\n" ∧
      renderToOutput.Failed (.locked (· == "in.json")) (withDocument "\x7b\x7d")
        "failed to read in.json" := by
  have hbroken : wizardToFile.command.script (textsWith "\x7b") =
      .error "invalid JSON in in.json" := by decide +kernel
  have hlayout : wizardToFile.command.script (textsWith "\x7b\x7d") =
      .ok "EVERY 20 TICKS DO\nEND\n" := by decide +kernel
  have hprogram : renderToOutput.command.script (textsWith "\x7b\x7d") = .ok "" := by
    decide +kernel
  obtain ⟨_, -, hfailed, -⟩ := generates_allOrNothing .direct wizardToFile (withDocument "\x7b")
  obtain ⟨_, -, -, -, hwritten⟩ :=
    generates_allOrNothing .direct wizardToFile (withDocument "\x7b\x7d")
  obtain ⟨_, -, -, hprinted, -⟩ :=
    generates_allOrNothing .direct renderToOutput (withDocument "\x7b\x7d")
  obtain ⟨_, -, hdenied, -⟩ := generates_allOrNothing (.locked (· == "in.json")) renderToOutput
    (withDocument "\x7b\x7d")
  exact ⟨hfailed _ hbroken, hwritten _ _ hlayout rfl, hprinted _ hprogram rfl, by decide +kernel,
    hdenied _ rfl⟩

end GeneratorLine
end FactoryScript
