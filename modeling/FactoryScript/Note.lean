import FactoryScript.Text.Basic

/-!
# Messages

What a program tells its user beside its results. A message has a level, and those below a
threshold are dropped.
-/

namespace FactoryScript

/-- How urgent a message is, least urgent first. -/
inductive Level
  | debug | info | warn
  deriving DecidableEq, Repr

namespace Level

def label : Level → String
  | debug => "DEBUG"
  | info => "INFO"
  | warn => "WARN"

/-- Messages of the second level are shown when the first one is asked for. -/
def admits : Level → Level → Bool
  | debug, _ => true
  | info, l => l != debug
  | warn, l => l == warn

end Level

structure Note where
  level : Level
  text : String
  deriving DecidableEq, Repr

inductive Topic
  | command | template | graph | store | output
  deriving DecidableEq, Repr

def Topic.name : Topic → String
  | command => "sfm"
  | template => "sfm_program::template"
  | graph => "sfm_graph::compile"
  | store => "sfm_config::store"
  | output => "sfm_editor::export"

/-- The line that shows a message on a terminal. -/
def Note.line (topic : Topic) (n : Note) : String :=
  n.level.label ++ " " ++ topic.name ++ ": " ++ Text.forTerminal n.text

end FactoryScript
