import FactoryScript.Budget
import FactoryScript.Count
import FactoryScript.Graph.Basic
import FactoryScript.Host.Basic

/-!
# Edits

A session is edited by operations that may fail. `Edit σ α` is an operation on sessions of type
`σ`: whether it fails or not, it leaves a session behind, and the messages that it sent. What a
session makes of its model, a script, is exported to a file as it is.
-/

namespace FactoryScript

inductive EditError
  | noTrigger
  | notACount (e : NotACount)
  | triggerNotFound (index : Nat)
  | statementNotFound (index : Nat)
  | rowNotFound (index : Nat)
  | graph (e : GraphError)
  deriving DecidableEq, Repr

def EditError.message : EditError → String
  | noTrigger => "No trigger selected"
  | notACount e => e.message
  | triggerNotFound index => "Trigger not found: " ++ index.repr
  | statementNotFound index => "Statement not found: " ++ index.repr
  | rowNotFound index => "Wizard entry not found: " ++ index.repr
  | graph e => "Graph error: " ++ e.message

structure Outcome (σ α : Type) where
  result : Except EditError α
  session : σ
  notes : List Note

def Edit (σ α : Type) := σ → Outcome σ α

namespace Edit
variable {σ α β : Type}

protected def pure (a : α) : Edit σ α := fun s => ⟨.ok a, s, []⟩

/-- One edit after another; the second one is left out if the first one fails. -/
protected def bind (x : Edit σ α) (f : α → Edit σ β) : Edit σ β := fun s =>
  match x s with
  | ⟨.ok a, s, notes⟩ =>
    let next := f a s
    ⟨next.result, next.session, notes ++ next.notes⟩
  | ⟨.error e, s, notes⟩ => ⟨.error e, s, notes⟩

instance : Monad (Edit σ) where
  pure := Edit.pure
  bind := Edit.bind

def fail (e : EditError) : Edit σ α := fun s => ⟨.error e, s, []⟩

def ofExcept {ε : Type} (wrap : ε → EditError) : Except ε α → Edit σ α
  | .ok a => Edit.pure a
  | .error e => fail (wrap e)

def session : Edit σ σ := fun s => ⟨.ok s, s, []⟩

def modify (f : σ → σ) : Edit σ Unit := fun s => ⟨.ok (), f s, []⟩

def tell (level : Level) (text : String) : Edit σ Unit := fun s => ⟨.ok (), s, [⟨level, text⟩]⟩

end Edit

/-! ## Exports -/

structure ExportError where
  path : String
  cause : FileError
  deriving DecidableEq, Repr

def ExportError.message (e : ExportError) : String :=
  "failed to write " ++ e.path ++ ": " ++ e.cause.text

def exportScript {m : Type → Type} [Monad m] [Host m] (path code : String) :
    m (Except ExportError Unit) := do
  match ← Host.writeText path code with
  | .error cause => return .error ⟨path, cause⟩
  | .ok () =>
    Host.tell .output .info
      ("Exported " ++ code.length.repr ++ " characters to " ++ Text.quoted path)
    return .ok ()

end FactoryScript
