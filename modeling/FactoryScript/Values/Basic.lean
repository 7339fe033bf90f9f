import FactoryScript.Json.Print
import FactoryScript.Json.Record
import FactoryScript.Resource

/-!
# Common values

Short lists of labels and identifiers that are typed often. They are suggestions only, in five
categories: one for labels and one for each kind of resource.
-/

namespace FactoryScript

inductive ValueCategory
  | label | item | fluid | energy | gas
  deriving DecidableEq, Repr

namespace ValueCategory

def name : ValueCategory → String
  | label => "label" | item => "item" | fluid => "fluid" | energy => "energy" | gas => "gas"

def ofKind : ResourceKind → ValueCategory
  | .item => item
  | .fluid => fluid
  | .energy => energy
  | .gas => gas

end ValueCategory

instance : Named ValueCategory where
  all := [.label, .item, .fluid, .energy, .gas]
  name := ValueCategory.name
  mem_all c := by cases c <;> decide
  nodup_names := by decide

namespace ValueCategory

/-- The category that a lower-case word names; most have a plural, and the words for kinds of
resources name them too. -/
def ofWord? (word : String) : Option ValueCategory :=
  if word = "label" ∨ word = "labels" then some label
  else if word = "items" then some item
  else if word = "fluids" then some fluid
  else if word = "gases" then some gas
  else (ResourceKind.ofWord? word).map ofKind

/-- Reads a category as typed: case and surrounding white space do not matter. -/
def parse (s : String) : Except String ValueCategory :=
  let word := (Text.trim s).toLower
  match ofWord? word with
  | some c => .ok c
  | none => .error ("unknown value category: " ++ word)

end ValueCategory

structure CommonValues where
  labels : List String
  items : List String
  fluids : List String
  energies : List String
  gases : List String
  deriving DecidableEq, Repr

namespace CommonValues

def empty : CommonValues := ⟨[], [], [], [], []⟩

def list (v : CommonValues) : ValueCategory → List String
  | .label => v.labels
  | .item => v.items
  | .fluid => v.fluids
  | .energy => v.energies
  | .gas => v.gases

def idsFor (v : CommonValues) (kind : ResourceKind) : List String := v.list (.ofKind kind)

def withList (v : CommonValues) (c : ValueCategory) (l : List String) : CommonValues :=
  match c with
  | .label => { v with labels := l }
  | .item => { v with items := l }
  | .fluid => { v with fluids := l }
  | .energy => { v with energies := l }
  | .gas => { v with gases := l }

/-- Adds a value, trimmed, and says whether the list changed; a blank value and one that is listed
are not added. -/
def add (v : CommonValues) (c : ValueCategory) (value : String) : Bool × CommonValues :=
  let value := Text.trim value
  if value = "" ∨ value ∈ v.list c then (false, v) else (true, v.withList c (v.list c ++ [value]))

/-- Removes a value, trimmed, and says whether the list changed. -/
def remove (v : CommonValues) (c : ValueCategory) (value : String) : Bool × CommonValues :=
  let value := Text.trim value
  ((v.list c).contains value, v.withList c ((v.list c).filter (· != value)))

def isEmpty (v : CommonValues) : Bool :=
  (Named.all : List ValueCategory).all fun c => (v.list c).isEmpty

/-! ## Documents -/

def fields : Fields Json CommonValues :=
  Fields.done CommonValues.mk
    |>.optional "Labels" (Json.readList Json.readText) []
    |>.optional "ItemIds" (Json.readList Json.readText) []
    |>.optional "FluidIds" (Json.readList Json.readText) []
    |>.optional "EnergyIds" (Json.readList Json.readText) []
    |>.optional "GasIds" (Json.readList Json.readText) []

def read : Reader CommonValues := Json.readRecord fields

def listJson (l : List String) : Json := .array (l.map .string)

def toJson (v : CommonValues) : Json :=
  .object [("Labels", listJson v.labels), ("ItemIds", listJson v.items),
    ("FluidIds", listJson v.fluids), ("EnergyIds", listJson v.energies),
    ("GasIds", listJson v.gases)]

def pretty (v : CommonValues) : String := v.toJson.pretty

end CommonValues
end FactoryScript
