/-!
# Enumerations with names

Most choices in a document are one of a few names. A type with `Named` lists its values, each with
a name of its own, so that a name can be looked up again (`Named.ofName?_name`).
-/

namespace FactoryScript

/-- A finite type whose values have distinct names. -/
class Named (α : Type) where
  /-- Every value, in the order in which choices are offered. -/
  all : List α
  /-- The written name of a value. -/
  name : α → String
  mem_all : ∀ a, a ∈ all
  nodup_names : (all.map name).Nodup

namespace Named
variable {α : Type} [Named α]

def ofName? (s : String) : Option α := all.find? fun a => name a == s

def ofIndex? (i : Nat) : Option α := all[i]?

theorem name_of_ofName? {s : String} {a : α} (h : ofName? s = some a) : name a = s := by
  simpa using List.find?_some h

private theorem eq_of_nodup_map {β γ : Type} {f : β → γ} {l : List β} (h : (l.map f).Nodup)
    {a b : β} (ha : a ∈ l) (hb : b ∈ l) (hf : f a = f b) : a = b := by
  induction l with
  | nil => cases ha
  | cons c l ih =>
    simp only [List.map_cons, List.nodup_cons] at h
    rcases List.mem_cons.1 ha with rfl | ha' <;> rcases List.mem_cons.1 hb with rfl | hb'
    · rfl
    · exact absurd (hf ▸ List.mem_map_of_mem hb') h.1
    · exact absurd (hf ▸ List.mem_map_of_mem ha') h.1
    · exact ih h.2 ha' hb'

theorem name_injective {a b : α} (h : name a = name b) : a = b :=
  eq_of_nodup_map nodup_names (mem_all a) (mem_all b) h

@[simp] theorem ofName?_name (a : α) : ofName? (name a) = some a := by
  cases h : (ofName? (name a) : Option α) with
  | none => simpa using List.find?_eq_none.1 h a (mem_all a)
  | some b => exact congrArg some (name_injective (name_of_ofName? h))

end Named
end FactoryScript
