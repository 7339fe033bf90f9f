import FactoryScript.Proofs.Json.Plain

/-!
# Proper values

A value that any reader can go through from one end to the other: it has no flaw, and no object has
two members with one key. Such a value can be skipped (`Json.Proper.skipMember`), and it can be
taken as a whole unless it nests too deeply (`Json.Proper.take`).
-/

namespace FactoryScript.Json

/-- The value is JSON, and the keys of each of its objects are distinct. -/
inductive Proper : Json → Prop
  | null : Proper .null
  | bool (b : Bool) : Proper (.bool b)
  | number (numeral : String) : Proper (.number numeral)
  | string (s : String) : Proper (.string s)
  | array {items : List Json} (hitems : ∀ v ∈ items, Proper v) : Proper (.array items)
  | object {members : List (String × Json)} (hkeys : (members.map Prod.fst).Nodup)
      (hmembers : ∀ m ∈ members, Proper m.2) : Proper (.object members)

namespace Proper
variable {items : List Json} {members : List (String × Json)} {v : Json} {room : Nat}

@[simp] theorem null_iff : Proper .null ↔ True := iff_true_intro .null

@[simp] theorem number_iff {numeral : String} : Proper (.number numeral) ↔ True :=
  iff_true_intro (.number numeral)

@[simp] theorem string_iff {s : String} : Proper (.string s) ↔ True := iff_true_intro (.string s)

@[simp] theorem array_iff : Proper (.array items) ↔ ∀ v ∈ items, v.Proper := by
  refine ⟨fun h => ?_, .array⟩
  cases h with
  | array hitems => exact hitems

@[simp] theorem object_iff :
    Proper (.object members) ↔ (members.map Prod.fst).Nodup ∧ ∀ m ∈ members, m.2.Proper := by
  refine ⟨fun h => ?_, fun h => .object h.1 h.2⟩
  cases h with
  | object hkeys hmembers => exact ⟨hkeys, hmembers⟩

theorem of_mem_items (h : Proper (.array items)) : ∀ v ∈ items, v.Proper := array_iff.1 h

theorem nodup_keys (h : Proper (.object members)) : (members.map Prod.fst).Nodup :=
  (object_iff.1 h).1

theorem of_mem_members (h : Proper (.object members)) : ∀ m ∈ members, m.2.Proper :=
  (object_iff.1 h).2

/-! ## Going through a value -/

/-- A proper value has no fault but that of being nested too deep. -/
theorem firstFault (h : v.Proper) (hdepth : v.depth ≤ room) : v.firstFault room = none := by
  induction h generalizing room with
  | null | bool b | number numeral | string s => rfl
  | array hitems ih =>
    rw [depth] at hdepth
    have hroom : room ≠ 0 := by omega
    rw [Json.firstFault, if_neg hroom, firstFaultItems_eq_none_iff]
    exact fun v hv => ih v hv (depthItems_le_iff.1 (Nat.le_sub_one_of_lt hdepth) v hv)
  | object hkeys hmembers ih =>
    rw [depth] at hdepth
    have hroom : room ≠ 0 := by omega
    rw [Json.firstFault, if_neg hroom, firstFaultMembers_eq_none_iff]
    exact fun m hm => ih m hm (depthMembers_le_iff.1 (Nat.le_sub_one_of_lt hdepth) m hm)

theorem take (h : v.Proper) (hdepth : v.depth ≤ room) : v.take room = .ok () := by
  rw [Json.take, h.firstFault hdepth]
  rfl

theorem skipFault (h : v.Proper) : v.skipFault = none := by
  induction h with
  | null | bool b | number numeral | string s => rfl
  | array hitems ih => exact skipFaultItems_eq_none_iff.2 ih
  | object hkeys hmembers ih => exact skipFaultMembers_eq_none_iff.2 ih

theorem skipMember (h : v.Proper) : v.skipMember = .ok () := by
  have hskip : v.skip = .ok () := by
    rw [Json.skip, h.skipFault]
    rfl
  cases h <;> exact hskip

end Proper
end FactoryScript.Json
