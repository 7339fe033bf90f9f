import FactoryScript.Json.Print
import FactoryScript.Json.Record

/-!
# Plain values

The values that are written: nothing in them is flawed, and their numbers are counts. All that can
keep such a value from being taken as a whole is its depth (`Json.Plain.take`).
-/

namespace FactoryScript.Json

mutual

/-- No part of the value is a flaw, and its numbers are counts. -/
def Plain : Json → Prop
  | .number numeral => ∃ n : UInt32, numeral = n.toNat.repr
  | .array items => PlainItems items
  | .object members => PlainMembers members
  | .flaw _ => False
  | _ => True

def PlainItems : List Json → Prop
  | [] => True
  | v :: rest => v.Plain ∧ PlainItems rest

def PlainMembers : List (String × Json) → Prop
  | [] => True
  | (_, v) :: rest => v.Plain ∧ PlainMembers rest

end

theorem plain_count (n : UInt32) : (count n.toNat).Plain := ⟨n, rfl⟩

theorem plainItems_iff {items : List Json} : PlainItems items ↔ ∀ v ∈ items, v.Plain := by
  induction items with
  | nil => simp [PlainItems]
  | cons v rest ih => simp [PlainItems, ih]

theorem plainMembers_iff {members : List (String × Json)} :
    PlainMembers members ↔ ∀ m ∈ members, m.2.Plain := by
  induction members with
  | nil => simp [PlainMembers]
  | cons m rest ih => simp [PlainMembers, ih]

theorem plainMembers_append {members more : List (String × Json)} :
    PlainMembers (members ++ more) ↔ PlainMembers members ∧ PlainMembers more := by
  simp [plainMembers_iff, or_imp, forall_and]

theorem plainMembers_optionalMember {α : Type} {key : String} {write : α → Json} {o : Option α}
    (h : ∀ a, (write a).Plain) : PlainMembers (optionalMember key write o) := by
  cases o with
  | none => trivial
  | some a => exact ⟨h a, trivial⟩

/-- A bound on the deeper one of two values is asked of one after the other. -/
theorem ite_max_le {α : Type} (m n room : Nat) (a b : α) :
    (if max m n ≤ room then a else b) = if m ≤ room then (if n ≤ room then a else b) else b := by
  by_cases hm : m ≤ room
  · by_cases hn : n ≤ room
    · rw [if_pos hm, if_pos hn, if_pos (Nat.max_le.2 ⟨hm, hn⟩)]
    · rw [if_pos hm, if_neg hn, if_neg fun h => hn (Nat.max_le.1 h).2]
  · rw [if_neg hm, if_neg fun h => hm (Nat.max_le.1 h).1]

theorem depthMembers_append (members more : List (String × Json)) :
    depthMembers (members ++ more) = max (depthMembers members) (depthMembers more) := by
  induction members with
  | nil => simp [depthMembers]
  | cons m rest ih => simp [depthMembers, ih, Nat.max_assoc]

theorem depthItems_le_iff {items : List Json} {n : Nat} :
    depthItems items ≤ n ↔ ∀ v ∈ items, v.depth ≤ n := by
  induction items with
  | nil => simp [depthItems]
  | cons v rest ih => rw [depthItems, Nat.max_le, ih, List.forall_mem_cons]

theorem depthMembers_le_iff {members : List (String × Json)} {n : Nat} :
    depthMembers members ≤ n ↔ ∀ m ∈ members, m.2.depth ≤ n := by
  induction members with
  | nil => simp [depthMembers]
  | cons m rest ih => rw [depthMembers, Nat.max_le, ih, List.forall_mem_cons]

theorem depth_lt_of_mem_items {items : List Json} {v : Json} (h : v ∈ items) :
    v.depth < (array items).depth :=
  Nat.lt_succ_of_le (depthItems_le_iff.1 (Nat.le_refl _) v h)

theorem depth_lt_of_mem_members {members : List (String × Json)} {m : String × Json}
    (h : m ∈ members) : m.2.depth < (object members).depth :=
  Nat.lt_succ_of_le (depthMembers_le_iff.1 (Nat.le_refl _) m h)

/-! ## Faults inside a value -/

theorem firstFaultItems_eq_none_iff {items : List Json} {room : Nat} :
    firstFaultItems room items = none ↔ ∀ v ∈ items, v.firstFault room = none := by
  induction items with
  | nil => simp [firstFaultItems]
  | cons v rest ih => simp [firstFaultItems, ih]

theorem firstFaultMembers_eq_none_iff {members : List (String × Json)} {room : Nat} :
    firstFaultMembers room members = none ↔ ∀ m ∈ members, m.2.firstFault room = none := by
  induction members with
  | nil => simp [firstFaultMembers]
  | cons m rest ih => simp only [firstFaultMembers, List.forall_mem_cons, ← ih]; simp

theorem skipFaultItems_eq_none_iff {items : List Json} :
    skipFaultItems items = none ↔ ∀ v ∈ items, v.skipFault = none := by
  induction items with
  | nil => simp [skipFaultItems]
  | cons v rest ih => simp [skipFaultItems, ih]

theorem skipFaultMembers_eq_none_iff {members : List (String × Json)} :
    skipFaultMembers members = none ↔ ∀ m ∈ members, m.2.skipFault = none := by
  induction members with
  | nil => simp [skipFaultMembers]
  | cons m rest ih => simp only [skipFaultMembers, List.forall_mem_cons, ← ih]; simp

/-! ## Taking a value as a whole -/

mutual

/-- The only fault that the scan can find in a plain value is that it is nested too deep. -/
theorem Plain.firstFault {v : Json} (h : v.Plain) (room : Nat) :
    v.firstFault room = if v.depth ≤ room then none else some .malformed := by
  cases v with
  | array items =>
    cases room with
    | zero => simp [Json.firstFault, depth]
    | succ room => simpa [Json.firstFault, depth] using PlainItems.firstFault h room
  | object members =>
    cases room with
    | zero => simp [Json.firstFault, depth]
    | succ room => simpa [Json.firstFault, depth] using PlainMembers.firstFault h room
  | flaw f => exact h.elim
  | null | bool b | number s | string s => simp [Json.firstFault, depth]

/-- The same for the items of an array. -/
theorem PlainItems.firstFault {items : List Json} (h : PlainItems items) (room : Nat) :
    firstFaultItems room items = if depthItems items ≤ room then none else some .malformed := by
  cases items with
  | nil => simp [firstFaultItems, depthItems]
  | cons v rest =>
    rw [firstFaultItems, Plain.firstFault h.1 room, PlainItems.firstFault h.2 room, depthItems,
      ite_max_le]
    split <;> rfl

/-- The same for the members of an object. -/
theorem PlainMembers.firstFault {members : List (String × Json)} (h : PlainMembers members)
    (room : Nat) :
    firstFaultMembers room members =
      if depthMembers members ≤ room then none else some .malformed := by
  cases members with
  | nil => simp [firstFaultMembers, depthMembers]
  | cons m rest =>
    obtain ⟨key, v⟩ := m
    rw [firstFaultMembers, Plain.firstFault h.1 room, PlainMembers.firstFault h.2 room,
      depthMembers, ite_max_le]
    split <;> rfl

end

/-- A plain value can be taken as a whole unless it nests too deeply. -/
theorem Plain.take {v : Json} (h : v.Plain) (room : Nat) :
    v.take room = if v.depth ≤ room then .ok () else .error .malformed := by
  rw [Json.take, h.firstFault]
  split <;> rfl

mutual

/-- A value in which no fault is found is not nested deeper than there is room, plain or not. -/
theorem depth_le_of_firstFault {v : Json} {room : Nat} (h : v.firstFault room = none) :
    v.depth ≤ room := by
  cases v with
  | array items =>
    rw [Json.firstFault] at h
    split at h <;> rename_i hroom
    · cases h
    · have hitems := depthItems_le_of_firstFault h
      rw [depth]
      omega
  | object members =>
    rw [Json.firstFault] at h
    split at h <;> rename_i hroom
    · cases h
    · have hmembers := depthMembers_le_of_firstFault h
      rw [depth]
      omega
  | null | bool b | number s | string s | flaw f => exact Nat.zero_le room

theorem depthItems_le_of_firstFault {items : List Json} {room : Nat}
    (h : firstFaultItems room items = none) : depthItems items ≤ room := by
  cases items with
  | nil => exact Nat.zero_le room
  | cons v rest =>
    rw [firstFaultItems, Option.orElse_eq_orElse, Option.orElse_eq_or, Option.or_eq_none_iff] at h
    exact Nat.max_le.2 ⟨depth_le_of_firstFault h.1, depthItems_le_of_firstFault h.2⟩

/-- The same for the members of an object. -/
theorem depthMembers_le_of_firstFault {members : List (String × Json)} {room : Nat}
    (h : firstFaultMembers room members = none) : depthMembers members ≤ room := by
  cases members with
  | nil => exact Nat.zero_le room
  | cons m rest =>
    obtain ⟨key, v⟩ := m
    rw [firstFaultMembers, Option.orElse_eq_orElse, Option.orElse_eq_or, Option.or_eq_none_iff] at h
    exact Nat.max_le.2 ⟨depth_le_of_firstFault h.1, depthMembers_le_of_firstFault h.2⟩

end

/-- A value that has been taken as a whole fits, whatever else is in it. -/
theorem depth_le_of_take {v : Json} {room : Nat} (h : v.take room = .ok ()) : v.depth ≤ room := by
  refine depth_le_of_firstFault ?_
  rw [Json.take] at h
  cases hfault : v.firstFault room with
  | none => rfl
  | some f =>
    rw [hfault] at h
    cases h

/-! ## Reading within a bound -/

/-- The value is read as `a` where it fits, and is malformed where it nests too deeply. -/
def ReadsWithin {α : Type} (room : Nat) (read : Reader α) (v : Json) (a : α) : Prop :=
  read v = if v.depth ≤ room then .ok a else .error .malformed

/-- A container whose reading is that of one value inside it, the one that nests most deeply. -/
theorem ReadsWithin.container {α β : Type} {room : Nat} {read : Reader α} {v : Json} {a : α}
    (h : ReadsWithin room read v a) {outer : Reader β} {w : Json} {make : α → β}
    (houter : outer w = (read v).map make) (hdepth : w.depth = v.depth + 1) :
    ReadsWithin (room + 1) outer w (make a) := by
  have hread : read v = if v.depth ≤ room then .ok a else .error .malformed := h
  simp only [ReadsWithin, houter, hread, hdepth, Nat.add_le_add_iff_right]
  split <;> rfl

/-- A list reads back item by item and takes one level of nesting more than its items. -/
theorem readsWithin_list {α β : Type} {room : Nat} {read : Reader β} {write : α → Json}
    {result : α → β} {l : List α}
    (h : ∀ a ∈ l, ReadsWithin room read (write a) (result a)) :
    ReadsWithin (room + 1) (readList read) (.array (l.map write)) (l.map result) := by
  simp only [ReadsWithin, readList, depth, Nat.add_le_add_iff_right]
  induction l with
  | nil => rfl
  | cons a l ih =>
    obtain ⟨ha, hl⟩ := List.forall_mem_cons.1 h
    rw [List.map_cons, List.mapM_cons, ha, ih hl, depthItems, ite_max_le]
    split
    · split <;> rfl
    · rfl

end FactoryScript.Json
