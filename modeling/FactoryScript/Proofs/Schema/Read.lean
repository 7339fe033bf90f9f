import FactoryScript.Condition
import FactoryScript.Graph.Document
import FactoryScript.Proofs.Json.Lookup
import FactoryScript.Proofs.Schema.Basic
import FactoryScript.Values.Basic
import FactoryScript.Wizard

/-!
# Documents that are read alike

`Schema.Carries` says of a reader that it reads the same from a value when that is written
differently. Single values are written in one way only. A list carries if its items do
(`Schema.Carries.list`), and a record if its fields do, because it looks up their keys
(`Schema.carries_record`).
-/

namespace FactoryScript.Schema
variable {α β : Type} {s : Schema} {read read' : Reader α} {v w : Json}
  {members members' : List (String × Json)}

/-- Whatever the first reader reads from a value, the second one reads from the value written
differently. -/
def Carries (s : Schema) (read read' : Reader α) : Prop :=
  ∀ v w a, s.Variant v w → read v = .ok a → read' w = .ok a

/-! ## Single values -/

/-- A reader that finds nothing in arrays carries if it carries objects. -/
theorem carries_of_object (harray : ∀ items a, read (.array items) ≠ .ok a)
    (hobject : ∀ members w a, s.Variant (.object members) w → read (.object members) = .ok a →
      read w = .ok a) : s.Carries read read := by
  intro v w a hvw hread
  cases v with
  | object members => exact hobject members w a hvw hread
  | array items => exact absurd hread (harray items a)
  | null | bool b | number n | string t | flaw f =>
    cases hvw.rearranged
    exact hread

theorem carries_of_leaf (harray : ∀ items a, read (.array items) ≠ .ok a)
    (hobject : ∀ members a, read (.object members) ≠ .ok a) : s.Carries read read :=
  carries_of_object harray fun members _ a _ hread => absurd hread (hobject members a)

theorem carries_text : s.Carries Json.readText Json.readText := carries_of_leaf nofun nofun

theorem carries_flag : s.Carries Json.readFlag Json.readFlag := carries_of_leaf nofun nofun

theorem carries_count : s.Carries Json.readCount Json.readCount := carries_of_leaf nofun nofun

theorem carries_interval : s.Carries Json.readInterval Json.readInterval :=
  carries_of_leaf nofun nofun

theorem carries_nodeId : s.Carries NodeId.read NodeId.read := carries_of_leaf nofun nofun

theorem readOptional_of_ne_null (h : v ≠ .null) :
    Json.readOptional read v = (read v).map some := by
  cases v with
  | null => exact absurd rfl h
  | _ => rfl

/-- A reader that also accepts `null` reads alike, since `null` has no other variant. -/
theorem Carries.optional (h : s.Carries read read') :
    s.Carries (Json.readOptional read) (Json.readOptional read') := by
  intro v w a hvw hread
  by_cases hv : v = .null
  · subst hv
    obtain ⟨-, -, hrel⟩ := hvw
    cases hrel
    exact hread
  · have hw : w ≠ .null := by
      obtain ⟨-, -, hrel⟩ := hvw
      cases hrel with
      | refl => exact hv
      | array | object => exact nofun
    rw [readOptional_of_ne_null hv] at hread
    obtain ⟨b, hb, rfl⟩ := Except.map_eq_ok_iff.1 hread
    rw [readOptional_of_ne_null hw, h v w b hvw hb]
    rfl

/-! ## Names -/

/-- Nothing is added to an object that is not one of the domain. -/
theorem Variant.keys_perm (h : plain.Variant (.object members) (.object members')) :
    (members.map Prod.fst).Perm (members'.map Prod.fst) := by
  obtain ⟨_, heq, hlook⟩ := h.object
  cases heq
  refine (List.perm_ext_iff_of_nodup h.left.nodup_keys h.right.nodup_keys).2 fun key => ?_
  have hrel := hlook key fun ⟨_, hfields, _⟩ => nomatch hfields
  rw [← List.lookup_isSome_iff_mem, ← List.lookup_isSome_iff_mem]
  cases hkey : members.lookup key with
  | none =>
    rw [hkey] at hrel
    rw [hrel.eq_none]
  | some v =>
    rw [hkey] at hrel
    obtain ⟨w, hw, -⟩ := hrel.exists_eq_some
    rw [hw]
    rfl

theorem Variant.eq_nil (h : plain.Variant (.object []) w) : w = .object [] := by
  obtain ⟨members', rfl, -⟩ := h.object
  have hkeys := h.keys_perm.symm.eq_nil
  rw [List.map_eq_nil_iff.1 hkeys]

/-- A plain object with a single key has this key alone in every variant. -/
theorem Variant.singleton {key : String} (h : plain.Variant (.object [(key, v)]) w) :
    ∃ w', w = .object [(key, w')] ∧ plain.Variant v w' := by
  obtain ⟨members', rfl, hlook⟩ := h.object
  have hkeys : members'.map Prod.fst = [key] := h.keys_perm.symm.eq_singleton
  obtain ⟨⟨key', w'⟩, rest, rfl, rfl, hrest⟩ := List.map_eq_cons_iff.1 hkeys
  obtain rfl := List.map_eq_nil_iff.1 hrest
  have hrel := hlook key' fun ⟨_, hfields, _⟩ => nomatch hfields
  rw [List.lookup_cons_self, List.lookup_cons_self] at hrel
  exact ⟨w', rfl, Option.rel_some_some.1 hrel⟩

/-- A name in an object is its only key, with the value `null`. -/
theorem readName_object [Named α] {a : α} (h : Json.readName (.object members) = .ok a) :
    ∃ s, members = [(s, .null)] := by
  unfold Json.readName at h
  split at h <;> rename_i hv
  · cases hv
  · cases hv
    split at h
    · cases h
    · obtain ⟨_, -, h⟩ := Except.bind_eq_ok_iff.1 h
      cases h
  · cases hv
    obtain ⟨b, -, h⟩ := Except.bind_eq_ok_iff.1 h
    obtain ⟨_, hend, -⟩ := Except.map_eq_ok_iff.1 h
    unfold Json.endMembers at hend
    split at hend
    · exact ⟨_, rfl⟩
    · cases hend
    · cases hend
  all_goals cases h

/-- In an object that has been taken as a whole the value may also be an empty object. -/
theorem takenName_object [Named α] {a : α} (h : Json.takenName (.object members) = .ok a) :
    ∃ s v, members = [(s, v)] ∧ (v = .null ∨ v = .object []) := by
  unfold Json.takenName at h
  split at h <;> rename_i hv
  · cases hv
  · cases hv
    exact ⟨_, _, rfl, .inl rfl⟩
  · cases hv
    exact ⟨_, _, rfl, .inr rfl⟩
  · cases h

theorem carries_name [Named α] : plain.Carries (Json.readName : Reader α) Json.readName := by
  refine carries_of_object nofun fun members w a hvw hread => ?_
  obtain ⟨s, rfl, -⟩ := readName_object hread
  obtain ⟨w', rfl, hw'⟩ := hvw.singleton
  cases hw'.rearranged
  exact hread

/-- Names are read alike in both forms. -/
theorem carries_takenName [Named α] : plain.Carries (Json.takenName : Reader α) Json.takenName := by
  refine carries_of_object nofun fun members w a hvw hread => ?_
  obtain ⟨s, v, rfl, hv⟩ := takenName_object hread
  obtain ⟨w', rfl, hw'⟩ := hvw.singleton
  obtain rfl | rfl := hv
  · cases hw'.rearranged
    exact hread
  · rw [hw'.eq_nil]
    exact hread

/-! ## Lists and records -/

/-- It is enough that items are read alike, and of items only those that fit into the list. -/
theorem readList_of_variant {l : List α} (h : (list s).Variant v w)
    (hitems : ∀ v' w' a, s.Variant v' w' → w'.depth < w.depth → read v' = .ok a → read' w' = .ok a)
    (hread : Json.readList read v = .ok l) : Json.readList read' w = .ok l := by
  cases v with
  | array items =>
    obtain ⟨items', rfl, hlength, hvariant⟩ := h.array
    refine List.Forall₂.mapM_eq_ok (List.forall₂_of_getElem? hlength fun i v' w' hv hw a => ?_)
      hread
    exact hitems v' w' a (hvariant i v' w' hv hw)
      (Json.depth_lt_of_mem_items (List.mem_of_getElem? hw))
  | object members => cases hread
  | null | bool b | number n | string t | flaw f => cases hread

theorem Carries.list (h : s.Carries read read') :
    (list s).Carries (Json.readList read) (Json.readList read') := fun _ _ _ hvw hread =>
  readList_of_variant hvw (fun v' w' a hvw' _ => h v' w' a hvw') hread

section
variable {f g : Fields Json α} {fields : List (String × Schema)} {a : α}

theorem readRecord_array_eq_ok_iff {items : List Json} :
    Json.readRecord f (.array items) = .ok a ↔ f.ofItems items = .ok (a, []) := by
  rw [Json.readRecord]
  split <;> rename_i h <;> simp [h]

/-- It is enough that fields are read alike, and of values only those that fit into the record. -/
theorem readRecord_of_variant (hvw : (record fields).Variant v w)
    (hkeys : f.keys = fields.map Prod.fst) (hnodup : f.keys.Nodup)
    (h : f.Follows (fun key v' w' => (under fields key).Variant v' w' ∧ w'.depth < w.depth) g)
    (hread : Json.readRecord f v = .ok a) : Json.readRecord g w = .ok a := by
  cases v with
  | object members =>
    obtain ⟨members', rfl, hlook⟩ := hvw.object
    refine h.ofMembers hnodup hvw.left.nodup_keys hvw.right.nodup_keys (fun key hkey => ?_)
      (fun m hm => (hvw.right.of_mem_members m hm).skipMember) hread
    exact (hlook key (not_foreign rfl (hkeys ▸ hkey))).and_right fun w' hw' =>
      Json.depth_lt_of_mem_members (List.mem_of_lookup hw')
  | array items =>
    obtain ⟨items', rfl, hlength, hitems⟩ := hvw.array
    rw [readRecord_array_eq_ok_iff] at hread ⊢
    refine h.ofItems_nil hlength (fun i key v w hkey hv hw => ?_) hread
    rw [← under_of_getElem? (hkeys ▸ hnodup) (hkeys ▸ hkey)]
    exact ⟨hitems i v w hv hw, Json.depth_lt_of_mem_items (List.mem_of_getElem? hw)⟩
  | null | bool b | number n | string t | flaw f => cases hread

theorem carries_record (hkeys : f.keys = fields.map Prod.fst) (hnodup : f.keys.Nodup)
    (h : f.Follows (fun key => (under fields key).Variant) g) :
    (record fields).Carries (Json.readRecord f) (Json.readRecord g) := fun _ _ _ hvw hread =>
  readRecord_of_variant hvw hkeys hnodup (h.mono fun _ _ _ _ hvw' => hvw'.1) hread

end

end FactoryScript.Schema
