import FactoryScript.Proofs.Schema.Statement

/-!
# Programs that are read alike

A trigger shares its object with the tag of its kind, and with a schedule if the tag says so. Its
statements are read where they stand and everything else once the tag is known, so it is enough to
look up the statements, the tag and the keys of the schedule (`Trigger.read_of_variant`).
-/

namespace FactoryScript

open Schema (Variant Foreign under plain firingFields)

variable {members members' : List (String × Json)} {v w : Json} {room room' : Nat}

/-! ## What makes a trigger fire -/

/-- The fields of a schedule are plain values. -/
theorem Schedule.follows_fields :
    fields.Follows (fun key => (under (firingFields .scheduled) key).Variant) fields := by
  refine Fields.Follows.done Schedule.mk
    |>.field ?_
    |>.field ?_
    |>.field ?_
    |>.field ?_
  · exact Schema.carries_interval
  · exact Schema.carries_takenName
  · exact Schema.carries_flag
  · exact Schema.carries_count.optional

namespace TriggerKind
variable {kind : TriggerKind}

/-- Members that can be read have a tag that names what fires the trigger. -/
theorem exists_tag (hmembers : (members.map Prod.fst).Nodup) (h : ofMembers members = .ok kind) :
    ∃ v, members.lookup tagKey = some v ∧ ∃ firing : Firing, v.tag? = some firing := by
  rw [ofMembers] at h
  split at h <;> rename_i hsplit
  · obtain ⟨⟨v, hv, htag⟩, -⟩ := (Json.splitTag_eq_some_iff hmembers).1 hsplit
    exact ⟨v, hv, _, htag⟩
  · obtain ⟨⟨v, hv, htag⟩, -⟩ := (Json.splitTag_eq_some_iff hmembers).1 hsplit
    exact ⟨v, hv, _, htag⟩
  · cases h

/-- The kind of a trigger is found under the tag and the keys that go with it. -/
theorem ofMembers_of_rel (hmembers : (members.map Prod.fst).Nodup)
    (hmembers' : (members'.map Prod.fst).Nodup) {v : Json} {firing : Firing}
    (hv : members.lookup tagKey = some v) (htag : v.tag? = some firing)
    (htags : Option.Rel (fun v w => ∀ firing : Firing, v.tag? = some firing → w.tag? = some firing)
      (members.lookup tagKey) (members'.lookup tagKey))
    (hfields : ∀ key ∈ (firingFields firing).map Prod.fst,
      Option.Rel (under (firingFields firing) key).Variant (members.lookup key)
        (members'.lookup key))
    (hread : ofMembers members = .ok kind) : ofMembers members' = .ok kind := by
  have hsplit' {firing : Firing} {rest : List (String × Json)}
      (h : Json.splitTag tagKey id members = some (firing, rest)) :
      Json.splitTag tagKey id members' = some (firing, members'.filter fun m => m.1 != tagKey) :=
    Json.splitTag_of_rel hmembers hmembers' htags h
  rw [ofMembers] at hread
  split at hread <;> rename_i hsplit
  · obtain ⟨⟨v', hv', hscheduled⟩, rfl⟩ := (Json.splitTag_eq_some_iff hmembers).1 hsplit
    cases hv.symm.trans hv'
    cases htag.symm.trans hscheduled
    obtain ⟨s, hs, rfl⟩ := Except.map_eq_ok_iff.1 hread
    have hschedule : Schedule.fields.ofMembers Json.pass
        (members'.filter fun m => m.1 != tagKey) = .ok s := by
      refine Schedule.follows_fields.ofMembers (by decide) (hmembers.map_filter _)
        (hmembers'.map_filter _) (fun key hkey => ?_) (fun _ _ => rfl) hs
      have hne : key ≠ tagKey := by
        rintro rfl
        revert hkey
        decide
      rw [List.lookup_filter_ne hne, List.lookup_filter_ne hne]
      exact hfields key hkey
    rw [ofMembers, hsplit' hsplit]
    simp only [hschedule]
    rfl
  · rw [ofMembers, hsplit' hsplit]
    exact hread
  · cases hread

end TriggerKind

/-! ## Triggers -/

namespace Trigger

/-- Once the statements have been gathered, the other members only have to be taken as a whole. -/
theorem gather_some_eq_ok_iff {statements : List Statement} {result : Option (List Statement)}
    (hmembers : ∀ m ∈ members, m.1 ≠ statementsKey) :
    gather room (some statements) members = .ok result ↔
      result = some statements ∧ ∀ m ∈ members, m.2.take room = .ok () := by
  induction members with
  | nil => exact ⟨fun h => ⟨(Except.ok.inj h).symm, nofun⟩, fun h => congrArg _ h.1.symm⟩
  | cons m rest ih =>
    obtain ⟨key, v⟩ := m
    obtain ⟨hm, hrest⟩ := List.forall_mem_cons.1 hmembers
    rw [gather, if_neg hm, Except.bind_eq_ok_iff, List.forall_mem_cons]
    simp only [ih hrest]
    constructor
    · rintro ⟨_, hv, hresult, hothers⟩
      exact ⟨hresult, hv, hothers⟩
    · rintro ⟨hresult, hv, hothers⟩
      exact ⟨(), hv, hresult, hothers⟩

/-- The statements are what is read under their key, and all else is taken. -/
theorem gather_none_eq_ok_iff {result : Option (List Statement)}
    (hmembers : (members.map Prod.fst).Nodup) :
    gather room none members = .ok result ↔
      Option.Rel (fun v statements => Json.readList (Statement.read (room - 1)) v = .ok statements)
          (members.lookup statementsKey) result ∧
        ∀ m ∈ members, m.1 ≠ statementsKey → m.2.take room = .ok () := by
  induction members with
  | nil =>
    constructor
    · intro h
      cases h
      exact ⟨.none, nofun⟩
    · rintro ⟨h, -⟩
      rw [h.eq_none]
      rfl
  | cons m rest ih =>
    obtain ⟨key, v⟩ := m
    obtain ⟨hm, hrest⟩ := List.nodup_cons.1 hmembers
    rw [gather, List.forall_mem_cons]
    by_cases hkey : key = statementsKey
    · subst hkey
      have hothers : ∀ m ∈ rest, m.1 ≠ statementsKey :=
        fun m hmem hm' => hm (List.mem_map.2 ⟨m, hmem, hm'⟩)
      rw [if_pos rfl, List.lookup_cons_self]
      simp only [Option.isSome_none, Bool.false_eq_true, if_false, Except.bind_eq_ok_iff,
        gather_some_eq_ok_iff hothers]
      constructor
      · rintro ⟨statements, hv, rfl, htake⟩
        exact ⟨.some hv, fun h => absurd rfl h, fun m hm _ => htake m hm⟩
      · rintro ⟨hrel, -, htake⟩
        obtain ⟨statements, rfl, hv⟩ := hrel.exists_eq_some
        exact ⟨statements, hv, rfl, fun m hm => htake m hm (hothers m hm)⟩
    · rw [if_neg hkey, List.lookup_cons_of_ne (Ne.symm hkey), Except.bind_eq_ok_iff]
      simp only [ih hrest]
      constructor
      · rintro ⟨_, hv, hrel, hothers⟩
        exact ⟨hrel, fun _ => hv, hothers⟩
      · rintro ⟨hrel, hv, hothers⟩
        exact ⟨(), hv hkey, hrel, hothers⟩

theorem fields?_of_tag {firing : Firing} (hv : members.lookup TriggerKind.tagKey = some v)
    (htag : v.tag? = some firing) :
    Schema.fields? members .trigger =
      some ((TriggerKind.tagKey, plain) :: (statementsKey, .list .statement) ::
        firingFields firing) := by
  simp [Schema.fields?, hv, htag]

/-- Statements are gathered alike, wherever their member stands among the others. -/
theorem gather_of_variant {statements : Option (List Statement)}
    (hmembers : (members.map Prod.fst).Nodup) (hright : (Json.object members').Proper)
    (hrel : Option.Rel (Schema.list .statement).Variant (members.lookup statementsKey)
      (members'.lookup statementsKey))
    (hgather : gather room none members = .ok statements)
    (hroom : (Json.object members').depth ≤ room') :
    gather (room' - 1) none members' = .ok statements := by
  obtain ⟨hstatements, -⟩ := (gather_none_eq_ok_iff hmembers).1 hgather
  refine (gather_none_eq_ok_iff hright.nodup_keys).2 ⟨?_, fun m hm _ => ?_⟩
  · refine hrel.join hstatements fun v w ss hw hvw hss => ?_
    have hlt : w.depth < (Json.object members').depth :=
      Json.depth_lt_of_mem_members (List.mem_of_lookup hw)
    refine Schema.readList_of_variant hvw (fun v' w' s hvw' hlt' hs => ?_) hss
    exact Statement.read_of_variant hvw' hs (by omega)
  · have hlt := Json.depth_lt_of_mem_members hm
    exact (hright.of_mem_members m hm).take (by omega)

/-- What is read of a trigger is read of it wherever there is room for it. -/
theorem read_of_variant {t : Trigger} (h : Variant .trigger v w) (hread : read room v = .ok t)
    (hroom : w.depth ≤ room') : read room' w = .ok t := by
  cases v with
  | object members =>
    obtain ⟨members', rfl, hlook⟩ := h.object
    have hnodup := h.left.nodup_keys
    obtain ⟨statements, hgather, hkinds⟩ := Except.bind_eq_ok_iff.1 hread
    obtain ⟨kind, hkind, rfl⟩ := Except.map_eq_ok_iff.1 hkinds
    have hkind := Json.eq_ok_of_settle hkind
    have htagKey : TriggerKind.tagKey ≠ statementsKey := by decide
    obtain ⟨v, hv, firing, htag⟩ := TriggerKind.exists_tag (hnodup.map_filter _) hkind
    -- the tag makes the fields known, none of which is foreign
    have hfields := fields?_of_tag (List.lookup_filter_ne htagKey ▸ hv) htag
    have hrel (key : String) (hkey : ¬ Foreign .trigger members key) := hlook key hkey
    simp only [Schema.member_eq_under hfields] at hrel
    have hgather' : gather (room' - 1) none members' = .ok statements :=
      gather_of_variant hnodup h.right (hrel statementsKey (Schema.not_foreign hfields
        (List.mem_cons_of_mem _ List.mem_cons_self))) hgather hroom
    have hkind' : TriggerKind.ofMembers (members'.filter fun m => m.1 != statementsKey) =
        .ok kind := by
      refine TriggerKind.ofMembers_of_rel (hnodup.map_filter _)
        (h.right.nodup_keys.map_filter _) hv htag ?_ (fun key hkey => ?_) hkind
      · rw [List.lookup_filter_ne htagKey, List.lookup_filter_ne htagKey]
        exact (hrel _ (Schema.not_foreign hfields List.mem_cons_self)).imp
          fun v w hvw => hvw.tag?_eq_some
      · have hne : key ≠ TriggerKind.tagKey ∧ key ≠ statementsKey := by
          cases firing <;> revert key <;> decide
        have hkeyRel := hrel key (Schema.not_foreign hfields
          (List.mem_cons_of_mem _ (List.mem_cons_of_mem _ hkey)))
        rw [Schema.under_cons_of_ne hne.1, Schema.under_cons_of_ne hne.2] at hkeyRel
        rwa [List.lookup_filter_ne hne.2, List.lookup_filter_ne hne.2]
    rw [read, hgather']
    refine Except.bind_eq_ok_iff.2 ⟨statements, rfl, ?_⟩
    rw [hkind']
    rfl
  | array items => cases hread
  | null | bool b | number n | string t | flaw f => cases hread

end Trigger

/-! ## Programs -/

namespace Program

/-- The fields of a program where `room` containers may be nested. -/
def fieldsWithin (room : Nat) : Fields Json Program :=
  Fields.done Program.mk
    |>.optional "name" Json.readText ""
    |>.optional "triggers" (Json.readList (Trigger.read (room - 2))) []

def readWithin (room : Nat) : Reader Program := Json.readRecord (fieldsWithin room)

theorem readWithin_maxDepth : readWithin Json.maxDepth = read := rfl

/-- What is read of a program is read of every variant of it for which there is room. -/
theorem read_of_variant {p : Program} (h : Schema.program.Variant v w)
    (hread : readWithin room v = .ok p) (hroom : w.depth ≤ room') : readWithin room' w = .ok p := by
  have hnodup : (fieldsWithin room).keys.Nodup := (by decide : ["name", "triggers"].Nodup)
  refine Schema.readRecord_of_variant h rfl hnodup (.field (.field (.done Program.mk) ?_) ?_)
    hread
  · exact fun v' w' name hvw => Schema.carries_text v' w' name hvw.1
  · intro v' w' ts hvw hts
    refine Schema.readList_of_variant hvw.1 (fun v'' w'' t hvw' hlt ht => ?_) hts
    exact Trigger.read_of_variant hvw' ht (by omega)

end Program
end FactoryScript
