import FactoryScript.Proofs.Schema.Read
import FactoryScript.Proofs.Statement.Nesting

/-!
# Statements that are read alike

A statement is read in two passes. The first one takes it as a whole, which concerns its depth and
the place of its tag alone; the second one, which reads what it means, looks up the tag and then the
fields that go with it. Both carry, the second one through all the statements inside branches
(`Statement.ofJson_of_rearranged`).
-/

namespace FactoryScript.Statement

open Schema (Rearranged Variant Foreign under plain transfer retention statementFields)

/-! ## Movements -/

theorem carries_retention : (Schema.record retention).Carries Retention.read Retention.read :=
  Schema.carries_record rfl (by decide)
    (.field (.field (.done Retention.mk) Schema.carries_count) Schema.carries_flag)

/-- The nine fields of a movement, each with the reader of its own kind of value. -/
theorem follows_transfer :
    Transfer.fields.Follows (fun key => (under transfer key).Variant) Transfer.fields := by
  refine Fields.Follows.done Transfer.mk
    |>.field ?_
    |>.field ?_
    |>.field ?_
    |>.field ?_
    |>.field ?_
    |>.field ?_
    |>.field ?_
    |>.field ?_
    |>.field ?_
  · exact Schema.carries_count.optional
  · exact carries_retention.optional
  · exact Schema.carries_takenName
  · exact Schema.carries_text
  · exact Schema.carries_text.optional
  · exact Schema.carries_text
  · exact Schema.carries_flag
  · exact Schema.carries_takenName.optional
  · exact Schema.carries_text.optional

/-! ## The parts of a statement -/

/-- A part of a statement and the same part written differently, where statements are read alike. -/
structure Part.Alike (s : Schema) (p q : Part) : Prop where
  value : s.Variant p.value q.value
  statements : s = .list .statement → ∀ ss, p.statements = .ok ss → q.statements = .ok ss

theorem keys_fieldsOf (tag : StatementTag) :
    (fieldsOf tag).keys = (statementFields tag).map Prod.fst := by
  cases tag <;> rfl

/-- The fields of each kind of statement are read alike; only those of a branch hold statements. -/
theorem follows_fieldsOf (tag : StatementTag) :
    (fieldsOf tag).Follows (fun key => Part.Alike (under (statementFields tag) key))
      (fieldsOf tag) := by
  cases tag with
  | input => exact (follows_transfer.map input).comap _ _ fun key p q h => h.value
  | output => exact (follows_transfer.map output).comap _ _ fun key p q h => h.value
  | forget =>
    have hfields : ((Fields.done forget).optional "labels" (Json.readOptional Json.readText)
        none).Follows (fun key => (under (statementFields .forget) key).Variant) _ :=
      .field (.done forget) Schema.carries_text.optional
    exact hfields.comap _ _ fun key p q h => h.value
  | branch =>
    refine Fields.Follows.done branch
      |>.field ?_
      |>.field ?_
      |>.field ?_
    · exact fun p q s h => Schema.carries_text _ _ s h.value
    · exact fun p q ss h => h.statements rfl ss
    · exact fun p q ss h => h.statements rfl ss

def part (v : Json) : Part := ⟨v, listOfJson v⟩

theorem itemParts_eq_map (items : List Json) : itemParts items = items.map part := by
  induction items with
  | nil => rfl
  | cons v rest ih => rw [itemParts, ih, List.map_cons, part]

variable {s : Statement} {items items' : List Json} {members members' : List (String × Json)}

theorem nodup_keys_memberParts (h : (members.map Prod.fst).Nodup) :
    ((memberParts members).map Prod.fst).Nodup := by
  rwa [memberParts_eq_map, List.map_map]

theorem lookup_memberParts (key : String) :
    (memberParts members).lookup key = (members.lookup key).map part := by
  rw [memberParts_eq_map]
  exact List.lookup_map_snd part members key

theorem fields?_of_tag {v : Json} {tag : StatementTag} (hv : members.lookup tagKey = some v)
    (htag : v.tag? = some tag) :
    Schema.fields? members .statement = some ((tagKey, plain) :: statementFields tag) := by
  simp [Schema.fields?, Schema.statementFields?, hv, htag]

theorem not_foreign_tagKey : ¬ Foreign .statement members tagKey := by
  rintro ⟨fields, hfields, hforeign⟩
  obtain ⟨tag, -, rfl⟩ := Option.map_eq_some_iff.1 hfields
  exact hforeign List.mem_cons_self

/-- What is read from the members of a statement is found under the tag and the keys of its kind. -/
theorem ofParts_of_alike (hmembers : (members.map Prod.fst).Nodup)
    (hmembers' : (members'.map Prod.fst).Nodup)
    (h : ∀ key, ¬ Foreign .statement members key →
      Option.Rel (fun v w => Part.Alike (Schema.member .statement members key) (part v) (part w))
        (members.lookup key) (members'.lookup key))
    (hread : ofParts (memberParts members) = .ok s) : ofParts (memberParts members') = .ok s := by
  have hparts := nodup_keys_memberParts hmembers
  have hparts' := nodup_keys_memberParts hmembers'
  rw [ofParts] at hread
  split at hread <;> rename_i hsplit
  · rename_i tag rest
    obtain ⟨⟨p, hp, htag⟩, rfl⟩ := (Json.splitTag_eq_some_iff hparts).1 hsplit
    rw [lookup_memberParts, Option.map_eq_some_iff] at hp
    obtain ⟨v, hv, rfl⟩ := hp
    have hfields := fields?_of_tag hv htag
    have htags : Option.Rel (fun p q : Part => ∀ tag : StatementTag, p.value.tag? = some tag →
        q.value.tag? = some tag) ((memberParts members).lookup tagKey)
        ((memberParts members').lookup tagKey) := by
      rw [lookup_memberParts, lookup_memberParts]
      exact (h tagKey not_foreign_tagKey).map fun v w hvw => hvw.value.tag?_eq_some
    rw [ofParts, Json.splitTag_of_rel hparts hparts' htags hsplit]
    refine (follows_fieldsOf tag).ofMembers (nodup_keys_fieldsOf tag)
      (hparts.map_filter _) (hparts'.map_filter _) (fun key hkey => ?_) (fun _ _ => rfl) hread
    have hne : key ≠ tagKey := fun h => tagKey_notMem_keys tag (h ▸ hkey)
    have hnative : ¬ Foreign .statement members key :=
      Schema.not_foreign hfields (List.mem_cons_of_mem _ (keys_fieldsOf tag ▸ hkey))
    have hrel := h key hnative
    rw [Schema.member_eq_under hfields, Schema.under_cons_of_ne hne] at hrel
    rw [List.lookup_filter_ne hne, List.lookup_filter_ne hne, lookup_memberParts,
      lookup_memberParts]
    exact hrel.map fun _ _ h => h
  · cases hread

/-- A statement that is given by position is read alike, since the items pair up one by one. -/
theorem ofPositions_of_alike (hlength : items'.length = items.length)
    (h : ∀ (i : Nat) v w, items[i]? = some v → items'[i]? = some w →
      Part.Alike (Schema.item .statement items i) (part v) (part w))
    (hread : ofPositions (itemParts items) = .ok s) : ofPositions (itemParts items') = .ok s := by
  rw [itemParts_eq_map] at hread ⊢
  cases items with
  | nil => cases hread
  | cons v rest =>
    cases items' with
    | nil => cases hlength
    | cons w rest' =>
      simp only [List.map_cons, ofPositions] at hread ⊢
      split at hread <;> rename_i htag
      · rename_i tag
        have htag' : (part w).value.tag? = some tag := (h 0 v w rfl rfl).value.tag?_eq_some tag htag
        rw [htag']
        split at hread <;> rename_i hitems <;> cases hread
        have hrest : rest'.length = rest.length := Nat.succ.inj hlength
        have hitems' : (fieldsOf tag).ofItems (rest'.map part) = .ok (s, []) := by
          refine (follows_fieldsOf tag).ofItems_nil (by simpa using hrest)
            (fun i key p q hkey hp hq => ?_) hitems
          rw [List.getElem?_map, Option.map_eq_some_iff] at hp hq
          obtain ⟨v', hv', rfl⟩ := hp
          obtain ⟨w', hw', rfl⟩ := hq
          -- the tag stands first, so the fields begin one place later
          have halike := h (i + 1) v' w' hv' hw'
          have htag : v.tag? = some tag := htag
          rw [keys_fieldsOf] at hkey
          rw [← Schema.under_of_getElem? (keys_fieldsOf tag ▸ nodup_keys_fieldsOf tag) hkey]
          simpa [Schema.item, Schema.statementFields?, htag] using halike
        simp only [hitems']
      · cases hread

/-- Lists of statements are read alike if their items are. -/
theorem ofJsonAll_of_forall₂ {ss : List Statement}
    (h : List.Forall₂ (fun v w => ∀ s, ofJson v = .ok s → ofJson w = .ok s) items items')
    (hread : ofJsonAll items = .ok ss) : ofJsonAll items' = .ok ss := by
  induction h generalizing ss with
  | nil => exact hread
  | cons hvw hrest ih =>
    obtain ⟨s, ss', hv, hss', rfl⟩ := ofJsonAll_cons_eq_ok hread
    simp only [ofJsonAll, hvw s hv, ih hss']

/-- Statements that have been taken as a whole are read alike, and so are lists of them. The
induction is on how the value is written, since a list is read with the member that it is in. -/
theorem ofJson_of_rearranged {schema : Schema} {v w : Json} (h : schema.Rearranged v w)
    (hv : v.Proper) (hw : w.Proper) :
    (schema = .statement → ∀ s, ofJson v = .ok s → ofJson w = .ok s) ∧
      (schema = .list .statement → ∀ ss, listOfJson v = .ok ss → listOfJson w = .ok ss) := by
  induction h with
  | refl => exact ⟨fun _ _ h => h, fun _ _ h => h⟩
  | @array schema items items' hlength hitems ih =>
    have hvariant (i : Nat) (v w : Json) (hi : items[i]? = some v) (hi' : items'[i]? = some w) :
        (schema.item items i).Variant v w := .of_getElem? hv hw hi hi' (hitems i v w hi hi')
    refine ⟨?_, ?_⟩
    · rintro rfl s hread
      refine ofPositions_of_alike hlength (fun i v w hi hi' => ?_) hread
      have hvw := hvariant i v w hi hi'
      exact ⟨hvw, (ih i v w hi hi' hvw.left hvw.right).2⟩
    · rintro rfl ss hread
      refine ofJsonAll_of_forall₂ (List.forall₂_of_getElem? hlength fun i v w hi hi' => ?_) hread
      have hvw := hvariant i v w hi hi'
      exact (ih i v w hi hi' hvw.left hvw.right).1 rfl
  | @object schema members members' hkept hmembers hadded ih =>
    refine ⟨?_, fun _ _ hread => nomatch hread⟩
    rintro rfl s hread
    refine ofParts_of_alike hv.nodup_keys hw.nodup_keys (fun key hkey => ?_) hread
    refine Schema.rel_of_kept (R := fun key v w =>
      Part.Alike (Schema.member .statement members key) (part v) (part w))
      hkept (fun key v w hk hk' => ?_) hadded hkey
    have hvw : (Schema.member .statement members key).Variant v w :=
      .of_lookup hv hw hk hk' (hmembers key v w hk hk')
    exact ⟨hvw, (ih key v w hk hk' hvw.left hvw.right).2⟩

/-! ## Taking a statement as a whole -/

variable {room : Nat}

theorem carries_tag (schema : Schema) : schema.Carries readTag readTag :=
  Schema.carries_of_leaf nofun nofun

/-- The tag is read where it stands, and all else is taken. -/
theorem takeMembers_eq_ok_iff {tagged : Bool} (hmembers : (members.map Prod.fst).Nodup) :
    takeMembers room tagged members = .ok () ↔
      (∀ v, members.lookup tagKey = some v → tagged = false ∧ readTag v = .ok ()) ∧
        ∀ m ∈ members, m.1 ≠ tagKey → m.2.take room = .ok () := by
  induction members generalizing tagged with
  | nil => exact ⟨fun _ => ⟨nofun, nofun⟩, fun _ => rfl⟩
  | cons m rest ih =>
    obtain ⟨key, v⟩ := m
    obtain ⟨hm, hrest⟩ := List.nodup_cons.1 hmembers
    rw [takeMembers, List.forall_mem_cons]
    split <;> rename_i hkey
    · subst hkey
      have hnone : rest.lookup tagKey = none := List.lookup_eq_none_iff_notMem.2 hm
      rw [List.lookup_cons_self]
      constructor
      · intro h
        split at h <;> rename_i htagged
        · cases h
        · obtain ⟨_, htag, h⟩ := Except.bind_eq_ok_iff.1 h
          refine ⟨fun w hw => ?_, fun h => absurd rfl h, ((ih hrest).1 h).2⟩
          cases hw
          exact ⟨Bool.eq_false_iff.2 htagged, htag⟩
      · rintro ⟨htag, -, hothers⟩
        obtain ⟨rfl, hv⟩ := htag v rfl
        refine Except.bind_eq_ok_iff.2 ⟨(), hv, (ih hrest).2 ⟨fun w hw => ?_, hothers⟩⟩
        rw [hnone] at hw
        cases hw
    · rw [List.lookup_cons_of_ne (Ne.symm hkey), Except.bind_eq_ok_iff]
      constructor
      · rintro ⟨_, hv, h⟩
        obtain ⟨htag, hothers⟩ := (ih hrest).1 h
        exact ⟨htag, fun _ => hv, hothers⟩
      · rintro ⟨htag, hv, hothers⟩
        exact ⟨(), hv hkey, (ih hrest).2 ⟨htag, hothers⟩⟩

/-- A statement given by position is taken as a whole if its tag can be read and the rest be taken.
-/
theorem takeItems_eq_ok {tag : Json} {rest : List Json} (htag : readTag tag = .ok ())
    (hrest : ∀ v ∈ rest, v.take room = .ok ()) : takeItems room (tag :: rest) = .ok () := by
  have hforM : rest.forM (Json.take room) = .ok () := by
    induction rest with
    | nil => rfl
    | cons v rest ih =>
      obtain ⟨hv, hrest⟩ := List.forall_mem_cons.1 hrest
      exact Except.bind_eq_ok_iff.2 ⟨(), hv, ih hrest⟩
  rw [takeItems, htag]
  exact hforM

/-- A variant of an object that is taken as a whole is taken as well. Its tag may stand elsewhere,
and foreign members only count for the depth. -/
theorem takeMembers_of_variant {w : Json} {room' : Nat}
    (h : Variant .statement (.object members) w) (htake : takeMembers room false members = .ok ())
    (hroom : w.depth ≤ room') :
    ∃ members', w = .object members' ∧ takeMembers (room' - 1) false members' = .ok () := by
  obtain ⟨members', rfl, hlook⟩ := h.object
  refine ⟨members', rfl, (takeMembers_eq_ok_iff h.right.nodup_keys).2
    ⟨fun w hw => ⟨rfl, ?_⟩, fun m hm _ => ?_⟩⟩
  · have hrel := hlook tagKey not_foreign_tagKey
    rw [hw] at hrel
    obtain ⟨v, hv, hvw⟩ := hrel.exists_eq_some_left
    have htag := ((takeMembers_eq_ok_iff h.left.nodup_keys).1 htake).1 v hv
    exact carries_tag _ v w () hvw htag.2
  · have hlt := Json.depth_lt_of_mem_members hm
    exact (h.right.of_mem_members m hm).take (by omega)

/-- The same for statements given by position. -/
theorem takeItems_of_variant {w : Json} {room' : Nat} (h : Variant .statement (.array items) w)
    (htake : takeItems room items = .ok ()) (hroom : w.depth ≤ room') :
    ∃ items', w = .array items' ∧ takeItems (room' - 1) items' = .ok () := by
  obtain ⟨items', rfl, hlength, hitems⟩ := h.array
  refine ⟨items', rfl, ?_⟩
  cases items with
  | nil => cases htake
  | cons v rest =>
    obtain ⟨w, rest', rfl⟩ := List.exists_cons_of_length_eq_add_one hlength
    obtain ⟨_, htag, -⟩ := Except.bind_eq_ok_iff.1 htake
    refine takeItems_eq_ok (carries_tag _ v w () (hitems 0 v w rfl rfl) htag) fun u hu => ?_
    have hmem := List.mem_cons_of_mem w hu
    have hlt := Json.depth_lt_of_mem_items hmem
    exact (h.right.of_mem_items u hmem).take (by omega)

/-- What is read of a statement is read of it wherever there is room for it. -/
theorem read_of_variant {room' : Nat} {v w : Json} (h : Variant .statement v w)
    (hread : read room v = .ok s) (hroom : w.depth ≤ room') : read room' w = .ok s := by
  have hofJson (hv : Json.settle (ofJson v) = .ok s) : Json.settle (ofJson w) = .ok s := by
    have hcarried := (ofJson_of_rearranged h.rearranged h.left h.right).1 rfl s
    rw [hcarried (Json.eq_ok_of_settle hv)]
    rfl
  unfold read at hread
  split at hread
  · split at hread
    · cases hread
    · obtain ⟨_, htake, hread⟩ := Except.bind_eq_ok_iff.1 hread
      obtain ⟨members', rfl, htake'⟩ := takeMembers_of_variant h htake hroom
      rw [read, if_neg (Nat.ne_zero_of_lt (Nat.lt_of_lt_of_le (Nat.succ_pos _) hroom))]
      exact Except.bind_eq_ok_iff.2 ⟨(), htake', hofJson hread⟩
  · split at hread
    · cases hread
    · obtain ⟨_, htake, hread⟩ := Except.bind_eq_ok_iff.1 hread
      obtain ⟨items', rfl, htake'⟩ := takeItems_of_variant h htake hroom
      rw [read, if_neg (Nat.ne_zero_of_lt (Nat.lt_of_lt_of_le (Nat.succ_pos _) hroom))]
      exact Except.bind_eq_ok_iff.2 ⟨(), htake', hofJson hread⟩
  · exact absurd hread Json.unexpected_ne_ok

end FactoryScript.Statement
