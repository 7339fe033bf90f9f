import FactoryScript.Json.Record
import FactoryScript.Proofs.Count
import FactoryScript.Proofs.Run

/-!
# Records that are written and read again

`Fields.Written f members a` says that an object with these members is a record `a`: they stand in
the order of the fields, each is read as the value of its field, and a field that is left out has
this value as its default. Such an object is read as `a` if no two fields share a key
(`Fields.Written.ofMembers`).
-/

namespace FactoryScript

namespace Fields
variable {V W : Type}

/-- The members of a written record. -/
inductive Written : {α : Type} → Fields V α → List (String × V) → α → Prop
  | done {α : Type} (a : α) : Written (.done a) [] a
  | given {α β : Type} {rest : Fields V (β → α)} {members : List (String × V)} {make : β → α}
      {key : String} {read : V → Except Fault β} {fallback : Option β} {v : V} {b : β}
      (h : Written rest members make) (hread : read v = .ok b) :
    Written (.field rest key read fallback none) (members ++ [(key, v)]) (make b)
  | omitted {α β : Type} {rest : Fields V (β → α)} {members : List (String × V)} {make : β → α}
      {key : String} {read : V → Except Fault β} {b : β} (h : Written rest members make) :
    Written (.field rest key read (some b) none) members (make b)

variable {α β : Type} {f : Fields V α} {rest : Fields V (β → α)} {key : String}
  {read : V → Except Fault β} {fallback got : Option β} {other : V → Except Fault Unit}
  {members : List (String × V)} {a : α} {make : β → α}

/-- A record writes no keys but its own. -/
theorem Written.mem_keys (h : f.Written members a) : ∀ m ∈ members, m.1 ∈ f.keys := by
  induction h with
  | done a => exact nofun
  | given h hread ih =>
    intro m hm
    obtain hm | hm := List.mem_append.1 hm
    · exact List.mem_append_left _ (ih m hm)
    · rw [List.mem_singleton.1 hm]
      exact List.mem_append_right _ List.mem_cons_self
  | omitted h ih => exact fun m hm => List.mem_append_left _ (ih m hm)

theorem Written.ne_key (h : rest.Written members make) (hkeys : (rest.keys ++ [key]).Nodup) :
    ∀ m ∈ members, m.1 ≠ key := by
  rintro m hm rfl
  exact (List.nodup_append.1 hkeys).2.2 _ (h.mem_keys m hm) _ List.mem_cons_self rfl

/-! ## Reading the members -/

/-- A member with another key concerns the other fields only. -/
theorem putMember_field {m : String × V} (hkey : m.1 ≠ key) :
    (field rest key read fallback got).putMember other m =
      (rest.putMember other m).map fun f => field f key read fallback got := by
  simp only [putMember, put, if_neg hkey]
  cases rest.put m.1 m.2 with
  | some r => rfl
  | none => cases other m.2 <;> rfl

theorem putMember_self (v : V) :
    (field rest key read fallback none).putMember other (key, v) =
      (read v).map fun b => field rest key read fallback (some b) := by
  simp [putMember, put]

/-- Members of other keys pass a field by. -/
theorem foldlM_putMember_field (hkey : ∀ m ∈ members, m.1 ≠ key) :
    members.foldlM (putMember other) (field rest key read fallback got) =
      (members.foldlM (putMember other) rest).map fun f => field f key read fallback got := by
  induction members generalizing rest with
  | nil => rfl
  | cons m members ih =>
    obtain ⟨hm, hmembers⟩ := List.forall_mem_cons.1 hkey
    rw [List.foldlM_cons, List.foldlM_cons, putMember_field hm]
    cases rest.putMember other m with
    | error e => rfl
    | ok f => exact ih hmembers

/-- The last member of a list fills the last field, if it bears its key. -/
theorem foldlM_putMember_concat (hkey : ∀ m ∈ members, m.1 ≠ key) (v : V) :
    (members ++ [(key, v)]).foldlM (putMember other) (field rest key read fallback none) =
      (members.foldlM (putMember other) rest).bind fun f =>
        (read v).map fun b => field f key read fallback (some b) := by
  rw [List.foldlM_append, foldlM_putMember_field hkey]
  cases members.foldlM (putMember other) rest with
  | error e => rfl
  | ok f =>
    change (putMember other (field f key read fallback none) (key, v)).bind pure = _
    rw [putMember_self]
    cases read v <;> rfl

/-- Members that a record has written fill it up again. The induction is on the record, whose last
field meets the last member. -/
theorem Written.foldlM_putMember (h : f.Written members a) (hkeys : f.keys.Nodup) :
    ∃ g, members.foldlM (putMember other) f = .ok g ∧ g.finish = .ok a := by
  induction h with
  | done a => exact ⟨.done a, rfl, rfl⟩
  | @given α β rest members make key read fallback v b h hread ih =>
    obtain ⟨g, hg, hmake⟩ := ih (List.nodup_append.1 hkeys).1
    refine ⟨.field g key read fallback (some b), ?_, by simp [finish, hmake]⟩
    rw [foldlM_putMember_concat (h.ne_key hkeys), hg, hread]
    rfl
  | @omitted α β rest members make key read b h ih =>
    obtain ⟨g, hg, hmake⟩ := ih (List.nodup_append.1 hkeys).1
    -- no member has the key of this field, so it is left to its default
    refine ⟨.field g key read (some b) none, ?_, by simp [finish, hmake]⟩
    rw [foldlM_putMember_field (h.ne_key hkeys), hg]
    rfl

/-- A written record is read as what it is. -/
theorem Written.ofMembers (h : f.Written members a) (hkeys : f.keys.Nodup) :
    f.ofMembers other members = .ok a := by
  obtain ⟨g, hg, ha⟩ := h.foldlM_putMember hkeys
  rw [Fields.ofMembers, hg]
  exact ha

/-- Where all fields but the last one are written, reading depends on the last one alone. -/
theorem Written.ofMembers_concat (h : rest.Written members make)
    (hkeys : (rest.keys ++ [key]).Nodup) (v : V) :
    (field rest key read fallback none).ofMembers other (members ++ [(key, v)]) =
      (read v).map make := by
  obtain ⟨g, hg, hmake⟩ := h.foldlM_putMember (List.nodup_append.1 hkeys).1
  rw [Fields.ofMembers, foldlM_putMember_concat (h.ne_key hkeys), hg]
  cases read v with
  | error e => rfl
  | ok b =>
    change finish (field g key read fallback (some b)) = .ok (make b)
    simp [finish, hmake]

/-! ## Other descriptions of the same record -/

theorem Written.map (h : f.Written members a) (g : α → β) : (f.map g).Written members (g a) := by
  induction h generalizing β with
  | done a => exact .done (g a)
  | given h hread ih => exact .given (ih fun make b => g (make b)) hread
  | omitted h ih => exact .omitted (ih fun make b => g (make b))

/-- A record stays written when its values come wrapped. -/
theorem Written.comap {g : W → V} {members : List (String × W)}
    (h : f.Written (members.map fun m => (m.1, g m.2)) a) : (f.comap g).Written members a := by
  generalize hmembers : members.map (fun m => (m.1, g m.2)) = written at h
  induction h generalizing members with
  | done a =>
    rw [List.map_eq_nil_iff.1 hmembers]
    exact .done a
  | given h hread ih =>
    obtain ⟨before, last, rfl, hbefore, hlast⟩ := List.map_eq_append_iff.1 hmembers
    obtain ⟨⟨key, w⟩, rest, rfl, hm, hrest⟩ := List.map_eq_cons_iff.1 hlast
    cases hm
    rw [List.map_eq_nil_iff.1 hrest]
    exact .given (ih hbefore) hread
  | omitted h ih => exact .omitted (ih hmembers)

/-- A field without a value is left out. -/
theorem Written.optionalMember {rest : Fields Json (Option β → α)} {members : List (String × Json)}
    {make : Option β → α} {read : Reader (Option β)} {write : β → Json}
    (h : rest.Written members make) (o : Option β) (hread : ∀ b, read (write b) = .ok (some b)) :
    (field rest key read (some none) none).Written (members ++ Json.optionalMember key write o)
      (make o) := by
  cases o with
  | none =>
    rw [Json.optionalMember, Option.map_none, Option.toList_none, List.append_nil]
    exact h.omitted
  | some b => exact h.given (hread b)

end Fields

namespace Json
variable {α : Type}

/-! ## Written values and tags -/

theorem readCount_count (n : UInt32) : readCount (.count n.toNat) = .ok n := by
  have hcount : count? n.toNat.repr = some n := Count.numeral?_text n
  simp only [readCount, count, hcount]

theorem takenName_name [Named α] (a : α) : takenName (.string (Named.name a)) = .ok a := by
  simp [takenName, named]

theorem readName_name [Named α] (a : α) : readName (.string (Named.name a)) = .ok a := by
  simp [readName, named]

/-- A written list is read item by item. -/
theorem readList_map_of {read : Reader β} {write : α → Json} {result : α → β} {l : List α}
    (h : ∀ a ∈ l, read (write a) = .ok (result a)) :
    readList read (.array (l.map write)) = .ok (l.map result) := by
  induction l with
  | nil => rfl
  | cons a l ih =>
    obtain ⟨ha, hl⟩ := List.forall_mem_cons.1 h
    have htail : (l.map write).mapM read = .ok (l.map result) := ih hl
    change (List.map write (a :: l)).mapM read = .ok _
    rw [List.map_cons, List.mapM_cons, ha, htail]
    rfl

theorem readList_map {read : Reader α} {write : α → Json} (h : ∀ a, read (write a) = .ok a)
    (l : List α) : readList read (.array (l.map write)) = .ok l := by
  have hl := readList_map_of fun a (_ : a ∈ l) => h a
  rwa [List.map_id'] at hl

theorem tag?_name [Named α] (a : α) : (Json.string (Named.name a)).tag? = some a :=
  Named.ofName?_name a

/-- A tag that stands first is split off. -/
theorem splitTag_cons [Named α] {V : Type} {key : String} {value : V → Json} {v : V} {a : α}
    {members : List (String × V)} (htag : (value v).tag? = some a)
    (hkey : ∀ m ∈ members, m.1 ≠ key) :
    splitTag key value ((key, v) :: members) = some (a, members) := by
  have hnone : members.filter (fun m => m.1 == key) = [] :=
    List.filter_eq_nil_iff.2 fun m hm => by simpa using hkey m hm
  have hall : members.filter (fun m => m.1 != key) = members :=
    List.filter_eq_self.2 fun m hm => by simpa using hkey m hm
  simp [splitTag, hnone, hall, htag]

end Json
end FactoryScript
