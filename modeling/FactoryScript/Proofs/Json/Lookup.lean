import FactoryScript.Json.Record
import FactoryScript.Proofs.Run
import FactoryScript.Proofs.List

/-!
# Records by the keys of their members

What is read from an object with distinct keys is a matter of looking up the keys of the fields
(`Fields.ofMembers_eq_ok_iff`): the order of the members plays no part, and neither does the value
of a key that no field has. So two objects are read as the same record if each field finds values in
them that it reads alike (`Fields.Follows.ofMembers`). In an array the place of an item stands for
its key (`Fields.Follows.ofItems`).
-/

namespace FactoryScript

namespace Fields
variable {V W α β : Type} {f g : Fields V α} {key : String} {v : V} {a : α}
  {look look' : String → Option V}

/-! ## Looking up -/

/-- What a field is in the end: the value it has, or what is read from the value that is found for
it, or its default. It cannot be given twice. -/
def Holds (read : V → Except Fault β) (fallback got : Option β) (found : Option V) (b : β) : Prop :=
  match got, found with
  | none, none => fallback = some b
  | none, some v => read v = .ok b
  | some c, none => c = b
  | some _, some _ => False

/-- The record is made of what is found under the keys of its fields. -/
def Reads (look : String → Option V) : {α : Type} → Fields V α → α → Prop
  | _, .done b, a => b = a
  | _, .field rest key read fallback got, a =>
    ∃ make b, rest.Reads look make ∧ Holds read fallback got (look key) b ∧ make b = a

/-- What a record reads depends on the values at its own keys only. -/
theorem Reads.congr (h : f.Reads look a) (hlook : ∀ key ∈ f.keys, look key = look' key) :
    f.Reads look' a := by
  induction f with
  | done b => exact h
  | field rest key read fallback got ih =>
    obtain ⟨make, b, hmake, hb, rfl⟩ := h
    rw [hlook key (List.mem_append_right _ List.mem_cons_self)] at hb
    exact ⟨make, b, ih hmake fun k hk => hlook k (List.mem_append_left _ hk), hb, rfl⟩

/-- To finish a record is to read it with nothing more to look up. -/
theorem finish_eq_ok_iff : f.finish = .ok a ↔ f.Reads (fun _ => none) a := by
  induction f with
  | done b => exact ⟨Except.ok.inj, congrArg _⟩
  | field rest key read fallback got ih =>
    simp only [finish, Reads, ← ih]
    constructor
    · intro h
      split at h <;> rename_i hmake hb <;> cases h
      refine ⟨_, _, hmake, ?_, rfl⟩
      cases got with
      | none => exact hb
      | some c => exact Option.some.inj hb
    · rintro ⟨make, b, hmake, hb, rfl⟩
      have hvalue : (got <|> fallback) = some b := by
        cases got with
        | none => exact hb
        | some c => exact congrArg some hb
      rw [hmake, hvalue]

/-- A member is unknown to a record exactly if its key is none of the record's. -/
theorem put_eq_none_iff : f.put key v = none ↔ key ∉ f.keys := by
  induction f with
  | done b => exact ⟨fun _ => nofun, fun _ => rfl⟩
  | field rest k read fallback got ih =>
    simp only [put, keys, List.mem_append, List.mem_singleton, not_or, ← ih]
    split <;> rename_i hk
    · exact ⟨nofun, fun h => absurd hk h.2⟩
    · simp [hk]

/-- Storing a value keeps the keys of the record. -/
theorem keys_of_put (h : f.put key v = some (.ok g)) : g.keys = f.keys := by
  induction f with
  | done b => cases h
  | field rest k read fallback got ih =>
    simp only [put] at h
    split at h
    · cases got with
      | none =>
        obtain ⟨b, -, rfl⟩ := Except.map_eq_ok_iff.1 (Option.some.inj h)
        rfl
      | some c => cases h
    · obtain ⟨r, hr, h⟩ := Option.map_eq_some_iff.1 h
      obtain ⟨rest', rfl, rfl⟩ := Except.map_eq_ok_iff.1 h
      exact congrArg (· ++ [k]) (ih hr)

/-- A value that is found is one that may be put into the record first. -/
theorem reads_iff_put (hkeys : f.keys.Nodup) (hkey : key ∈ f.keys) (hv : look key = some v)
    (hnone : look' key = none) (hlook : ∀ k, k ≠ key → look k = look' k) :
    f.Reads look a ↔ ∃ g, f.put key v = some (.ok g) ∧ g.Reads look' a := by
  induction f with
  | done b => cases hkey
  | field rest k read fallback got ih =>
    obtain ⟨hrest, -, hne⟩ := List.nodup_append.1 hkeys
    by_cases hk : key = k
    · subst hk
      have hsame : ∀ k ∈ rest.keys, look k = look' k := fun k hk =>
        hlook k fun h => hne k hk key List.mem_cons_self h
      simp only [Reads, put, if_true, hv]
      constructor
      · rintro ⟨make, b, hmake, hb, rfl⟩
        cases got with
        | none =>
          have hread : read v = .ok b := hb
          refine ⟨.field rest key read fallback (some b), by rw [hread]; rfl, ?_⟩
          exact ⟨make, b, hmake.congr hsame, by rw [hnone]; rfl, rfl⟩
        | some c => exact hb.elim
      · rintro ⟨g, hg, ha⟩
        cases got with
        | none =>
          obtain ⟨b, hread, rfl⟩ := Except.map_eq_ok_iff.1 (Option.some.inj hg)
          obtain ⟨make, c, hmake, hc, rfl⟩ := ha
          rw [hnone] at hc
          obtain rfl : b = c := hc
          exact ⟨make, b, hmake.congr fun k hk => (hsame k hk).symm, hread, rfl⟩
        | some c => cases hg
    · have hmem : key ∈ rest.keys :=
        (List.mem_append.1 hkey).resolve_right fun h => hk (List.mem_singleton.1 h)
      have hfield : look k = look' k := hlook k (Ne.symm hk)
      simp only [Reads, put, if_neg hk, hfield, ih hrest hmem]
      constructor
      · rintro ⟨make, b, ⟨rest', hput, hmake⟩, hb, rfl⟩
        refine ⟨.field rest' k read fallback got, ?_, make, b, hmake, hb, rfl⟩
        rw [hput]
        rfl
      · rintro ⟨g, hg, ha⟩
        obtain ⟨r, hr, hg⟩ := Option.map_eq_some_iff.1 hg
        obtain ⟨rest', rfl, rfl⟩ := Except.map_eq_ok_iff.1 hg
        obtain ⟨make, b, hmake, hb, rfl⟩ := ha
        exact ⟨make, b, ⟨rest', hr, hmake⟩, hb, rfl⟩

/-! ## Objects -/

section
variable {other : V → Except Fault Unit} {members : List (String × V)}

theorem putMember_of_mem (h : key ∈ f.keys) :
    f.putMember other (key, v) = .ok g ↔ f.put key v = some (.ok g) := by
  rw [putMember]
  split <;> rename_i hput
  · rw [hput, Option.some.injEq]
  · exact absurd h (put_eq_none_iff.1 hput)

/-- A foreign member is only looked at by the reader of foreign members; the record stays as it is.
-/
theorem putMember_of_notMem (h : key ∉ f.keys) :
    f.putMember other (key, v) = .ok g ↔ other v = .ok () ∧ f = g := by
  rw [putMember, put_eq_none_iff.2 h]
  constructor
  · intro hg
    obtain ⟨_, hv, rfl⟩ := Except.map_eq_ok_iff.1 hg
    exact ⟨hv, rfl⟩
  · rintro ⟨hv, rfl⟩
    exact Except.map_eq_ok_iff.2 ⟨(), hv, rfl⟩

theorem ofMembers_cons_eq_ok_iff {m : String × V} :
    f.ofMembers other (m :: members) = .ok a ↔
      ∃ g, f.putMember other m = .ok g ∧ g.ofMembers other members = .ok a := by
  rw [← Except.bind_eq_ok_iff, ofMembers, List.foldlM_cons]
  cases f.putMember other m <;> rfl

/-- Reading an object with distinct keys is looking up the keys of the fields; the other members
have to pass. -/
theorem ofMembers_eq_ok_iff (hkeys : f.keys.Nodup) (hmembers : (members.map Prod.fst).Nodup) :
    f.ofMembers other members = .ok a ↔
      f.Reads (members.lookup ·) a ∧ ∀ m ∈ members, m.1 ∉ f.keys → other m.2 = .ok () := by
  induction members generalizing f with
  | nil => exact finish_eq_ok_iff.trans ⟨fun h => ⟨h, nofun⟩, And.left⟩
  | cons m rest ih =>
    obtain ⟨key, v⟩ := m
    obtain ⟨hm, hrest⟩ := List.nodup_cons.1 hmembers
    have hnone : rest.lookup key = none := List.lookup_eq_none_iff_notMem.2 hm
    have hself : ((key, v) :: rest).lookup key = some v := List.lookup_cons_self
    have hother : ∀ k, k ≠ key → ((key, v) :: rest).lookup k = rest.lookup k := fun k hk =>
      List.lookup_cons_of_ne hk
    rw [ofMembers_cons_eq_ok_iff, List.forall_mem_cons]
    by_cases hkey : key ∈ f.keys
    · simp only [putMember_of_mem hkey, reads_iff_put hkeys hkey hself hnone hother]
      constructor
      · rintro ⟨g, hput, ha⟩
        have hsame := keys_of_put hput
        obtain ⟨hreads, hpass⟩ := (ih (hsame ▸ hkeys) hrest).1 ha
        exact ⟨⟨g, hput, hreads⟩, fun h => absurd hkey h, hsame ▸ hpass⟩
      · rintro ⟨⟨g, hput, hreads⟩, -, hpass⟩
        have hsame := keys_of_put hput
        exact ⟨g, hput, (ih (hsame ▸ hkeys) hrest).2 ⟨hreads, hsame.symm ▸ hpass⟩⟩
    · have hlook : ∀ k ∈ f.keys, ((key, v) :: rest).lookup k = rest.lookup k := fun k hk =>
        hother k fun h => hkey (h ▸ hk)
      simp only [putMember_of_notMem hkey]
      constructor
      · rintro ⟨g, ⟨hv, rfl⟩, ha⟩
        obtain ⟨hreads, hpass⟩ := (ih hkeys hrest).1 ha
        exact ⟨hreads.congr fun k hk => (hlook k hk).symm, fun _ => hv, hpass⟩
      · rintro ⟨hreads, hv, hpass⟩
        exact ⟨f, ⟨hv hkey, rfl⟩, (ih hkeys hrest).2 ⟨hreads.congr hlook, hpass⟩⟩

end

/-! ## Fields that read alike -/

/-- The second description reads from a value what the first one reads from a value related to it
under the key of the field. Both have the same keys and defaults. -/
inductive Follows (R : String → V → W → Prop) : {α : Type} → Fields V α → Fields W α → Prop
  | done {α : Type} (a : α) : Follows R (.done a) (.done a)
  | field {α β : Type} {rest : Fields V (β → α)} {rest' : Fields W (β → α)} {key : String}
      {read : V → Except Fault β} {read' : W → Except Fault β} {fallback : Option β}
      (h : Follows R rest rest') (hread : ∀ v w b, R key v w → read v = .ok b → read' w = .ok b) :
    Follows R (.field rest key read fallback none) (.field rest' key read' fallback none)

namespace Follows
variable {R : String → V → W → Prop} {f : Fields V α} {g : Fields W α}

theorem keys_eq (h : Follows R f g) : g.keys = f.keys := by
  induction h with
  | done a => rfl
  | @field _ _ _ _ key _ _ _ h hread ih => exact congrArg (· ++ [key]) ih

theorem mono {R' : String → V → W → Prop} (h : Follows R f g)
    (hR : ∀ key ∈ f.keys, ∀ v w, R' key v w → R key v w) : Follows R' f g := by
  induction h with
  | done a => exact .done a
  | field h hread ih =>
    refine .field (ih fun key hkey => hR key (List.mem_append_left _ hkey)) fun v w b hvw => ?_
    exact hread v w b (hR _ (List.mem_append_right _ List.mem_cons_self) v w hvw)

theorem map (h : Follows R f g) (make : α → β) : Follows R (f.map make) (g.map make) := by
  induction h generalizing β with
  | done a => exact .done (make a)
  | field h hread ih => exact .field (ih fun f b => make (f b)) hread

theorem comap {V' W' : Type} {S : String → V' → W' → Prop} (h : Follows R f g) (p : V' → V)
    (q : W' → W) (hS : ∀ key v w, S key v w → R key (p v) (q w)) :
    Follows S (f.comap p) (g.comap q) := by
  induction h with
  | done a => exact .done a
  | field h hread ih => exact .field ih fun v w b hvw => hread _ _ b (hS _ v w hvw)

/-- If one record follows another, alike values under its keys are read with the same result. -/
theorem reads {look : String → Option V} {look' : String → Option W} (h : Follows R f g)
    (hlook : ∀ key ∈ f.keys, Option.Rel (R key) (look key) (look' key)) (ha : f.Reads look a) :
    g.Reads look' a := by
  induction h with
  | done b => exact ha
  | @field _ _ _ _ key read read' _ h hread ih =>
    obtain ⟨make, b, hmake, hb, rfl⟩ := ha
    refine ⟨make, b, ih (fun k hk => hlook k (List.mem_append_left _ hk)) hmake, ?_, rfl⟩
    have hrel := hlook key (List.mem_append_right _ List.mem_cons_self)
    cases hv : look key with
    | none =>
      rw [hv] at hrel hb
      rw [hrel.eq_none]
      exact hb
    | some v =>
      rw [hv] at hrel hb
      obtain ⟨w, hw, hvw⟩ := hrel.exists_eq_some
      rw [hw]
      exact hread v w b hvw hb

/-- The same for whole objects: the order of the members plays no part, since each record finds its
own by key. -/
theorem ofMembers {other : V → Except Fault Unit} {other' : W → Except Fault Unit}
    {members : List (String × V)} {members' : List (String × W)} (h : Follows R f g)
    (hkeys : f.keys.Nodup) (hmembers : (members.map Prod.fst).Nodup)
    (hmembers' : (members'.map Prod.fst).Nodup)
    (hlook : ∀ key ∈ f.keys, Option.Rel (R key) (members.lookup key) (members'.lookup key))
    (hother : ∀ m ∈ members', other' m.2 = .ok ()) (ha : f.ofMembers other members = .ok a) :
    g.ofMembers other' members' = .ok a := by
  have hreads := ((ofMembers_eq_ok_iff hkeys hmembers).1 ha).1
  exact (ofMembers_eq_ok_iff (h.keys_eq ▸ hkeys) hmembers').2
    ⟨h.reads hlook hreads, fun m hm _ => hother m hm⟩

/-- Items are related under the keys of the fields in whose places they stand. -/
theorem ofItems {items rest : List V} {items' : List W} (h : Follows R f g)
    (hlength : items'.length = items.length)
    (hitems : ∀ (i : Nat) (key : String) (v : V) (w : W), f.keys[i]? = some key →
      items[i]? = some v → items'[i]? = some w → R key v w)
    (ha : f.ofItems items = .ok (a, rest)) :
    rest = items.drop f.keys.length ∧
      g.ofItems items' = .ok (a, items'.drop f.keys.length) := by
  induction h generalizing rest with
  | done b =>
    cases ha
    exact ⟨rfl, rfl⟩
  | @field _ _ fields fields' key read read' fallback h hread ih =>
    have hkey : (fields.keys ++ [key])[fields.keys.length]? = some key := by simp
    have hinner : ∀ (i : Nat) (k : String) (v : V) (w : W), fields.keys[i]? = some k →
        items[i]? = some v → items'[i]? = some w → R k v w := fun i k v w hk =>
      hitems i k v w ((List.getElem?_append_left (List.getElem?_eq_some_iff.1 hk).1).trans hk)
    simp only [keys, List.length_append, List.length_singleton, Fields.ofItems] at ha ⊢
    split at ha <;> rename_i hmake
    · cases ha
    · rename_i make v after
      obtain ⟨hafter, hmake'⟩ := ih hinner hmake
      obtain ⟨b, hb, heq⟩ := Except.map_eq_ok_iff.1 ha
      cases heq
      obtain ⟨hv, hrest⟩ := List.drop_eq_cons_iff.1 hafter.symm
      have hlt : fields.keys.length < items'.length :=
        hlength ▸ (List.getElem?_eq_some_iff.1 hv).1
      have hw := List.getElem?_eq_getElem hlt
      have hread' := hread _ _ b (hitems _ key v _ hkey hv hw) hb
      rw [hmake', List.drop_eq_getElem_cons hlt]
      simp only [hread']
      exact ⟨hrest.symm, rfl⟩
    · rename_i make
      obtain ⟨hnil, hmake'⟩ := ih hinner hmake
      have hle : items.length ≤ fields.keys.length := List.drop_eq_nil_iff.1 hnil.symm
      have hdrop : items.drop (fields.keys.length + 1) = [] := List.drop_eq_nil_iff.2 (by omega)
      have hdrop' : items'.drop (fields.keys.length + 1) = [] :=
        List.drop_eq_nil_iff.2 (by omega)
      have hnil' : items'.drop fields.keys.length = [] := List.drop_eq_nil_iff.2 (by omega)
      rw [hdrop, hdrop', hmake', hnil']
      split at ha
      · cases ha
        exact ⟨rfl, rfl⟩
      · cases ha

/-- Arrays that give nothing beside the fields. -/
theorem ofItems_nil {items : List V} {items' : List W} (h : Follows R f g)
    (hlength : items'.length = items.length)
    (hitems : ∀ (i : Nat) (key : String) (v : V) (w : W), f.keys[i]? = some key →
      items[i]? = some v → items'[i]? = some w → R key v w)
    (ha : f.ofItems items = .ok (a, [])) : g.ofItems items' = .ok (a, []) := by
  obtain ⟨hnil, ha'⟩ := h.ofItems hlength hitems ha
  have hle : items.length ≤ f.keys.length := List.drop_eq_nil_iff.1 hnil.symm
  have hnil' : items'.drop f.keys.length = [] := List.drop_eq_nil_iff.2 (by omega)
  rw [ha', hnil']

end Follows
end Fields

/-! ## Tags -/

/-- The tag is found wherever it stands, and the rest keeps its order. -/
theorem Json.splitTag_eq_some_iff {α V : Type} [Named α] {key : String} {value : V → Json}
    {members rest : List (String × V)} {a : α} (hmembers : (members.map Prod.fst).Nodup) :
    splitTag key value members = some (a, rest) ↔
      (∃ v, members.lookup key = some v ∧ (value v).tag? = some a) ∧
        rest = members.filter fun m => m.1 != key := by
  rw [splitTag, List.filter_fst_beq hmembers]
  cases members.lookup key with
  | none => simp
  | some v =>
    simp only [Option.map_some, Option.toList_some, Option.map_eq_some_iff, Prod.mk.injEq,
      Option.some.injEq, exists_eq_left']
    constructor
    · rintro ⟨b, htag, rfl, rfl⟩
      exact ⟨htag, rfl⟩
    · rintro ⟨htag, rfl⟩
      exact ⟨a, htag, rfl, rfl⟩

/-- Where the tags are alike, the one of the second object is split off as well. -/
theorem Json.splitTag_of_rel {α V : Type} [Named α] {key : String} {value : V → Json}
    {members members' rest : List (String × V)} {a : α} (hmembers : (members.map Prod.fst).Nodup)
    (hmembers' : (members'.map Prod.fst).Nodup)
    (htag : Option.Rel (fun v w => ∀ a : α, (value v).tag? = some a → (value w).tag? = some a)
      (members.lookup key) (members'.lookup key))
    (h : splitTag key value members = some (a, rest)) :
    splitTag key value members' = some (a, members'.filter fun m => m.1 != key) := by
  obtain ⟨⟨v, hv, ha⟩, -⟩ := (splitTag_eq_some_iff hmembers).1 h
  rw [hv] at htag
  obtain ⟨w, hw, hvw⟩ := htag.exists_eq_some
  exact (splitTag_eq_some_iff hmembers').2 ⟨⟨w, hw, hvw a ha⟩, rfl⟩

end FactoryScript
