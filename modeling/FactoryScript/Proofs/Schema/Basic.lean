import FactoryScript.Program.Document
import FactoryScript.Proofs.Run
import FactoryScript.Proofs.Json.Proper
import FactoryScript.Proofs.List

/-!
# Documents that are written differently

A schema says where in a document the objects of the domain stand and which keys they have. By it a
document can be written in other ways (`Schema.Rearranged`): the members of any object may change
places, and an object of the domain may have members under keys that are none of its fields. Which
fields an object has may depend on its tag, wherever in the object the tag stands.
-/

namespace FactoryScript

/-- What a value in a document stands for. -/
inductive Schema
  /-- No object of the domain, and no list of such. -/
  | plain
  | list (item : Schema)
  | record (fields : List (String × Schema))
  /-- A record whose fields depend on the kind of statement. -/
  | statement
  /-- A record whose fields depend on what makes the trigger fire. -/
  | trigger

namespace Schema

/-! ## The objects of the domain -/

def retention : List (String × Schema) := [("count", plain), ("each", plain)]

def transfer : List (String × Schema) :=
  [("quantity", plain), ("retain", record retention), ("kind", plain), ("resource_id", plain),
    ("except", plain), ("label", plain), ("each", plain), ("side", plain), ("slots", plain)]

/-- The fields that a statement has beside its tag. -/
def statementFields : StatementTag → List (String × Schema)
  | .input | .output => transfer
  | .branch =>
    [("condition", plain), ("then_branch", list statement), ("else_branch", list statement)]
  | .forget => [("labels", plain)]

/-- The fields that a trigger has beside its tag and its statements. -/
def firingFields : Firing → List (String × Schema)
  | .scheduled => [("interval", plain), ("unit", plain), ("global", plain), ("offset", plain)]
  | .redstonePulse => []

def program : Schema := record [("name", plain), ("triggers", list trigger)]

def endpoint : List (String × Schema) :=
  [("label", plain), ("side", plain), ("kind", plain), ("resource_id", plain), ("quantity", plain)]

def node : List (String × Schema) := ("id", plain) :: endpoint

def connection : List (String × Schema) := [("source", plain), ("target", plain)]

def storedTrigger : List (String × Schema) :=
  [("name", plain), ("kind", plain), ("tick_interval", plain), ("nodes", list (record node)),
    ("connections", list (record connection))]

def graph : Schema := list (record storedTrigger)

def wizardLayout : Schema :=
  record [("tick_interval", plain), ("sources", list (record endpoint)),
    ("targets", list (record endpoint))]

def commonValues : Schema :=
  record [("Labels", list plain), ("ItemIds", list plain), ("FluidIds", list plain),
    ("EnergyIds", list plain), ("GasIds", list plain)]

def condition : Schema :=
  record [("set_op", plain), ("label", plain), ("comparison", plain), ("quantity", plain),
    ("resource_id", plain)]

/-! ## The parts of a value -/

/-- The fields of a statement with this tag, if it is one. -/
def statementFields? (tag : Option Json) : Option (List (String × Schema)) :=
  (tag.bind Json.tag?).map fun tag => (Statement.tagKey, plain) :: statementFields tag

/-- The fields of an object with these members, if it is one of the domain. -/
def fields? (members : List (String × Json)) : Schema → Option (List (String × Schema))
  | plain | list _ => none
  | record fields => some fields
  | statement => statementFields? (members.lookup Statement.tagKey)
  | trigger => ((members.lookup TriggerKind.tagKey).bind Json.tag?).map fun firing =>
      (TriggerKind.tagKey, plain) :: (Trigger.statementsKey, list statement) :: firingFields firing

/-- What the value under a key of a record stands for. -/
def under (fields : List (String × Schema)) (key : String) : Schema :=
  (fields.lookup key).getD plain

/-- A key that is not among the fields of the object, where the object is one of the domain. -/
def Foreign (s : Schema) (members : List (String × Json)) (key : String) : Prop :=
  ∃ fields, s.fields? members = some fields ∧ key ∉ fields.map Prod.fst

/-- What the value under a key of an object stands for. -/
def member (s : Schema) (members : List (String × Json)) (key : String) : Schema :=
  under ((s.fields? members).getD []) key

/-- What an item stands for. A record may also be given as an array, by position. -/
def item (s : Schema) (items : List Json) (i : Nat) : Schema :=
  match s with
  | plain | trigger => plain
  | list s => s
  | record fields => (fields[i]?).elim plain Prod.snd
  | statement => ((statementFields? items.head?).bind (·[i]?)).elim plain Prod.snd

section
variable {s : Schema} {fields : List (String × Schema)} {members : List (String × Json)}
  {key : String}

theorem not_foreign (h : s.fields? members = some fields) (hkey : key ∈ fields.map Prod.fst) :
    ¬ s.Foreign members key := by
  rintro ⟨fields', hfields, hforeign⟩
  rw [h] at hfields
  cases hfields
  exact hforeign hkey

theorem member_eq_under (h : s.fields? members = some fields) :
    s.member members key = under fields key := by
  rw [member, h, Option.getD_some]

theorem under_cons_of_ne {m : String × Schema} (h : key ≠ m.1) :
    under (m :: fields) key = under fields key := by
  rw [under, List.lookup_cons_of_ne h, under]

/-- The schema of an item by position is that of the key at this position. -/
theorem under_of_getElem? {i : Nat} (hnodup : (fields.map Prod.fst).Nodup)
    (h : (fields.map Prod.fst)[i]? = some key) :
    (fields[i]?).elim plain Prod.snd = under fields key := by
  rw [List.getElem?_map, Option.map_eq_some_iff] at h
  obtain ⟨⟨key, s⟩, hi, rfl⟩ := h
  have hlook : fields.lookup key = some s :=
    (List.lookup_eq_some_iff_mem hnodup).2 (List.mem_of_getElem? hi)
  rw [under, hi, hlook]
  rfl

end

/-! ## Written differently -/

/-- The second value is the first one written differently, if at all. Objects are compared by what
is found under their keys, wherever it stands: what was there is there again, perhaps written
differently itself, and what was not there stands under a foreign key. -/
inductive Rearranged : Schema → Json → Json → Prop
  | refl (s : Schema) (v : Json) : Rearranged s v v
  | array {s : Schema} {items items' : List Json} (hlength : items'.length = items.length)
      (hitems : ∀ (i : Nat) v w, items[i]? = some v → items'[i]? = some w →
        Rearranged (s.item items i) v w) :
    Rearranged s (.array items) (.array items')
  | object {s : Schema} {members members' : List (String × Json)}
      (hkept : ∀ key, (members.lookup key).isSome → (members'.lookup key).isSome)
      (hmembers : ∀ key v w, members.lookup key = some v → members'.lookup key = some w →
        Rearranged (s.member members key) v w)
      (hadded : ∀ key, members.lookup key = none → (members'.lookup key).isSome →
        s.Foreign members key) :
    Rearranged s (.object members) (.object members')

/-- The members of an object in any order, perhaps written differently, and others under foreign
keys. -/
theorem Rearranged.of_perm {s : Schema} {members members' kept added : List (String × Json)}
    (hkeys : (members'.map Prod.fst).Nodup) (hperm : members'.Perm (kept ++ added))
    (hkept : List.Forall₂ (fun m m' => m'.1 = m.1 ∧ Rearranged (s.member members m.1) m.2 m'.2)
      members kept)
    (hadded : ∀ m ∈ added, s.Foreign members m.1) :
    Rearranged s (.object members) (.object members') := by
  have hlook (key : String) : members'.lookup key = (kept.lookup key).or (added.lookup key) := by
    rw [hperm.lookup_eq hkeys, List.lookup_append]
  have hrel (key : String) : Option.Rel (Rearranged (s.member members key)) (members.lookup key)
      (kept.lookup key) :=
    List.Forall₂.lookup (R := fun key => Rearranged (s.member members key)) hkept key
  refine .object (fun key hkey => ?_) (fun key v w hv hw => ?_) fun key hkey hkey' => ?_
  · obtain ⟨v, hv⟩ := Option.isSome_iff_exists.1 hkey
    obtain ⟨w, hw, -⟩ := (hv ▸ hrel key).exists_eq_some
    rw [hlook, hw]
    rfl
  · obtain ⟨w', hw', hvw⟩ := (hv ▸ hrel key).exists_eq_some
    rw [hlook, hw'] at hw
    obtain rfl : w' = w := Option.some.inj hw
    exact hvw
  · have hnone : kept.lookup key = none := (hkey ▸ hrel key).eq_none
    rw [hlook, hnone, Option.none_or, List.lookup_isSome_iff_mem] at hkey'
    obtain ⟨m, hm, rfl⟩ := List.mem_map.1 hkey'
    exact hadded m hm

theorem Rearranged.of_forall₂ {s : Schema} {items items' : List Json}
    (h : List.Forall₂ s.Rearranged items items') :
    (list s).Rearranged (.array items) (.array items') := by
  refine .array h.length_eq.symm fun i v w hv hw => ?_
  obtain ⟨hi, rfl⟩ := List.getElem?_eq_some_iff.1 hv
  obtain ⟨hi', rfl⟩ := List.getElem?_eq_some_iff.1 hw
  exact h.get hi hi'

/-- Where values that stand under one key are related, what is found under a key is related too,
unless the key has been added. -/
theorem rel_of_kept {R : String → Json → Json → Prop} {P : String → Prop}
    {members members' : List (String × Json)}
    (hkept : ∀ key, (members.lookup key).isSome → (members'.lookup key).isSome)
    (hmembers : ∀ key v w, members.lookup key = some v → members'.lookup key = some w → R key v w)
    (hadded : ∀ key, members.lookup key = none → (members'.lookup key).isSome → P key)
    {key : String} (hkey : ¬ P key) :
    Option.Rel (R key) (members.lookup key) (members'.lookup key) := by
  cases hv : members.lookup key with
  | none =>
    have hnone : members'.lookup key = none := by
      by_contra hsome
      exact hkey (hadded key hv (Option.isSome_iff_ne_none.2 hsome))
    rw [hnone]
    exact .none
  | some v =>
    obtain ⟨w, hw⟩ := Option.isSome_iff_exists.1 (hkept key (by rw [hv]; rfl))
    rw [hw]
    exact .some (hmembers key v w hv hw)

/-- A value and the same one written differently, both of them proper. -/
structure Variant (s : Schema) (v w : Json) : Prop where
  left : v.Proper
  right : w.Proper
  rearranged : s.Rearranged v w

namespace Variant
variable {s : Schema} {v w : Json} {items : List Json} {members : List (String × Json)}

theorem of_getElem? {items' : List Json} {i : Nat} (hleft : (Json.array items).Proper)
    (hright : (Json.array items').Proper) (hv : items[i]? = some v) (hw : items'[i]? = some w)
    (h : s.Rearranged v w) : s.Variant v w where
  left := hleft.of_mem_items v (List.mem_of_getElem? hv)
  right := hright.of_mem_items w (List.mem_of_getElem? hw)
  rearranged := h

theorem of_lookup {members' : List (String × Json)} {key : String}
    (hleft : (Json.object members).Proper) (hright : (Json.object members').Proper)
    (hv : members.lookup key = some v) (hw : members'.lookup key = some w)
    (h : s.Rearranged v w) : s.Variant v w where
  left := hleft.of_mem_members _ (List.mem_of_lookup hv)
  right := hright.of_mem_members _ (List.mem_of_lookup hw)
  rearranged := h

/-- A variant of an array is an array of the same length with variants as its items. -/
theorem array (h : s.Variant (.array items) w) :
    ∃ items', w = .array items' ∧ items'.length = items.length ∧
      ∀ (i : Nat) v w, items[i]? = some v → items'[i]? = some w → (s.item items i).Variant v w := by
  obtain ⟨hleft, hright, h⟩ := h
  cases h with
  | refl =>
    refine ⟨items, rfl, rfl, fun i v w hv hw => of_getElem? hleft hright hv hw ?_⟩
    obtain rfl : v = w := Option.some.inj (hv.symm.trans hw)
    exact .refl _ v
  | array hlength hitems =>
    exact ⟨_, rfl, hlength, fun i v w hv hw =>
      of_getElem? hleft hright hv hw (hitems i v w hv hw)⟩

/-- What is found under a key is the same on both sides, perhaps written differently, unless the
key is foreign. -/
theorem object (h : s.Variant (.object members) w) :
    ∃ members', w = .object members' ∧
      ∀ key, ¬ s.Foreign members key →
        Option.Rel (s.member members key).Variant (members.lookup key) (members'.lookup key) := by
  obtain ⟨hleft, hright, h⟩ := h
  cases h with
  | refl =>
    refine ⟨members, rfl, fun key _ => ?_⟩
    cases hv : members.lookup key with
    | none => exact .none
    | some v => exact .some (of_lookup hleft hleft hv hv (.refl _ v))
  | object hkept hmembers hadded =>
    refine ⟨_, rfl, fun key hkey => rel_of_kept (R := fun key => (s.member members key).Variant)
      hkept (fun key v w hv hw => ?_) hadded hkey⟩
    exact of_lookup hleft hright hv hw (hmembers key v w hv hw)

/-- A tag is written in one way only. -/
theorem tag?_eq_some {α : Type} [Named α] (h : s.Variant v w) (a : α) (htag : v.tag? = some a) :
    w.tag? = some a := by
  obtain ⟨-, -, h⟩ := h
  cases h with
  | refl => exact htag
  | array => cases htag
  | object => cases htag

end Variant

end Schema
end FactoryScript
