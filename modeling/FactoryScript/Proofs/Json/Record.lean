import FactoryScript.Firing
import FactoryScript.Json.Record
import FactoryScript.Proofs.Run

/-!
# What readers yield

A record that has been read has a value for each field, and that value was read, or it is the
default. So a property of records follows from the readers and defaults alone, whatever document is
read (`Json.readRecord_yields`), or from what they make of the values at hand
(`Fields.YieldsFrom.ofMembers`).
-/

namespace UInt32

theorem one_le_max (n : UInt32) : 1 ≤ max 1 n := by
  change 1 ≤ if 1 ≤ n then n else 1
  split <;> rename_i h
  · exact h
  · decide

theorem max_one_eq (n : UInt32) : max 1 n = if n = 0 then 1 else n := by
  change (if 1 ≤ n then n else 1) = _
  have hone : 1 ≤ n ↔ n ≠ 0 := by
    rw [UInt32.le_iff_toNat_le, Ne, ← UInt32.toNat_inj]
    exact Nat.one_le_iff_ne_zero
  simp only [hone, ite_not]

end UInt32

namespace FactoryScript

namespace Fields
variable {V α β : Type} {P : α → Prop} {Q : V → Prop} {f g : Fields V α}

/-- Every record of these fields has the property, whatever values the readers find. -/
def Yields : {α : Type} → Fields V α → (α → Prop) → Prop
  | _, .done a, P => P a
  | _, .field rest _ read fallback got, P =>
    rest.Yields fun make =>
      ∀ b, got = some b ∨ fallback = some b ∨ (∃ v, read v = .ok b) → P (make b)

/-- Every record of these fields that is read from values of one kind has the property. -/
def YieldsFrom (Q : V → Prop) : {α : Type} → Fields V α → (α → Prop) → Prop
  | _, .done a, P => P a
  | _, .field rest _ read fallback got, P =>
    rest.YieldsFrom Q fun make =>
      ∀ b, got = some b ∨ fallback = some b ∨ (∃ v, Q v ∧ read v = .ok b) → P (make b)

theorem YieldsFrom.mono {P' : α → Prop} (h : f.YieldsFrom Q P) (hP : ∀ a, P a → P' a) :
    f.YieldsFrom Q P' := by
  induction f with
  | done a => exact hP a h
  | field rest key read fallback got ih =>
    exact ih h fun make hmake b hb => hP _ (hmake b hb)

theorem YieldsFrom.map {g : α → β} {P : β → Prop} (h : f.YieldsFrom Q fun a => P (g a)) :
    (f.map g).YieldsFrom Q P := by
  induction f generalizing β with
  | done a => exact h
  | field rest key read fallback got ih => exact ih h

/-- A record that is read from other values yields what it yielded before, if those values are
turned into good ones. -/
theorem YieldsFrom.comap {W : Type} {g : W → V} {R : W → Prop} (h : f.YieldsFrom Q P)
    (hg : ∀ w, R w → Q (g w)) : (f.comap g).YieldsFrom R P := by
  induction f with
  | done a => exact h
  | field rest key read fallback got ih =>
    refine (ih h).mono fun make hmake b hb => hmake b ?_
    obtain hb | hb | ⟨w, hw, hb⟩ := hb
    · exact .inl hb
    · exact .inr (.inl hb)
    · exact .inr (.inr ⟨g w, hg w hw, hb⟩)

/-- Storing a good value keeps the promise of a record about what it will yield. -/
theorem YieldsFrom.put {key : String} {v : V} (h : f.YieldsFrom Q P) (hv : Q v)
    (hg : f.put key v = some (.ok g)) : g.YieldsFrom Q P := by
  induction f with
  | done a => cases hg
  | field rest k read fallback got ih =>
    simp only [Fields.put] at hg
    split at hg
    · obtain rfl | ⟨b, rfl⟩ := got.eq_none_or_eq_some <;> simp only [Option.some.injEq] at hg
      · obtain ⟨b, hb, rfl⟩ := Except.map_eq_ok_iff.1 hg
        refine YieldsFrom.mono (f := rest) h fun make hmake c hc => hmake c ?_
        obtain hc | hc | hc := hc
        · exact .inr (.inr ⟨v, hv, Option.some.inj hc ▸ hb⟩)
        · exact .inr (.inl hc)
        · exact .inr (.inr hc)
      · cases hg
    · obtain ⟨r, hr, hg⟩ := Option.map_eq_some_iff.1 hg
      obtain ⟨rest', rfl, rfl⟩ := Except.map_eq_ok_iff.1 hg
      exact ih h hr

/-- What a finished record yields has the promised property. -/
theorem YieldsFrom.finish {a : α} (h : f.YieldsFrom Q P) (ha : f.finish = .ok a) : P a := by
  induction f with
  | done b => exact Except.ok.inj ha ▸ h
  | field rest key read fallback got ih =>
    simp only [Fields.finish] at ha
    split at ha <;> rename_i hmake hb <;> cases ha
    refine ih h hmake _ ?_
    obtain rfl | ⟨b, rfl⟩ := got.eq_none_or_eq_some
    · exact .inr (.inl hb)
    · exact .inl hb

/-- A good member, stored or passed over, keeps the promise. -/
theorem YieldsFrom.putMember {other : V → Except Fault Unit} {m : String × V}
    (h : f.YieldsFrom Q P) (hm : Q m.2) (hg : f.putMember other m = .ok g) :
    g.YieldsFrom Q P := by
  rw [Fields.putMember] at hg
  split at hg <;> rename_i hput
  · exact h.put hm (hg ▸ hput)
  · obtain ⟨_, _, rfl⟩ := Except.map_eq_ok_iff.1 hg
    exact h

/-- By induction over the members: a record read from good members yields what it promises. -/
theorem YieldsFrom.ofMembers {other : V → Except Fault Unit} {members : List (String × V)} {a : α}
    (h : f.YieldsFrom Q P) (hmembers : ∀ m ∈ members, Q m.2)
    (ha : f.ofMembers other members = .ok a) : P a := by
  induction members generalizing f with
  | nil => exact h.finish ha
  | cons m rest ih =>
    obtain ⟨hm, hrest⟩ := List.forall_mem_cons.1 hmembers
    obtain ⟨g, hg, ha⟩ := Except.bind_eq_ok_iff.1 ha
    rw [List.foldlM_cons] at hg
    obtain ⟨f', hf', hg⟩ := Except.bind_eq_ok_iff.1 hg
    exact ih (h.putMember hm hf') hrest (Except.bind_eq_ok_iff.2 ⟨g, hg, ha⟩)

/-- By induction over the fields: so does a record read by position, and what it leaves over is
good. -/
theorem YieldsFrom.ofItems {items rest : List V} {a : α} (h : f.YieldsFrom Q P)
    (hitems : ∀ v ∈ items, Q v) (ha : f.ofItems items = .ok (a, rest)) :
    P a ∧ ∀ v ∈ rest, Q v := by
  induction f generalizing rest with
  | done b =>
    cases ha
    exact ⟨h, hitems⟩
  | field fields key read fallback got ih =>
    simp only [Fields.ofItems] at ha
    split at ha <;> rename_i hmake
    · cases ha
    · obtain ⟨b, hb, h'⟩ := Except.map_eq_ok_iff.1 ha
      cases h'
      obtain ⟨hP, hrest⟩ := ih h hmake
      obtain ⟨hv, hrest⟩ := List.forall_mem_cons.1 hrest
      exact ⟨hP _ (.inr (.inr ⟨_, hv, hb⟩)), hrest⟩
    · split at ha <;> cases ha
      exact ⟨(ih h hmake).1 _ (.inr (.inl rfl)), nofun⟩

theorem Yields.yieldsFrom (h : f.Yields P) : f.YieldsFrom (fun _ => True) P := by
  induction f with
  | done a => exact h
  | field rest key read fallback got ih =>
    refine (ih h).mono fun make hmake b hb => hmake b ?_
    simpa using hb

theorem Yields.ofMembers {other : V → Except Fault Unit} {members : List (String × V)} {a : α}
    (h : f.Yields P) (ha : f.ofMembers other members = .ok a) : P a :=
  h.yieldsFrom.ofMembers (fun _ _ => trivial) ha

theorem Yields.ofItems {items rest : List V} {a : α} (h : f.Yields P)
    (ha : f.ofItems items = .ok (a, rest)) : P a :=
  (h.yieldsFrom.ofItems (fun _ _ => trivial) ha).1

end Fields

namespace Json

theorem unexpected_ne_ok {α : Type} {v : Json} {a : α} : unexpected v ≠ .ok a := by
  unfold unexpected
  split <;> exact nofun

theorem eq_ok_of_settle {α : Type} {r : Except Fault α} {a : α} (h : settle r = .ok a) :
    r = .ok a := by
  cases r with
  | ok b => exact h
  | error f => cases h

/-- A text that is read with success has a value that the reader accepts. -/
theorem eq_ok_of_ofText {α : Type} {read : Reader α} {text : String} {a : α}
    (h : read.ofText text = .ok a) : read (scan text).value = .ok a := by
  unfold Reader.ofText at h
  cases hread : read (scan text).value with
  | error f => simp [hread] at h
  | ok b =>
    simp only [hread] at h
    split at h
    · exact h
    · cases h

/-- Splitting off the tag adds no member. -/
theorem mem_of_splitTag {α V : Type} [Named α] {key : String} {value : V → Json}
    {members rest : List (String × V)} {a : α}
    (h : splitTag key value members = some (a, rest)) : ∀ m ∈ rest, m ∈ members := by
  unfold splitTag at h
  split at h
  · obtain ⟨b, -, h⟩ := Option.map_eq_some_iff.1 h
    cases h
    exact fun m hm => (List.mem_filter.1 hm).1
  · cases h

/-- In either form of a record, object or array, what is read has the promised property. -/
theorem readRecord_yields {α : Type} {P : α → Prop} {f : Fields Json α} {v : Json} {a : α}
    (h : f.Yields P) (ha : readRecord f v = .ok a) : P a := by
  unfold readRecord at ha
  split at ha
  · exact h.ofMembers ha
  · split at ha <;> rename_i hitems <;> cases ha
    exact h.ofItems hitems
  · exact absurd ha unexpected_ne_ok

theorem one_le_of_readInterval {v : Json} {n : UInt32} (h : readInterval v = .ok n) : 1 ≤ n := by
  obtain ⟨m, _, rfl⟩ := Except.map_eq_ok_iff.1 h
  exact UInt32.one_le_max m

/-- An interval field holds at least one, also if it is left to its default. -/
theorem one_le_of_interval_field {n : UInt32}
    (h : none = some n ∨ some defaultInterval = some n ∨ ∃ v, readInterval v = .ok n) : 1 ≤ n := by
  obtain h | h | ⟨v, hv⟩ := h
  · cases h
  · cases h
    decide
  · exact one_le_of_readInterval hv

theorem forall_mem_of_readList {α : Type} {P : α → Prop} {read : Reader α} {v : Json} {l : List α}
    (hread : ∀ v a, read v = .ok a → P a) (h : readList read v = .ok l) : ∀ a ∈ l, P a := by
  unfold readList at h
  split at h
  · exact Except.forall_mem_of_mapM hread h
  · exact absurd h unexpected_ne_ok

end Json
end FactoryScript
