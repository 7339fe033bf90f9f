import FactoryScript.Proofs.Run
import Mathlib.Data.List.Forall2
import Mathlib.Data.List.Induction
import Mathlib.Data.List.Nodup

/-!
# Lists

`List.eraseDups` keeps the first one of equal items. What it does is told by going through a list
from its start, that is, by what one more item at its end adds. In a list of keys and values
`List.lookup` finds the first value under a key, which is the only one where no key comes twice.
`List.intercalate` joins lists with a separator between them.
-/

namespace List
variable {α β : Type _}

section
variable [BEq α] [LawfulBEq α]

theorem eraseDups_concat (l : List α) (a : α) [Decidable (a ∈ l)] :
    (l ++ [a]).eraseDups = if a ∈ l then l.eraseDups else l.eraseDups ++ [a] := by
  rw [eraseDups_append]
  split <;> rename_i h
  · simp [List.removeAll, h]
  · simp [List.removeAll, h, eraseDups_cons]

/-- Every item is kept once. -/
theorem nodup_eraseDups (l : List α) : l.eraseDups.Nodup := by
  classical
  induction l using List.reverseRecOn with
  | nil => exact nodup_nil
  | append_singleton l a ih =>
    rw [eraseDups_concat]
    split <;> rename_i h
    · exact ih
    · rw [← concat_eq_append]
      exact ih.concat fun hmem => h (mem_eraseDups.1 hmem)

/-- A list of distinct items is kept as it is. -/
theorem eraseDups_of_nodup {l : List α} (h : l.Nodup) : l.eraseDups = l := by
  classical
  induction l using List.reverseRecOn with
  | nil => rfl
  | append_singleton l a ih =>
    obtain ⟨hl, -, hne⟩ := nodup_append.1 h
    have ha : a ∉ l := fun ha => hne a ha a mem_cons_self rfl
    rw [eraseDups_concat, if_neg ha, ih hl]

/-- A function that tells the items of a list apart commutes with the removal of repetitions. -/
theorem eraseDups_map [BEq β] [LawfulBEq β] {f : α → β} {l : List α}
    (h : ∀ a ∈ l, ∀ b ∈ l, f a = f b → a = b) : (l.map f).eraseDups = l.eraseDups.map f := by
  classical
  induction l using List.reverseRecOn with
  | nil => rfl
  | append_singleton l a ih =>
    have hl : ∀ b ∈ l, ∀ c ∈ l, f b = f c → b = c := fun b hb c hc =>
      h b (mem_append_left _ hb) c (mem_append_left _ hc)
    have hmem : f a ∈ l.map f ↔ a ∈ l := by
      refine ⟨fun hm => ?_, mem_map_of_mem⟩
      obtain ⟨b, hb, hf⟩ := mem_map.1 hm
      exact h b (mem_append_left _ hb) a (mem_append_right _ mem_cons_self) hf ▸ hb
    rw [map_append, map_singleton, eraseDups_concat, eraseDups_concat, ih hl]
    by_cases ha : a ∈ l
    · rw [if_pos (hmem.2 ha), if_pos ha]
    · rw [if_neg (fun hm => ha (hmem.1 hm)), if_neg ha, map_append, map_singleton]

end

/-- A list with equal items has a first one that is equal to an earlier one. -/
theorem exists_first_repeated {f : α → β} {l : List α} (h : ¬ (l.map f).Nodup) :
    ∃ before a after, l = before ++ a :: after ∧ (before.map f).Nodup ∧ f a ∈ before.map f := by
  induction l using List.reverseRecOn with
  | nil => exact absurd nodup_nil h
  | append_singleton l a ih =>
    by_cases hl : (l.map f).Nodup
    · refine ⟨l, a, [], rfl, hl, ?_⟩
      by_contra hmem
      rw [map_append, map_singleton, ← concat_eq_append] at h
      exact h (hl.concat hmem)
    · obtain ⟨before, b, after, rfl, hbefore, hb⟩ := ih hl
      exact ⟨before, b, after ++ [a], by simp, hbefore, hb⟩

/-- A list with an item that has a property has a first one that has it. -/
theorem exists_first {p : α → Prop} {l : List α} (h : ∃ a ∈ l, p a) :
    ∃ before a after, l = before ++ a :: after ∧ (∀ b ∈ before, ¬ p b) ∧ p a := by
  classical
  obtain ⟨a, ha⟩ := Option.isSome_iff_exists.1
    (find?_isSome.2 (by simpa using h : ∃ a ∈ l, decide (p a) = true))
  obtain ⟨hpa, before, after, rfl, hbefore⟩ := find?_eq_some_iff_append.1 ha
  exact ⟨before, a, after, rfl, by simpa using hbefore, by simpa using hpa⟩

/-- The rest of a list begins with the item at the position where it is cut. -/
theorem drop_eq_cons_iff {l rest : List α} {n : Nat} {a : α} :
    l.drop n = a :: rest ↔ l[n]? = some a ∧ l.drop (n + 1) = rest := by
  constructor
  · intro h
    rw [← head?_drop, ← tail_drop, h]
    exact ⟨rfl, rfl⟩
  · rintro ⟨ha, rfl⟩
    obtain ⟨hn, rfl⟩ := getElem?_eq_some_iff.1 ha
    exact drop_eq_getElem_cons hn

/-! ## Lists that are related one by one -/

theorem forall₂_of_getElem? {R : α → β → Prop} {l : List α} {l' : List β}
    (hlength : l'.length = l.length)
    (h : ∀ (i : Nat) a b, l[i]? = some a → l'[i]? = some b → R a b) : Forall₂ R l l' :=
  forall₂_iff_get.2 ⟨hlength.symm, fun i hi hi' =>
    h i _ _ (getElem?_eq_getElem hi) (getElem?_eq_getElem hi')⟩

/-- A loop over other items succeeds with the same results if each step does. -/
theorem Forall₂.mapM_eq_ok {ε γ : Type _} {f : α → Except ε γ} {g : β → Except ε γ} {l : List α}
    {l' : List β} {cs : List γ} (h : Forall₂ (fun a b => ∀ c, f a = .ok c → g b = .ok c) l l')
    (hl : l.mapM f = .ok cs) : l'.mapM g = .ok cs := by
  induction h generalizing cs with
  | nil => exact hl
  | cons hab hrest ih =>
    rw [mapM_cons] at hl
    obtain ⟨c, hc, hl⟩ := Except.bind_eq_ok_iff.1 hl
    obtain ⟨cs', hcs', hl⟩ := Except.bind_eq_ok_iff.1 hl
    rw [mapM_cons, hab c hc, ← hl]
    exact Except.bind_eq_ok_iff.2 ⟨c, rfl, Except.bind_eq_ok_iff.2 ⟨cs', ih hcs', rfl⟩⟩

/-! ## Values under keys -/

theorem Nodup.map_filter {f : α → β} {l : List α} (h : (l.map f).Nodup) (p : α → Bool) :
    ((l.filter p).map f).Nodup := h.sublist (filter_sublist.map f)

/-- Looking up and changing the values may come in any order. -/
theorem lookup_map_snd {γ : Type _} [BEq α] (f : β → γ) (l : List (α × β)) (k : α) :
    (l.map fun m => (m.1, f m.2)).lookup k = (l.lookup k).map f := by
  induction l with
  | nil => rfl
  | cons m rest ih =>
    rw [map_cons, lookup_cons, lookup_cons]
    split
    · rfl
    · exact ih

section
variable [BEq α] [LawfulBEq α] {l l' : List (α × β)} {k : α} {b : β}

/-- Nothing is found exactly for keys that are not there. -/
theorem lookup_eq_none_iff_notMem : l.lookup k = none ↔ k ∉ l.map Prod.fst := by
  rw [lookup_eq_none_iff, mem_map]
  constructor
  · rintro h ⟨m, hm, rfl⟩
    simpa using h m hm
  · intro h m hm
    rw [bne_iff_ne]
    rintro rfl
    exact h ⟨m, hm, rfl⟩

theorem mem_of_lookup (h : l.lookup k = some b) : (k, b) ∈ l := by
  obtain ⟨before, after, rfl, -⟩ := lookup_eq_some_iff.1 h
  exact mem_append_right _ mem_cons_self

theorem lookup_cons_of_ne {m : α × β} (h : k ≠ m.1) : (m :: l).lookup k = l.lookup k := by
  rw [lookup_cons, beq_eq_false_iff_ne.2 h]

/-- Where no key comes twice, a value is found wherever it stands. -/
theorem lookup_eq_some_iff_mem (h : (l.map Prod.fst).Nodup) : l.lookup k = some b ↔ (k, b) ∈ l := by
  refine ⟨mem_of_lookup, fun hmem => ?_⟩
  induction l with
  | nil => cases hmem
  | cons m rest ih =>
    obtain ⟨hm, hrest⟩ := nodup_cons.1 h
    obtain rfl | hmem := mem_cons.1 hmem
    · exact lookup_cons_self
    · have hne : k ≠ m.1 := by
        rintro rfl
        exact hm (mem_map.2 ⟨_, hmem, rfl⟩)
      rw [lookup_cons_of_ne hne, ih hrest hmem]

theorem Perm.lookup_eq (hl : l.Perm l') (h : (l.map Prod.fst).Nodup) (k : α) :
    l.lookup k = l'.lookup k := by
  have h' : (l'.map Prod.fst).Nodup := (hl.map Prod.fst).nodup_iff.1 h
  refine Option.ext fun b => ?_
  rw [lookup_eq_some_iff_mem h, lookup_eq_some_iff_mem h', hl.mem_iff]

theorem lookup_isSome_iff_mem : (l.lookup k).isSome ↔ k ∈ l.map Prod.fst := by
  rw [← not_iff_not, ← lookup_eq_none_iff_notMem, Option.not_isSome_iff_eq_none]

/-- Values that are related one by one are related under each key. -/
theorem Forall₂.lookup {γ : Type _} {R : α → β → γ → Prop} {l' : List (α × γ)}
    (h : Forall₂ (fun m m' => m'.1 = m.1 ∧ R m.1 m.2 m'.2) l l') (k : α) :
    Option.Rel (R k) (l.lookup k) (l'.lookup k) := by
  induction h with
  | nil => exact .none
  | @cons m m' rest rest' hm hrest ih =>
    obtain ⟨key, b⟩ := m
    obtain ⟨key', c⟩ := m'
    obtain ⟨rfl, hbc⟩ := hm
    by_cases hk : k = key'
    · subst hk
      rw [lookup_cons_self, lookup_cons_self]
      exact .some hbc
    · rw [lookup_cons_of_ne hk, lookup_cons_of_ne hk]
      exact ih

/-- What stands under other keys has no part in looking up a key. -/
theorem lookup_filter_ne {k' : α} (h : k ≠ k') :
    (l.filter fun m => m.1 != k').lookup k = l.lookup k := by
  induction l with
  | nil => rfl
  | cons m rest ih =>
    obtain ⟨key, b⟩ := m
    by_cases hk : k = key
    · subst hk
      have hm : ((k, b).1 != k') = true := bne_iff_ne.2 h
      rw [filter_cons, if_pos hm, lookup_cons_self, lookup_cons_self]
    · rw [lookup_cons_of_ne hk, filter_cons]
      split
      · rw [lookup_cons_of_ne hk, ih]
      · exact ih

/-- Where keys are distinct, one member at most has a key, and it is the one that is found. -/
theorem filter_fst_beq (h : (l.map Prod.fst).Nodup) (k : α) :
    (l.filter fun m => m.1 == k) = ((l.lookup k).map fun b => (k, b)).toList := by
  induction l with
  | nil => rfl
  | cons m rest ih =>
    obtain ⟨key, b⟩ := m
    obtain ⟨hm, hrest⟩ := nodup_cons.1 h
    by_cases hk : k = key
    · subst hk
      have hself : ((k, b).1 == k) = true := beq_self_eq_true k
      rw [filter_cons, if_pos hself, ih hrest, lookup_cons_self, lookup_eq_none_iff_notMem.2 hm]
      rfl
    · have hother : ¬ ((key, b).1 == k) = true := fun h => hk (beq_iff_eq.1 h).symm
      rw [filter_cons, if_neg hother, lookup_cons_of_ne hk, ih hrest]

end

/-! ## Joined lists -/

section
variable {sep : List α} {ls : List (List α)}

/-- What holds of the items and of the separator holds of all that is joined. -/
theorem forall_mem_intercalate {p : α → Prop} (hsep : ∀ a ∈ sep, p a)
    (h : ∀ l ∈ ls, ∀ a ∈ l, p a) : ∀ a ∈ sep.intercalate ls, p a := by
  induction ls with
  | nil => nofun
  | cons l rest ih =>
    obtain ⟨hl, hrest⟩ := forall_mem_cons.1 h
    cases rest with
    | nil => simpa using hl
    | cons m rest =>
      rw [intercalate_cons_cons, forall_mem_append, forall_mem_append]
      exact ⟨⟨hl, hsep⟩, ih hrest⟩

/-- What is counted in joined lists is counted in each of them and in the separators between them.
-/
theorem countP_intercalate (p : α → Bool) (sep : List α) (ls : List (List α)) :
    (sep.intercalate ls).countP p = ls.flatten.countP p + (ls.length - 1) * sep.countP p := by
  induction ls with
  | nil => simp
  | cons l rest ih =>
    cases rest with
    | nil => simp
    | cons m rest =>
      rw [intercalate_cons_cons, countP_append, countP_append, ih]
      simp only [flatten_cons, countP_append, length_cons, Nat.add_sub_cancel, Nat.add_mul,
        Nat.one_mul]
      omega

theorem length_intercalate (sep : List α) (ls : List (List α)) :
    (sep.intercalate ls).length = ls.flatten.length + (ls.length - 1) * sep.length := by
  have h := countP_intercalate (fun _ => true) sep ls
  simpa only [countP_true] using h

end

end List
