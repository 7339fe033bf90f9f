import FactoryScript.Proofs.Count
import FactoryScript.Proofs.Script.Normal
import FactoryScript.Proofs.Text.Split

/-!
# Tokens

The tokens of a line are its parts between single spaces. Lines are lists of parts, some of which
may be missing; a part that may be missing is read off a line if its first token tells it from
whatever can follow (`optional_unique`, `flag_unique`).
-/

namespace FactoryScript

/-! ## Parts that may be missing -/

section
variable {α β : Type} {P : α → Prop} {a : α} {l l' r r' : List α}

/-- The list does not start with such an item. -/
def NotFirst (P : α → Prop) (l : List α) : Prop := ∀ a ∈ l.head?, ¬ P a

@[simp] theorem notFirst_nil : NotFirst P [] := nofun

@[simp] theorem notFirst_cons : NotFirst P (a :: l) ↔ ¬ P a := by
  simp [NotFirst]

theorem not_notFirst_self : ¬ NotFirst (· = a) (a :: l) := fun h => h a rfl rfl

theorem NotFirst.append (hl : NotFirst P l) (hr : NotFirst P r) : NotFirst P (l ++ r) := by
  cases l with
  | nil => exact hr
  | cons a l => exact notFirst_cons.2 (notFirst_cons.1 hl)

theorem NotFirst.optional {f : β → List α} {o : Option β} (h : ∀ b ∈ o, NotFirst P (f b)) :
    NotFirst P (o.toList.flatMap f) := by
  cases o with
  | none => exact notFirst_nil
  | some b => simpa using h b rfl

theorem not_notFirst_append (h : ∃ b s, l = b :: s ∧ P b) : ¬ NotFirst P (l ++ r) := by
  obtain ⟨b, s, rfl, hb⟩ := h
  exact fun hl => notFirst_cons.1 hl hb

/-- A part with a first token of its own can be told from its absence. -/
theorem optional_unique {f : β → List α} {o o' : Option β}
    (hf : ∀ b, b ∈ o ∨ b ∈ o' → ∃ a l, f b = a :: l ∧ P a)
    (hr : NotFirst P r) (hr' : NotFirst P r')
    (hsome : ∀ b ∈ o, ∀ b' ∈ o', f b ++ r = f b' ++ r' → b = b' ∧ r = r')
    (h : o.toList.flatMap f ++ r = o'.toList.flatMap f ++ r') : o = o' ∧ r = r' := by
  cases o <;> cases o' <;>
    simp only [Option.toList, List.flatMap_singleton, List.flatMap_nil, List.nil_append] at h
  case none.none => exact ⟨rfl, h⟩
  -- where only one side has the part, what follows on the other side would have to start like it
  case none.some b' => exact absurd (h ▸ hr) (not_notFirst_append (hf b' (.inr rfl)))
  case some.none b => exact absurd (h ▸ hr') (not_notFirst_append (hf b (.inl rfl)))
  case some.some b b' =>
    obtain ⟨rfl, hrest⟩ := hsome b rfl b' rfl h
    exact ⟨rfl, hrest⟩

/-- A part of one token. -/
theorem optional_token_unique {o o' : Option α} (ho : ∀ a, a ∈ o ∨ a ∈ o' → P a)
    (hr : NotFirst P r) (hr' : NotFirst P r') (h : o.toList ++ r = o'.toList ++ r') :
    o = o' ∧ r = r' := by
  rw [← List.flatMap_singleton' o.toList, ← List.flatMap_singleton' o'.toList] at h
  exact optional_unique (fun a ha => ⟨a, [], rfl, ho a ha⟩) hr hr'
    (fun _ _ _ _ h => List.cons.inj h) h

/-- The last part of a line. -/
theorem optional_last_unique {f : β → List α} {o o' : Option β} (hf : ∀ b, f b ≠ [])
    (hsome : ∀ b b', f b = f b' → b = b') (h : o.toList.flatMap f = o'.toList.flatMap f) :
    o = o' := by
  rw [← List.append_nil (o.toList.flatMap f), ← List.append_nil (o'.toList.flatMap f)] at h
  refine (optional_unique (P := fun _ => True) (fun b _ => ?_) notFirst_nil notFirst_nil ?_ h).1
  · obtain ⟨a, l, hb⟩ := List.exists_cons_of_ne_nil (hf b)
    exact ⟨a, l, hb, trivial⟩
  · intro b _ b' _ h
    rw [List.append_nil, List.append_nil] at h
    exact ⟨hsome b b' h, rfl⟩

/-- One token that is there or not. -/
theorem flag_unique {b b' : Bool} (hr : NotFirst (· = a) r) (hr' : NotFirst (· = a) r')
    (h : (if b then [a] else []) ++ r = (if b' then [a] else []) ++ r') : b = b' ∧ r = r' := by
  cases b <;> cases b'
  · exact ⟨rfl, h⟩
  · simp only [Bool.false_eq_true, if_false, if_true, List.nil_append, List.singleton_append] at h
    exact absurd (h ▸ hr) not_notFirst_self
  · simp only [Bool.false_eq_true, if_false, if_true, List.nil_append, List.singleton_append] at h
    exact absurd (h ▸ hr') not_notFirst_self
  · exact ⟨rfl, (List.cons.inj h).2⟩

/-- A run of items of one kind, before something of another kind. -/
theorem run_unique (hl : ∀ a ∈ l, P a) (hl' : ∀ a ∈ l', P a) (hr : NotFirst P r)
    (hr' : NotFirst P r') (h : l ++ r = l' ++ r') : l = l' ∧ r = r' := by
  induction l generalizing l' with
  | nil =>
    cases l' with
    | nil => exact ⟨rfl, h⟩
    | cons b l' =>
      rw [List.nil_append] at h
      rw [h] at hr
      exact absurd (hl' b List.mem_cons_self) (notFirst_cons.1 hr)
  | cons b l ih =>
    cases l' with
    | nil =>
      rw [List.nil_append] at h
      rw [← h] at hr'
      exact absurd (hl b List.mem_cons_self) (notFirst_cons.1 hr')
    | cons b' l' =>
      obtain ⟨rfl, hcons⟩ := List.cons.inj h
      obtain ⟨rfl, hrest⟩ := ih (List.forall_mem_cons.1 hl).2 (List.forall_mem_cons.1 hl').2 hcons
      exact ⟨rfl, hrest⟩

/-- A part that ends before the first occurrence of an item. -/
theorem until_unique (hl : a ∉ l) (hl' : a ∉ l') (h : l ++ a :: r = l' ++ a :: r') :
    l = l' ∧ r = r' := by
  have hother {l : List α} (hl : a ∉ l) : ∀ b ∈ l, b ≠ a := fun b hb => ne_of_mem_of_not_mem hb hl
  have hfirst (r : List α) : NotFirst (· ≠ a) (a :: r) := notFirst_cons.2 (not_not_intro rfl)
  obtain ⟨rfl, hrest⟩ := run_unique (hother hl) (hother hl') (hfirst r) (hfirst r') h
  exact ⟨rfl, (List.cons.inj hrest).2⟩

end

theorem splitAt_optional {β : Type} {g : β → String} {f : β → List String} (o : Option β)
    (h : ∀ b ∈ o, Text.splitAt ' ' (g b) = f b) :
    (o.map g).toList.flatMap (Text.splitAt ' ') = o.toList.flatMap f := by
  cases o with
  | none => rfl
  | some b => simpa using h b rfl

/-! ## Counts -/

namespace Count

/-- A word of ASCII digits. -/
def IsNumeral (s : String) : Prop := s.toList.all Char.isDigit = true

instance (s : String) : Decidable (IsNumeral s) :=
  inferInstanceAs (Decidable (s.toList.all Char.isDigit = true))

theorem isNumeral_text (n : UInt32) : IsNumeral (text n) :=
  List.all_eq_true.2 fun _ => isDigit_of_mem_text

theorem notMem_text {c : Char} (hc : c.isDigit = false) (n : UInt32) : c ∉ (text n).toList := by
  intro h
  rw [isDigit_of_mem_text h] at hc
  exact absurd hc (by decide)

theorem text_injective {m n : UInt32} (h : text m = text n) : m = n := by
  have hdigits := congrArg (Nat.ofDigitChars 10 ·.toList 0) h
  simp only [text, Nat.toList_repr, Nat.ofDigitChars_ten_toDigits] at hdigits
  exact UInt32.toNat_inj.1 hdigits

/-- A count that may be missing. -/
theorem optional_text_unique {o o' : Option UInt32} {r r' : List String}
    (hr : NotFirst IsNumeral r) (hr' : NotFirst IsNumeral r')
    (h : o.toList.flatMap (fun n => [text n]) ++ r =
      o'.toList.flatMap (fun n => [text n]) ++ r') : o = o' ∧ r = r' :=
  optional_unique (fun n _ => ⟨text n, [], rfl, isNumeral_text n⟩) hr hr'
    (fun _ _ _ _ h => ⟨text_injective (List.cons.inj h).1, (List.cons.inj h).2⟩) h

end Count
end FactoryScript
