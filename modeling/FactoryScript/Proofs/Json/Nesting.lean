import FactoryScript.Proofs.Json.Compact

/-!
# How deeply a text nests

Containers can be counted without reading them: the brackets outside strings open and close them.
For the text of a plain value this count is the depth of the value (`Json.nesting_compact`), which
is what the bound on documents is about.
-/

namespace FactoryScript.Json

/-! ## Counting brackets -/

inductive Place
  | outside
  | inside
  /-- In a string, after a backslash. -/
  | escaped

structure Nesting where
  /-- Containers that are open. -/
  opened : Nat
  /-- The most containers that have been open at once. -/
  deepest : Nat
  place : Place

namespace Nesting

def step (n : Nesting) (c : Char) : Nesting :=
  match n.place with
  | .escaped => { n with place := .inside }
  | .inside =>
    if c = '\\' then { n with place := .escaped }
    else if c = '"' then { n with place := .outside }
    else n
  | .outside =>
    if c = '"' then { n with place := .inside }
    else if c = '[' ∨ c = '\x7b' then ⟨n.opened + 1, max n.deepest (n.opened + 1), .outside⟩
    else if c = ']' ∨ c = '\x7d' then { n with opened := n.opened - 1 }
    else n

end Nesting

/-- The most arrays and objects of a text that are inside one another. -/
def nesting (text : String) : Nat := (text.toList.foldl Nesting.step ⟨0, 0, .outside⟩).deepest

/-! ## The count for written values -/

namespace Nesting
variable {opened deepest : Nat}

theorem step_inside {c : Char} (hslash : c ≠ '\\') (hquote : c ≠ '"') :
    step ⟨opened, deepest, .inside⟩ c = ⟨opened, deepest, .inside⟩ := by
  simp [step, hslash, hquote]

theorem step_hexDigit {n : Nat} (h : n < 16) :
    step ⟨opened, deepest, .inside⟩ (hexDigit n) = ⟨opened, deepest, .inside⟩ := by
  have hne : hexDigit n ≠ '\\' ∧ hexDigit n ≠ '"' := by
    revert n
    decide
  exact step_inside hne.1 hne.2

/-- An escaped character never leaves the string that it stands in. -/
theorem foldl_escapeChar (c : Char) :
    (escapeChar c).foldl step ⟨opened, deepest, .inside⟩ = ⟨opened, deepest, .inside⟩ := by
  unfold escapeChar
  split_ifs with hquote hslash _ _ _ _ _ hcontrol
  iterate 7 exact rfl
  · have hhigh : c.toNat / 16 < 16 := by omega
    have hlow : c.toNat % 16 < 16 := by omega
    have hopening (d e : Char) : ['\\', 'u', '0', '0', d, e].foldl step ⟨opened, deepest, .inside⟩ =
        step (step ⟨opened, deepest, .inside⟩ d) e := rfl
    rw [hopening, step_hexDigit hhigh, step_hexDigit hlow]
  · exact step_inside hslash hquote

/-- A quoted string opens and closes nothing, whatever brackets it holds. -/
theorem foldl_quote (s : String) :
    (quote s).toList.foldl step ⟨opened, deepest, .outside⟩ = ⟨opened, deepest, .outside⟩ := by
  have hinside (cs : List Char) : (cs.flatMap escapeChar).foldl step ⟨opened, deepest, .inside⟩ =
      ⟨opened, deepest, .inside⟩ := by
    induction cs with
    | nil => rfl
    | cons c cs ih => rw [List.flatMap_cons, List.foldl_append, foldl_escapeChar, ih]
  have hopen : step ⟨opened, deepest, .outside⟩ '"' = ⟨opened, deepest, .inside⟩ := rfl
  rw [quote, String.toList_ofList, List.foldl_cons, List.foldl_append, hopen, hinside]
  rfl

theorem foldl_key (key : String) :
    (quote key ++ ":").toList.foldl step ⟨opened, deepest, .outside⟩ =
      ⟨opened, deepest, .outside⟩ := by
  rw [String.toList_append, List.foldl_append, foldl_quote]
  rfl

/-- The digits of a number open and close nothing. -/
theorem foldl_repr (n : Nat) :
    n.repr.toList.foldl step ⟨opened, deepest, .outside⟩ = ⟨opened, deepest, .outside⟩ := by
  have hdigits (cs : List Char) (h : ∀ c ∈ cs, c.isDigit = true) :
      cs.foldl step ⟨opened, deepest, .outside⟩ = ⟨opened, deepest, .outside⟩ := by
    induction cs with
    | nil => rfl
    | cons c cs ih =>
      obtain ⟨hc, hcs⟩ := List.forall_mem_cons.1 h
      have hne : c ≠ '"' ∧ ¬ (c = '[' ∨ c = '\x7b') ∧ ¬ (c = ']' ∨ c = '\x7d') := by
        refine ⟨?_, ?_, ?_⟩ <;> rintro (rfl | rfl) <;> cases hc
      have hstep : step ⟨opened, deepest, .outside⟩ c = ⟨opened, deepest, .outside⟩ := by
        simp only [step, if_neg hne.1, if_neg hne.2.1, if_neg hne.2.2]
      rw [List.foldl_cons, hstep, ih hcs]
  rw [Nat.toList_repr]
  exact hdigits _ fun c => Nat.isDigit_of_mem_toDigits (by decide) (by decide)

mutual

/-- Over the text of a value the scan comes back to where it was, and the deepest point it has seen
is that of the value. The three lemmas of this group go by induction over the value together. -/
theorem foldl_compact {v : Json} (h : v.Plain) {opened deepest : Nat} (hopened : opened ≤ deepest) :
    v.compact.toList.foldl step ⟨opened, deepest, .outside⟩ =
      ⟨opened, max deepest (opened + v.depth), .outside⟩ := by
  have hleaf : (⟨opened, max deepest (opened + 0), .outside⟩ : Nesting) =
      ⟨opened, deepest, .outside⟩ := by
    rw [Nat.add_zero, Nat.max_eq_left hopened]
  cases v with
  | null => exact hleaf.symm
  | bool b => cases b <;> exact hleaf.symm
  | number numeral =>
    obtain ⟨n, rfl⟩ := h
    exact (foldl_repr n.toNat).trans hleaf.symm
  | string s => exact (foldl_quote s).trans hleaf.symm
  | array items =>
    cases items with
    | nil => rfl
    | cons v rest =>
      have hopen : step ⟨opened, deepest, .outside⟩ '[' =
        ⟨opened + 1, max deepest (opened + 1), .outside⟩ := rfl
      rw [toList_compact_array_cons, List.foldl_cons, List.foldl_append, hopen,
        foldl_compact h.1 (by omega), foldl_items h.2 (by omega), depth, depthItems]
      congr 1
      omega
  | object members =>
    cases members with
    | nil => rfl
    | cons m rest =>
      obtain ⟨key, v⟩ := m
      have hopen : step ⟨opened, deepest, .outside⟩ '\x7b' =
        ⟨opened + 1, max deepest (opened + 1), .outside⟩ := rfl
      rw [toList_compact_object_cons, List.foldl_cons, List.foldl_append, hopen,
        String.toList_append, List.foldl_append, foldl_key, foldl_compact h.1 (by omega),
        foldl_members h.2 (by omega), depth, depthMembers]
      congr 1
      omega
  | flaw f => exact h.elim

/-- The items of an array and its closing bracket, read from inside the array. -/
theorem foldl_items {items : List Json} (h : PlainItems items) {opened deepest : Nat}
    (hopened : opened < deepest) :
    (followed (compactItems items) ']').foldl step ⟨opened + 1, deepest, .outside⟩ =
      ⟨opened, max deepest (opened + 1 + depthItems items), .outside⟩ := by
  cases items with
  | nil =>
    rw [depthItems, Nat.add_zero, Nat.max_eq_left hopened]
    rfl
  | cons v rest =>
    have hcomma : step ⟨opened + 1, deepest, .outside⟩ ',' = ⟨opened + 1, deepest, .outside⟩ := rfl
    rw [compactItems, followed_cons, List.foldl_cons, hcomma, List.foldl_append,
      foldl_compact h.1 hopened, foldl_items h.2 (by omega), depthItems]
    congr 1
    omega

/-- The members of an object and its closing brace, read from inside the object. -/
theorem foldl_members {members : List (String × Json)} (h : PlainMembers members)
    {opened deepest : Nat} (hopened : opened < deepest) :
    (followed (compactMembers members) '\x7d').foldl step ⟨opened + 1, deepest, .outside⟩ =
      ⟨opened, max deepest (opened + 1 + depthMembers members), .outside⟩ := by
  cases members with
  | nil =>
    rw [depthMembers, Nat.add_zero, Nat.max_eq_left hopened]
    rfl
  | cons m rest =>
    obtain ⟨key, v⟩ := m
    have hcomma : step ⟨opened + 1, deepest, .outside⟩ ',' = ⟨opened + 1, deepest, .outside⟩ := rfl
    rw [compactMembers, followed_cons, List.foldl_cons, hcomma, List.foldl_append,
      String.toList_append, List.foldl_append, foldl_key, foldl_compact h.1 hopened,
      foldl_members h.2 (by omega), depthMembers]
    congr 1
    omega

end

end Nesting

theorem nesting_compact {v : Json} (h : v.Plain) : nesting v.compact = v.depth := by
  rw [nesting, Nesting.foldl_compact h (Nat.le_refl 0)]
  simp

/-- Brackets inside strings do not count, also after an escaped quote. -/
example : nesting "[\"\\\"[[\",[]]" = 2 := by decide

/-- What a plain value is read as, its text is read as. -/
theorem ReadsWithin.ofText {α : Type} {room : Nat} {read : Reader α} {v : Json} {a : α}
    (h : ReadsWithin room read v a) (hplain : v.Plain) :
    read.ofText v.compact =
      if nesting v.compact ≤ room then .ok a else .error .malformed := by
  rw [Reader.ofText, scan_compact hplain, nesting_compact hplain]
  simp only [show read v = _ from h]
  by_cases hdepth : v.depth ≤ room
  · simp only [if_pos hdepth, if_true]
  · simp only [if_neg hdepth]

end FactoryScript.Json
