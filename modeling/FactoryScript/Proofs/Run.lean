import Mathlib.Logic.Relation

/-!
# Running

A computation goes on until a step fails: what its success says about its parts, and what it says
about a related computation. A system goes on from state to state: what holds at the start and is
kept by each step holds in every state of every run (`Reachable.invariant`).
-/

namespace Except
variable {ε : Type _} {α : Type _} {β : Type _}

theorem bind_eq_ok_iff {x : Except ε α} {f : α → Except ε β} {b : β} :
    x.bind f = .ok b ↔ ∃ a, x = .ok a ∧ f a = .ok b := by
  cases x with
  | error e => exact ⟨nofun, fun ⟨_, h, _⟩ => nomatch h⟩
  | ok a => exact ⟨fun h => ⟨a, rfl, h⟩, fun ⟨_, rfl, h⟩ => h⟩

theorem map_eq_ok_iff {x : Except ε α} {f : α → β} {b : β} :
    x.map f = .ok b ↔ ∃ a, x = .ok a ∧ f a = b := by
  cases x with
  | error e => exact ⟨nofun, fun ⟨_, h, _⟩ => nomatch h⟩
  | ok a => exact ⟨fun h => ⟨a, rfl, Except.ok.inj h⟩, fun ⟨_, rfl, h⟩ => congrArg _ h⟩

/-- Errors may be changed on the way or at the end. -/
theorem mapError_bind {ε' : Type _} {w : ε → ε'} {x : Except ε α} {f : α → Except ε β} :
    (x.bind f).mapError w = (x.mapError w).bind fun a => (f a).mapError w := by
  cases x <;> rfl

/-- What every step keeps holds at the end of a loop that does not fail. -/
theorem foldlM_ok_of_step {P : β → Prop} {f : β → α → Except ε β} {l : List α} {b c : β}
    (step : ∀ b a c, P b → f b a = .ok c → P c) (hb : P b) (h : l.foldlM f b = .ok c) : P c := by
  induction l generalizing b with
  | nil => exact Except.ok.inj h ▸ hb
  | cons a rest ih =>
    rw [List.foldlM_cons] at h
    obtain ⟨d, hd, h⟩ := bind_eq_ok_iff.1 h
    exact ih (step _ _ _ hb hd) h

/-- What every result has is what every item of a list of results has. -/
theorem forall_mem_of_mapM {P : β → Prop} {f : α → Except ε β} {l : List α} {bs : List β}
    (hf : ∀ a b, f a = .ok b → P b) (h : l.mapM f = .ok bs) : ∀ b ∈ bs, P b := by
  induction l generalizing bs with
  | nil => exact Except.ok.inj h ▸ nofun
  | cons a rest ih =>
    rw [List.mapM_cons] at h
    obtain ⟨b, hb, h⟩ := bind_eq_ok_iff.1 h
    obtain ⟨cs, hcs, h⟩ := bind_eq_ok_iff.1 h
    cases h
    exact List.forall_mem_cons.2 ⟨hf a b hb, ih hcs⟩

/-- What every item has that passes is what every item of a list has that passes. -/
theorem forall_mem_of_forM {P : α → Prop} {f : α → Except ε Unit} {l : List α}
    (hf : ∀ a, f a = .ok () → P a) (h : l.forM f = .ok ()) : ∀ a ∈ l, P a := by
  induction l with
  | nil => exact nofun
  | cons a rest ih =>
    obtain ⟨_, ha, h⟩ := bind_eq_ok_iff.1 h
    exact List.forall_mem_cons.2 ⟨hf a ha, ih h⟩

end Except

namespace Option
variable {α : Type _} {β : Type _} {R : α → β → Prop} {a : α} {o : Option β}

theorem Rel.eq_none (h : Rel R Option.none o) : o = Option.none := by
  cases h
  rfl

theorem Rel.exists_eq_some (h : Rel R (Option.some a) o) : ∃ b, o = Option.some b ∧ R a b := by
  cases h with
  | some h => exact ⟨_, rfl, h⟩

theorem Rel.exists_eq_some_left {b : β} {o : Option α} (h : Rel R o (Option.some b)) :
    ∃ a, o = Option.some a ∧ R a b := by
  cases h with
  | some h => exact ⟨_, rfl, h⟩

theorem Rel.imp {S : α → β → Prop} {x : Option α} {y : Option β} (h : Rel R x y)
    (hS : ∀ a b, R a b → S a b) : Rel S x y := by
  cases h with
  | some h => exact .some (hS _ _ h)
  | none => exact .none

theorem Rel.and_right {P : β → Prop} {x : Option α} {y : Option β} (h : Rel R x y)
    (hP : ∀ b, y = Option.some b → P b) : Rel (fun a b => R a b ∧ P b) x y := by
  cases h with
  | some h => exact .some ⟨h, hP _ rfl⟩
  | none => exact .none

/-- Two values that are related to one and the same. -/
theorem Rel.join {γ : Type _} {S : α → γ → Prop} {T : β → γ → Prop} {x : Option α} {y : Option β}
    {z : Option γ} (hy : Rel R x y) (hz : Rel S x z)
    (h : ∀ a b c, y = Option.some b → R a b → S a c → T b c) : Rel T y z := by
  cases hy with
  | none =>
    rw [hz.eq_none]
    exact .none
  | some hab =>
    obtain ⟨c, rfl, hac⟩ := hz.exists_eq_some
    exact .some (h _ _ c rfl hab hac)

theorem Rel.map {γ δ : Type _} {S : γ → δ → Prop} {f : α → γ} {g : β → δ} {x : Option α}
    {y : Option β} (h : Rel R x y) (hS : ∀ a b, R a b → S (f a) (g b)) :
    Rel S (x.map f) (y.map g) := by
  cases h with
  | some h => exact .some (hS _ _ h)
  | none => exact .none

end Option

/-! ## Systems -/

namespace FactoryScript
variable {σ : Type}

/-- Some run ends in the state. -/
def Reachable (initial : σ → Prop) (step : σ → σ → Prop) (s : σ) : Prop :=
  ∃ first, initial first ∧ Relation.ReflTransGen step first s

namespace Reachable
variable {initial : σ → Prop} {step : σ → σ → Prop} {s t : σ}

theorem of_initial (h : initial s) : Reachable initial step s := ⟨s, h, .refl⟩

theorem next (hs : Reachable initial step s) (h : step s t) : Reachable initial step t :=
  let ⟨first, hfirst, hrun⟩ := hs
  ⟨first, hfirst, hrun.tail h⟩

/-- What holds at the start and is kept by each step holds in every state of every run. -/
theorem invariant {P : σ → Prop} (hinit : ∀ s, initial s → P s)
    (hstep : ∀ s t, P s → step s t → P t) (hs : Reachable initial step s) : P s := by
  obtain ⟨first, hfirst, hrun⟩ := hs
  induction hrun with
  | refl => exact hinit _ hfirst
  | tail _ h ih => exact hstep _ _ ih h

end Reachable
end FactoryScript
