import FactoryScript.Host.World
import FactoryScript.Proofs.Budget
import FactoryScript.Proofs.Run
import FactoryScript.Session.Edit

/-!
# Runs of a session

All sessions work alike: requests change the session or are refused, and between them the script is
exported. An `Editor` says what can be asked of a kind of session; its runs take place in a world,
which exports change and requests do not.
-/

namespace FactoryScript

/-! ## Edits -/

namespace Edit
variable {σ α β : Type} {x : Edit σ α} {f : α → Edit σ β} {s : σ}

/-- An edit of whose result only its success counts. -/
def done (x : Edit σ α) : Edit σ Bool := x >>= fun _ => pure true

/-- What holds after the second of two edits, if the first one only looks at the session. -/
theorem of_bind {P : σ → Prop} (hx : (x s).session = s) (hs : P s)
    (hf : ∀ a, (x s).result = .ok a → P (f a s).session) : P ((x >>= f) s).session := by
  change P (Edit.bind x f s).session
  rw [Edit.bind]
  split <;> rename_i h <;> rw [h] at hx hf <;> cases hx
  · exact hf _ rfl
  · exact hs

theorem session_bind_apply (f : σ → Edit σ β) : (session >>= f) s = f s s := rfl

theorem result_bind : ((x >>= f) s).result =
    match (x s).result with
    | .ok a => (f a (x s).session).result
    | .error e => .error e := by
  change (Edit.bind x f s).result = _
  rw [Edit.bind]
  split <;> rename_i h <;> rw [h]

theorem result_done_eq_error {e : EditError} :
    (x.done s).result = .error e ↔ (x s).result = .error e := by
  rw [done, result_bind]
  cases (x s).result with
  | ok a => exact ⟨nofun, nofun⟩
  | error _ => simp only [Except.error.injEq]

theorem session_done : (x.done s).session = (x s).session := by
  change (Edit.bind x (fun _ => Edit.pure true) s).session = _
  rw [Edit.bind]
  split <;> rename_i h <;> rw [h]
  rfl

theorem session_ofExcept {ε : Type} {wrap : ε → EditError} {r : Except ε α} :
    (ofExcept wrap r s).session = s := by
  cases r <;> rfl

theorem eq_ok_of_ofExcept {ε : Type} {wrap : ε → EditError} {r : Except ε α} {a : α}
    (h : (ofExcept wrap r s).result = .ok a) : r = .ok a := by
  cases r with
  | ok b => exact congrArg _ (Except.ok.inj h)
  | error e => cases h

/-- An edit that gives the selected one of some items and only looks at the session. -/
structure FindsSelected (x : Edit σ (Nat × α)) (selected : σ → Option Nat)
    (items : σ → List α) : Prop where
  found {s : σ} {i : Nat} {a : α} (hi : selected s = some i) (ha : (items s)[i]? = some a) :
    x s = Edit.pure (i, a) s
  missed {s : σ} (h : (selected s).bind (fun i => (items s)[i]?) = none) :
    x s = Edit.fail .noTrigger s

/-- Where there is a selected item, the edit that follows is about it. -/
theorem FindsSelected.bind_apply {x : Edit σ (Nat × α)} {f : Nat × α → Edit σ β}
    {selected : σ → Option Nat} {items : σ → List α} {i : Nat} {a : α}
    (hx : x.FindsSelected selected items) (hi : selected s = some i) (ha : (items s)[i]? = some a) :
    (x >>= f) s = f (i, a) s := by
  change Edit.bind x f s = _
  rw [Edit.bind, hx.found hi ha]
  rfl

/-- What holds after an edit of the selected item. -/
theorem FindsSelected.of_bind {x : Edit σ (Nat × α)} {f : Nat × α → Edit σ β}
    {selected : σ → Option Nat} {items : σ → List α} {P : σ → Prop}
    (hx : x.FindsSelected selected items) (hs : P s)
    (hf : ∀ i a, selected s = some i → (items s)[i]? = some a → P (f (i, a) s).session) :
    P ((x >>= f) s).session := by
  cases h : (selected s).bind fun i => (items s)[i]? with
  | none =>
    refine Edit.of_bind (by rw [hx.missed h]; rfl) hs fun p hp => ?_
    rw [hx.missed h] at hp
    cases hp
  | some a =>
    obtain ⟨i, hi, ha⟩ := Option.bind_eq_some_iff.1 h
    refine Edit.of_bind (by rw [hx.found hi ha]; rfl) hs fun p hp => ?_
    rw [hx.found hi ha] at hp
    cases hp
    exact hf i a hi ha

end Edit

/-! ## Editors -/

/-- A kind of session. -/
class Editor (σ : Type) where
  /-- What can be asked of a session. -/
  Request : Type
  /-- Answers a request; `false` says that there was nothing to do. -/
  answer : Request → Edit σ Bool
  /-- What a request needs from its surroundings. -/
  Allowed : Request → σ → Prop
  /-- How sessions start. -/
  Started : σ → Prop
  generated : σ → Generated

namespace Editor
variable {σ : Type} [Editor σ]

/-- A step of a run. -/
inductive Step : σ × World → σ × World → Prop
  | request {s : σ} {w : World} (r : Request σ) (h : Allowed r s) :
    Step (s, w) ((answer r s).session, w)
  | exported {s : σ} {w : World} (path : String) :
    Step (s, w) (s, (exportScript path (generated s).code : StateM World _) w |>.2)

/-- A run in some world leads to the session. -/
def Reached (s : σ) : Prop := ∃ w, Reachable (fun p : σ × World => Started p.1) Step (s, w)

theorem reached_of_started {s : σ} (h : Started s) : Reached s := ⟨.initial, .of_initial h⟩

theorem Reached.answer {s : σ} (hs : Reached s) {r : Request σ} (h : Allowed r s) :
    Reached (answer r s).session :=
  let ⟨w, hrun⟩ := hs
  ⟨w, hrun.next (.request r h)⟩

/-- What holds of every fresh session and is kept by each request holds in every run. -/
theorem Reached.invariant {P : σ → Prop} {s : σ} (hinit : ∀ s : σ, Started s → P s)
    (hstep : ∀ (r : Request σ) (s : σ), P s → Allowed r s → P (Editor.answer r s).session)
    (hs : Reached s) : P s := by
  obtain ⟨w, hrun⟩ := hs
  refine Reachable.invariant (P := fun p : σ × World => P p.1) (fun p => hinit p.1)
    (fun p q hp hpq => ?_) hrun
  cases hpq with
  | request r h => exact hstep r _ hp h
  | exported path => exact hp

/-- Some request leads from the first session to the second, be it answered or refused. -/
def Answered (s t : σ) : Prop := ∃ r : Request σ, (answer r s).session = t

end Editor

/-! ## Selections -/

/-- Something is selected whenever there is something to select. -/
structure SelectionValid (selected : Option Nat) (count : Nat) : Prop where
  eq_none_iff : selected = none ↔ count = 0
  lt : ∀ i, selected = some i → i < count

namespace SelectionValid

theorem some {i count : Nat} (h : i < count) : SelectionValid (some i) count where
  eq_none_iff := by simp; omega
  lt _ hj := Option.some.inj hj ▸ h

theorem none : SelectionValid none 0 := ⟨by simp, nofun⟩

theorem exists_of_pos {selected : Option Nat} {count : Nat} (h : SelectionValid selected count)
    (hpos : 0 < count) : ∃ i < count, selected = Option.some i := by
  cases hs : selected with
  | none => have := h.eq_none_iff.1 hs; omega
  | some i => exact ⟨i, h.lt i hs, rfl⟩

end SelectionValid
end FactoryScript
