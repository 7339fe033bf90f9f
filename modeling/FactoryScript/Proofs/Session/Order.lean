import FactoryScript.Proofs.Session.Revision

/-!
# The order of statements

Moving a statement exchanges it with its neighbour, if there is one, wherever the request comes
from (`session_move`): so the statements stay the same up to their order, and the opposite move
takes a move back. Conversely any order comes about by exchanges of neighbours
(`exists_exchanges`), and thus by moves (`moves_reorder`).
-/

namespace FactoryScript.ProgramSession

/-! ## Exchanges of neighbours -/

section
variable {α : Type} {l m : List α}

/-- An exchange is undone by the same exchange. -/
theorem swapNext_swapNext (n : Nat) (l : List α) : swapNext n (swapNext n l) = l := by
  induction n generalizing l with
  | zero =>
    match l with
    | [] | [_] | _ :: _ :: _ => rfl
  | succ n ih =>
    match l with
    | [] => rfl
    | a :: rest => exact congrArg (a :: ·) (ih rest)

/-- An exchange of neighbours is a permutation. -/
theorem perm_swapNext (n : Nat) (l : List α) : (swapNext n l).Perm l := by
  induction n generalizing l with
  | zero =>
    match l with
    | [] | [_] => exact .refl _
    | a :: b :: rest => exact .swap a b rest
  | succ n ih =>
    match l with
    | [] => exact .refl _
    | a :: rest => exact (ih rest).cons a

theorem length_swapNext (n : Nat) (l : List α) : (swapNext n l).length = l.length :=
  (perm_swapNext n l).length_eq

/-- What stands at a position stands at the next one afterwards. -/
theorem getElem?_swapNext {n : Nat} (h : n + 1 < l.length) : (swapNext n l)[n + 1]? = l[n]? := by
  induction n generalizing l with
  | zero =>
    match l with
    | _ :: _ :: _ => rfl
  | succ n ih =>
    match l with
    | _ :: rest => exact ih (Nat.lt_of_succ_lt_succ h)

theorem getElem?_swapNext_self {n : Nat} (h : n + 1 < l.length) :
    (swapNext n l)[n]? = l[n + 1]? := by
  have hback := getElem?_swapNext (l := swapNext n l) (n := n) (by rwa [length_swapNext])
  rw [swapNext_swapNext] at hback
  exact hback.symm

/-- The list after exchanges at some positions. -/
def exchanged (l : List α) (places : List Nat) : List α :=
  places.foldl (fun l n => swapNext n l) l

theorem exchanged_append (l : List α) (places more : List Nat) :
    exchanged l (places ++ more) = exchanged (exchanged l places) more := List.foldl_append

theorem exchanged_cons (a : α) (l : List α) (places : List Nat) :
    exchanged (a :: l) (places.map Nat.succ) = a :: exchanged l places := by
  induction places generalizing l with
  | nil => rfl
  | cons n places ih => exact ih (swapNext n l)

/-- Every order comes about by exchanges of neighbours. -/
theorem exists_exchanges (h : l.Perm m) :
    ∃ places : List Nat, (∀ n ∈ places, n + 1 < l.length) ∧ exchanged l places = m := by
  induction h with
  | nil => exact ⟨[], nofun, rfl⟩
  | @cons a l m h ih =>
    obtain ⟨places, hplaces, rfl⟩ := ih
    refine ⟨places.map Nat.succ, ?_, exchanged_cons a l places⟩
    exact List.forall_mem_map.2 fun n hn => Nat.succ_lt_succ (hplaces n hn)
  | swap a b l => exact ⟨[0], by simp, rfl⟩
  | @trans l m k hlm hmk ihlm ihmk =>
    obtain ⟨places, hplaces, hm⟩ := ihlm
    obtain ⟨more, hmore, hk⟩ := ihmk
    refine ⟨places ++ more, List.forall_mem_append.2 ⟨hplaces, hlm.length_eq ▸ hmore⟩, ?_⟩
    rw [exchanged_append, hm, hk]

end

/-! ## Moves -/

/-- A request to move a statement of the selected trigger. -/
inductive Move
  | up (index : Nat)
  | down (index : Nat)

namespace Move

def request : Move → Request
  | up index => .moveUp index
  | down index => .moveDown index

/-- Which statement is to be moved. -/
def index : Move → Nat
  | up index | down index => index

/-- The first one of the two positions that are to be exchanged. -/
def place? : Move → Option Nat
  | up 0 => none
  | up (index + 1) | down index => some index

/-- The move that takes the statement back, from where it stands then. -/
def opposite : Move → Move
  | up index => down (index - 1)
  | down index => up (index + 1)

/-- What a move makes of the statements. -/
def reorder (m : Move) (l : List Statement) : List Statement :=
  match m.place? with
  | some n => swapNext n l
  | none => l

theorem perm_reorder (m : Move) (l : List Statement) : (m.reorder l).Perm l := by
  unfold reorder
  split
  · exact perm_swapNext _ l
  · exact .refl l

theorem reorder_of_place? {m : Move} {n : Nat} (h : m.place? = some n) (l : List Statement) :
    m.reorder l = swapNext n l := by
  rw [reorder, h]

/-- Neighbours are exchanged by moving the second one up or the first one down. -/
theorem eq_of_place? {m : Move} {n : Nat} (h : m.place? = some n) :
    m = up (n + 1) ∨ m = down n := by
  cases m with
  | up index =>
    cases index <;> cases h
    exact .inl rfl
  | down index =>
    cases h
    exact .inr rfl

/-- A move and its opposite exchange the same two statements. -/
theorem place?_opposite {m : Move} {n : Nat} (h : m.place? = some n) :
    m.opposite.place? = some n := by
  obtain rfl | rfl := eq_of_place? h <;> rfl

/-- The statement that is moved stands where the opposite move looks for it. -/
theorem exists_getElem?_reorder {m : Move} {n : Nat} (h : m.place? = some n) {l : List Statement}
    (hlt : n + 1 < l.length) : ∃ statement, l[m.index]? = some statement ∧
      (m.reorder l)[m.opposite.index]? = some statement := by
  rw [reorder_of_place? h]
  obtain rfl | rfl := eq_of_place? h
  · exact ⟨l[n + 1], List.getElem?_eq_getElem hlt,
      (getElem?_swapNext_self hlt).trans (List.getElem?_eq_getElem hlt)⟩
  · have hn : n < l.length := Nat.lt_of_succ_lt hlt
    exact ⟨l[n], List.getElem?_eq_getElem hn,
      (getElem?_swapNext hlt).trans (List.getElem?_eq_getElem hn)⟩

end Move

/-- The session after some moves, each of them answered or refused. -/
def afterMoves (s : ProgramSession) (moves : List Move) : ProgramSession :=
  moves.foldl (fun s m => (m.request.answer s).session) s

theorem afterMoves_cons (s : ProgramSession) (m : Move) (moves : List Move) :
    s.afterMoves (m :: moves) = (m.request.answer s).session.afterMoves moves := rfl

/-- Each of the moves finds its statement and moves it. -/
def AllMove : List Move → ProgramSession → Prop
  | [], _ => True
  | m :: moves, s =>
    (m.request.answer s).result = .ok true ∧ AllMove moves (m.request.answer s).session

variable {s : ProgramSession} {i : Nat} {t : Trigger}

section
variable (hs : s.UpToDate) (hi : s.selected = some i) (ht : s.program.triggers[i]? = some t)
include hi ht

/-- A move succeeds exactly if there are two statements to exchange. -/
theorem result_move {m : Move} : (m.request.answer s).result = .ok true ↔
    ∃ n, m.place? = some n ∧ n + 1 < t.statements.length := by
  cases m with
  | up index =>
    change (moveUp index s).result = _ ↔ _
    unfold moveUp
    rw [findsSelected_active.bind_apply hi ht]
    dsimp only
    split <;> rename_i h
    · refine ⟨nofun, ?_⟩
      rintro ⟨n, hn, hlt⟩
      cases index with
      | zero => cases hn
      | succ index =>
        cases hn
        exact absurd hlt (Nat.not_lt.2 h)
    · cases index with
      | zero => exact ⟨nofun, nofun⟩
      | succ index => exact ⟨fun _ => ⟨index, rfl, Nat.not_le.1 h⟩, fun _ => rfl⟩
  | down index =>
    change (moveDown index s).result = _ ↔ _
    have hplace : (∃ n, (Move.down index).place? = some n ∧ n + 1 < t.statements.length) ↔
        index + 1 < t.statements.length := by simp [Move.place?]
    unfold moveDown
    rw [findsSelected_active.bind_apply hi ht, hplace]
    dsimp only
    split <;> rename_i h
    · exact ⟨nofun, fun hlt => absurd hlt (by omega)⟩
    · split <;> rename_i hlast
      · exact ⟨nofun, fun hlt => absurd hlast (Nat.ne_of_lt hlt)⟩
      · exact ⟨fun _ => by omega, fun _ => rfl⟩

include hs

theorem session_move (m : Move) : (m.request.answer s).session =
    s.revised i { t with statements := m.reorder t.statements } := by
  cases m with
  | up index =>
    refine (session_moveUp hs hi ht index).trans ?_
    cases index <;> rfl
  | down index => exact session_moveDown hs hi ht index

/-- A statement that has been moved can be moved back. -/
theorem move_back {m : Move} (hm : (m.request.answer s).result = .ok true) :
    let moved := (m.request.answer s).session
    (∃ u statement, t.statements[m.index]? = some statement ∧ moved.selectedTrigger? = some u ∧
      u.statements[m.opposite.index]? = some statement) ∧
    (m.opposite.request.answer moved).result = .ok true ∧
    (m.opposite.request.answer moved).session = s := by
  obtain ⟨n, hn, hlt⟩ := (result_move hi ht).1 hm
  have hback := Move.place?_opposite hn
  let u : Trigger := { t with statements := m.reorder t.statements }
  have hu : (s.revised i u).program.triggers[i]? = some u := getElem?_revised ht
  have hsel : (s.revised i u).selected = some i := hi
  obtain ⟨statement, hbefore, hafter⟩ := Move.exists_getElem?_reorder hn hlt
  rw [session_move hs hi ht m]
  refine ⟨⟨u, statement, hbefore, ?_, hafter⟩, (result_move hsel hu).2 ⟨n, hback, ?_⟩, ?_⟩
  · rw [selectedTrigger?, hsel]
    exact hu
  · rw [(m.perm_reorder t.statements).length_eq]
    exact hlt
  · have horder : u.statements = swapNext n t.statements := Move.reorder_of_place? hn _
    rw [session_move (upToDate_revised hs i u) hsel hu, revised_revised,
      Move.reorder_of_place? hback, horder, swapNext_swapNext]
    exact revised_self hs ht

/-- However statements are moved, only their order changes. -/
theorem exists_perm_afterMoves (moves : List Move) :
    ∃ l, l.Perm t.statements ∧ s.afterMoves moves = s.revised i { t with statements := l } := by
  induction moves generalizing s t with
  | nil => exact ⟨t.statements, .refl _, (revised_self hs ht).symm⟩
  | cons m moves ih =>
    have hm := session_move hs hi ht m
    obtain ⟨l, hl, hmoves⟩ := ih (t := { t with statements := m.reorder t.statements })
      (upToDate_revised hs ..) hi (getElem?_revised ht)
    refine ⟨l, hl.trans (m.perm_reorder t.statements), ?_⟩
    rw [afterMoves_cons, hm, hmoves, revised_revised]

/-- Moving statements down at some places exchanges them with the next ones. -/
theorem allMove_down {places : List Nat} (h : ∀ n ∈ places, n + 1 < t.statements.length) :
    AllMove (places.map .down) s ∧ s.afterMoves (places.map .down) =
      s.revised i { t with statements := exchanged t.statements places } := by
  induction places generalizing s t with
  | nil => exact ⟨trivial, (revised_self hs ht).symm⟩
  | cons n places ih =>
    obtain ⟨hn, h⟩ := List.forall_mem_cons.1 h
    have hm := session_move hs hi ht (.down n)
    obtain ⟨hall, hmoves⟩ := ih (t := { t with statements := swapNext n t.statements })
      (upToDate_revised hs ..) hi (getElem?_revised ht) (by rwa [length_swapNext])
    rw [List.map_cons, afterMoves_cons, AllMove, hm]
    exact ⟨⟨(result_move hi ht).2 ⟨n, rfl, hn⟩, hall⟩, hmoves.trans (revised_revised ..)⟩

end

/-- In every state of every run, moves of statements in the selected trigger change nothing but
their order, and can bring about any order. A single move that succeeds can be taken back, and
nothing of it remains. -/
theorem moves_reorder (h : Reachable Begun Editor.Answered s) (hi : s.selected = some i)
    (ht : s.program.triggers[i]? = some t) :
    (∀ moves : List Move, ∃ l, l.Perm t.statements ∧
      s.afterMoves moves = s.revised i { t with statements := l }) ∧
    (∀ m : Move, (m.request.answer s).result = .ok true →
      let moved := (m.request.answer s).session
      (∃ u statement, t.statements[m.index]? = some statement ∧
        moved.selectedTrigger? = some u ∧ u.statements[m.opposite.index]? = some statement) ∧
      (m.opposite.request.answer moved).result = .ok true ∧
      (m.opposite.request.answer moved).session = s) ∧
    ∀ l, l.Perm t.statements → ∃ moves, AllMove moves s ∧
      s.afterMoves moves = s.revised i { t with statements := l } := by
  have hs := UpToDate.of_run h
  refine ⟨exists_perm_afterMoves hs hi ht, fun m hm => move_back hs hi ht hm, fun l hl => ?_⟩
  obtain ⟨places, hplaces, rfl⟩ := exists_exchanges hl.symm
  exact ⟨_, allMove_down hs hi ht hplaces⟩

/-- The last of three statements is moved up and down again, and the three can be turned round. -/
theorem moves_reorder_three :
    let t : Trigger := ⟨.redstonePulse, ["a", "b", "c"].map fun label => .forget (some label)⟩
    ∃ s : ProgramSession, Reachable Begun Editor.Answered s ∧ s.selected = some 0 ∧
      s.program.triggers[0]? = some t ∧
      ((Move.down 1).request.answer ((Move.up 2).request.answer s).session).session = s ∧
      ∃ moves, AllMove moves s ∧
        s.afterMoves moves = s.revised 0 { t with statements := t.statements.reverse } := by
  intro t
  have h : Reachable Begun Editor.Answered (start ⟨"", [t]⟩).session := .of_initial ⟨_, rfl⟩
  obtain ⟨-, hback, hall⟩ := moves_reorder h rfl rfl
  exact ⟨_, h, rfl, rfl, (hback (.up 2) rfl).2.2, hall _ (List.reverse_perm t.statements)⟩

end FactoryScript.ProgramSession
