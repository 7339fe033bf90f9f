import FactoryScript.Proofs.Json.Record
import FactoryScript.Proofs.Statement.Document

/-!
# How deeply statements nest

Each branch takes two containers of a document, itself and a list, and the list of its first
statements is written even if it was left out where the statement was read. So what is written can
be one container deeper than what was read, and only where the innermost of the branches inside one
another are empty (`Statement.Fits`). Whatever is read fits in this sense, whichever way the
document gives it (`Statement.fits_of_read`).
-/

namespace FactoryScript.Statement

open Json (depthItems depthMembers)

/-! ## Branches inside branches -/

mutual

/-- The most branches of a statement that are inside one another, itself included. -/
def branching : Statement → Nat
  | branch _ thenBranch elseBranch =>
    max (branchingAll thenBranch) (branchingAll elseBranch) + 1
  | _ => 0

def branchingAll : List Statement → Nat
  | [] => 0
  | s :: rest => max s.branching (branchingAll rest)

end

theorem branchingAll_le_iff {ss : List Statement} {n : Nat} :
    branchingAll ss ≤ n ↔ ∀ s ∈ ss, s.branching ≤ n := by
  induction ss with
  | nil => simp [branchingAll]
  | cons s rest ih => rw [branchingAll, Nat.max_le, ih, List.forall_mem_cons]

/-! ## Documents of statements -/

theorem depthItems_toJsonAll_le_iff {ss : List Statement} {n : Nat} :
    depthItems (toJsonAll ss) ≤ n ↔ ∀ s ∈ ss, s.toJson.depth ≤ n := by
  rw [toJsonAll_eq_map, Json.depthItems_le_iff, List.forall_mem_map]

theorem depthMembers_optionalMember {α : Type} {key : String} {write : α → Json} {o : Option α}
    {n : Nat} (h : ∀ a ∈ o, (write a).depth ≤ n) :
    depthMembers (Json.optionalMember key write o) ≤ n := by
  cases o with
  | none => exact Nat.zero_le n
  | some a => simpa [Json.optionalMember, depthMembers] using h a rfl

/-- Only an amount that stays behind is written as a container. -/
theorem depthMembers_transfer {t : Transfer} {n : Nat} (h : t.retain.isSome → 0 < n) :
    depthMembers t.members ≤ n := by
  have hretain : ∀ r ∈ t.retain, (Retention.toJson r).depth ≤ n := fun r hr => by
    have hn : 1 ≤ n := h (by rw [Option.mem_def.1 hr]; rfl)
    simpa [Retention.toJson, Json.depth, depthMembers, Json.count] using hn
  have hzero : ∀ v : Json, v.depth = 0 → v.depth ≤ n := fun v hv => hv ▸ Nat.zero_le n
  simp only [Transfer.members, Json.depthMembers_append, Nat.max_le]
  refine ⟨⟨⟨⟨⟨⟨?_, ?_⟩, ?_⟩, ?_⟩, ?_⟩, ?_⟩, ?_⟩
  · exact depthMembers_optionalMember fun _ _ => hzero _ rfl
  · exact depthMembers_optionalMember hretain
  · exact Nat.zero_le n
  · exact depthMembers_optionalMember fun _ _ => hzero _ rfl
  · exact Nat.zero_le n
  · exact depthMembers_optionalMember fun _ _ => hzero _ rfl
  · exact depthMembers_optionalMember fun _ _ => hzero _ rfl

theorem depth_toJson_branch (condition : String) (thenBranch elseBranch : List Statement) :
    (branch condition thenBranch elseBranch).toJson.depth =
      max (depthItems (toJsonAll thenBranch)) (depthItems (toJsonAll elseBranch)) + 2 := by
  cases elseBranch with
  | nil => simp [toJson, toJsonAll, Json.depth, depthMembers, depthItems]
  | cons s rest =>
    simp [toJson, Json.depth, depthMembers]

mutual

/-- Each branch takes two containers: itself and a list. -/
theorem two_mul_branching_le (s : Statement) : 2 * s.branching ≤ s.toJson.depth := by
  cases s with
  | input t | output t | forget labels => exact Nat.zero_le _
  | branch condition thenBranch elseBranch =>
    have hthen := two_mul_branchingAll_le thenBranch
    have helse := two_mul_branchingAll_le elseBranch
    rw [branching, depth_toJson_branch]
    omega

/-- The same for a list of statements. -/
theorem two_mul_branchingAll_le (ss : List Statement) :
    2 * branchingAll ss ≤ depthItems (toJsonAll ss) := by
  cases ss with
  | nil => exact Nat.zero_le _
  | cons s rest =>
    have hs := two_mul_branching_le s
    have hrest := two_mul_branchingAll_le rest
    rw [branchingAll, toJsonAll, depthItems]
    omega

end

/-! ## What fits -/

/-- What is known of a statement that has been read where so many containers may be nested. -/
structure Fits (s : Statement) (room : Nat) : Prop where
  branching : 2 * s.branching ≤ room + 1
  depth : s.toJson.depth ≤ max room (2 * s.branching)

variable {s : Statement} {room n : Nat}

theorem Fits.mono (h : s.Fits n) (hn : n ≤ room) : s.Fits room := by
  obtain ⟨hbranching, hdepth⟩ := h
  constructor <;> omega

/-- A statement without branches fits wherever its document does. -/
theorem Fits.of_depth (hbranching : s.branching = 0) (hdepth : s.toJson.depth ≤ room) :
    s.Fits room := by
  constructor <;> omega

/-- A statement is written within the bound exactly if its branches leave one container to spare. -/
theorem Fits.depth_le_iff (h : s.Fits (2 * n + 1)) :
    s.toJson.depth ≤ 2 * n + 1 ↔ s.branching ≤ n := by
  have hdepth := h.depth
  have hle := two_mul_branching_le s
  omega

/-- The two containers of a branch are paid for by the one that was read and by the list that may
have been left out. -/
theorem fits_branch {thenBranch elseBranch : List Statement}
    (hthen : ∀ s ∈ thenBranch, 0 < n ∧ s.Fits (n - 1))
    (helse : ∀ s ∈ elseBranch, 0 < n ∧ s.Fits (n - 1)) (condition : String) :
    (branch condition thenBranch elseBranch).Fits (n + 1) := by
  have hall {ss : List Statement} (hss : ∀ s ∈ ss, 0 < n ∧ s.Fits (n - 1)) :
      2 * branchingAll ss ≤ n ∧
        depthItems (toJsonAll ss) ≤ max (n - 1) (2 * branchingAll ss) := by
    induction ss with
    | nil => exact ⟨Nat.zero_le n, Nat.zero_le _⟩
    | cons s rest ih =>
      obtain ⟨⟨hn, hbranching, hdepth⟩, hrest⟩ := List.forall_mem_cons.1 hss
      obtain ⟨ihbranching, ihdepth⟩ := ih hrest
      rw [branchingAll, toJsonAll, depthItems]
      omega
  obtain ⟨hthenBranching, hthenDepth⟩ := hall hthen
  obtain ⟨helseBranching, helseDepth⟩ := hall helse
  constructor
  · rw [branching]
    omega
  · rw [branching, depth_toJson_branch]
    omega

/-! ## What is read -/

/-- What is known of a member whose value holds so many nested containers at most. -/
structure Part.Fits (p : Part) (room : Nat) : Prop where
  value : p.value.depth ≤ room
  statements : ∀ ss, p.statements = .ok ss → ∀ s ∈ ss, 0 < room ∧ s.Fits (room - 1)

theorem Part.Fits.mono {p : Part} (h : p.Fits n) (hn : n ≤ room) : p.Fits room where
  value := Nat.le_trans h.value hn
  statements ss hss s hs := by
    obtain ⟨hpos, hfits⟩ := h.statements ss hss s hs
    exact ⟨Nat.lt_of_lt_of_le hpos hn, hfits.mono (Nat.sub_le_sub_right hn 1)⟩

theorem pos_depth_of_readRetention {v : Json} {r : Retention} (h : Retention.read v = .ok r) :
    0 < v.depth := by
  unfold Retention.read Json.readRecord at h
  split at h
  · exact Nat.succ_pos _
  · exact Nat.succ_pos _
  · exact absurd h Json.unexpected_ne_ok

/-- An amount that stays behind is read from a container. -/
theorem yieldsFrom_transfer :
    Transfer.fields.YieldsFrom (fun v => v.depth ≤ room) fun t => t.retain.isSome → 0 < room := by
  intro _ _ retain hretain _ _ _ _ _ _ _ _ _ _ _ _ _ _ hsome
  obtain ⟨r, rfl⟩ := Option.isSome_iff_exists.1 hsome
  obtain h | h | ⟨v, hv, h⟩ := hretain
  · cases h
  · cases h
  · unfold Json.readOptional at h
    split at h
    · cases h
    · obtain ⟨r', hr, -⟩ := Except.map_eq_ok_iff.1 h
      exact Nat.lt_of_lt_of_le (pos_depth_of_readRetention hr) hv

/-- The fields of each kind of statement give statements that fit, if their parts do. -/
theorem yieldsFrom_fieldsOf (tag : StatementTag) :
    (fieldsOf tag).YieldsFrom (Part.Fits · room) (Fits · (room + 1)) := by
  have hmembers {tag : String} {members : List (String × Json)} (h : depthMembers members ≤ room) :
      (Json.object ((tagKey, .string tag) :: members)).depth ≤ room + 1 := by
    simpa [Json.depth, depthMembers] using h
  cases tag with
  | input =>
    exact .comap (.map (yieldsFrom_transfer.mono fun t ht =>
      .of_depth rfl (hmembers (depthMembers_transfer ht)))) fun p hp => hp.value
  | output =>
    exact .comap (.map (yieldsFrom_transfer.mono fun t ht =>
      .of_depth rfl (hmembers (depthMembers_transfer ht)))) fun p hp => hp.value
  | forget =>
    intro labels _
    exact .of_depth rfl (hmembers (depthMembers_optionalMember fun _ _ => Nat.zero_le room))
  | branch =>
    have hlist {ss : List Statement}
        (h : none = some ss ∨ some [] = some ss ∨ ∃ p : Part, p.Fits room ∧ p.statements = .ok ss) :
        ∀ s ∈ ss, 0 < room ∧ s.Fits (room - 1) := by
      obtain h | h | ⟨p, hp, h⟩ := h
      · cases h
      · cases h
        nofun
      · exact hp.statements ss h
    intro condition _ thenBranch hthen elseBranch helse
    exact fits_branch (hlist hthen) (hlist helse) condition

theorem fits_of_ofParts {parts : List (String × Part)} (hparts : ∀ m ∈ parts, m.2.Fits room)
    (h : ofParts parts = .ok s) : s.Fits (room + 1) := by
  unfold ofParts at h
  split at h <;> rename_i hsplit
  · refine (yieldsFrom_fieldsOf _).ofMembers (fun m hm => hparts m ?_) h
    exact Json.mem_of_splitTag hsplit m hm
  · cases h

/-- So do statements that are given by position. -/
theorem fits_of_ofPositions {parts : List Part} (hparts : ∀ p ∈ parts, p.Fits room)
    (h : ofPositions parts = .ok s) : s.Fits (room + 1) := by
  unfold ofPositions at h
  split at h
  · cases h
  · rename_i parts
    have hrest : ∀ p ∈ parts, p.Fits room := fun p hp => hparts p (List.mem_cons_of_mem _ hp)
    split at h
    · split at h <;> rename_i hitems <;> cases h
      exact ((yieldsFrom_fieldsOf _).ofItems hrest hitems).1
    · cases h

theorem ofJsonAll_cons_eq_ok {v : Json} {rest : List Json} {ss : List Statement}
    (h : ofJsonAll (v :: rest) = .ok ss) :
    ∃ s ss', ofJson v = .ok s ∧ ofJsonAll rest = .ok ss' ∧ ss = s :: ss' := by
  rw [ofJsonAll] at h
  split at h <;> rename_i hv hrest <;> cases h
  exact ⟨_, _, hv, hrest, rfl⟩

mutual

theorem fits_of_ofJson {v : Json} {s : Statement} (h : ofJson v = .ok s) : s.Fits v.depth := by
  cases v with
  | object members => exact fits_of_ofParts (fits_memberParts members) h
  | array items => exact fits_of_ofPositions (fits_itemParts items) h
  | null | bool b | number n | string t | flaw f => cases h

theorem fits_part (v : Json) : Part.Fits ⟨v, listOfJson v⟩ v.depth := by
  refine ⟨Nat.le_refl _, fun ss (h : listOfJson v = .ok ss) s hs => ?_⟩
  cases v with
  | array items => exact ⟨Nat.succ_pos _, fits_of_ofJsonAll h s hs⟩
  | object members | null | bool b | number n | string t | flaw f => cases h

/-- Statements that are read from a list fit in the depth of the list. -/
theorem fits_of_ofJsonAll {items : List Json} {ss : List Statement} (h : ofJsonAll items = .ok ss) :
    ∀ s ∈ ss, s.Fits (depthItems items) := by
  cases items with
  | nil => exact Except.ok.inj h ▸ nofun
  | cons v rest =>
    obtain ⟨s, ss', hv, hrest, hss⟩ := ofJsonAll_cons_eq_ok h
    have hs := fits_of_ofJson hv
    have hss' := fits_of_ofJsonAll hrest
    rw [hss]
    refine List.forall_mem_cons.2 ⟨hs.mono (Nat.le_max_left ..), fun s hs => ?_⟩
    exact (hss' s hs).mono (Nat.le_max_right ..)

/-- The members of an object as parts of a statement. -/
theorem fits_memberParts (members : List (String × Json)) :
    ∀ m ∈ memberParts members, m.2.Fits (depthMembers members) := by
  cases members with
  | nil => exact nofun
  | cons m rest =>
    obtain ⟨key, v⟩ := m
    refine List.forall_mem_cons.2 ⟨(fits_part v).mono (Nat.le_max_left ..), fun m hm => ?_⟩
    exact (fits_memberParts rest m hm).mono (Nat.le_max_right ..)

theorem fits_itemParts (items : List Json) :
    ∀ p ∈ itemParts items, p.Fits (depthItems items) := by
  cases items with
  | nil => exact nofun
  | cons v rest =>
    refine List.forall_mem_cons.2 ⟨(fits_part v).mono (Nat.le_max_left ..), fun p hp => ?_⟩
    exact (fits_itemParts rest p hp).mono (Nat.le_max_right ..)

end

theorem depth_le_of_readTag {v : Json} (h : readTag v = .ok ()) : v.depth ≤ room := by
  unfold readTag at h
  split at h
  · exact Nat.zero_le room
  · exact absurd h Json.unexpected_ne_ok

/-- The first pass accepts no more containers than there is room for. -/
theorem depthMembers_le_of_takeMembers {members : List (String × Json)} {tagged : Bool}
    (h : takeMembers room tagged members = .ok ()) : depthMembers members ≤ room := by
  induction members generalizing tagged with
  | nil => exact Nat.zero_le room
  | cons m rest ih =>
    obtain ⟨key, v⟩ := m
    have hmax {v : Json} (hv : v.depth ≤ room) (hrest : depthMembers rest ≤ room) :
        depthMembers ((key, v) :: rest) ≤ room := Nat.max_le.2 ⟨hv, hrest⟩
    rw [takeMembers] at h
    split at h
    · split at h
      · cases h
      · obtain ⟨_, htag, h⟩ := Except.bind_eq_ok_iff.1 h
        exact hmax (depth_le_of_readTag htag) (ih h)
    · obtain ⟨_, hv, h⟩ := Except.bind_eq_ok_iff.1 h
      exact hmax (Json.depth_le_of_take hv) (ih h)

/-- The same for statements that are given by position. -/
theorem depthItems_le_of_takeItems {items : List Json} (h : takeItems room items = .ok ()) :
    depthItems items ≤ room := by
  cases items with
  | nil => cases h
  | cons tag rest =>
    obtain ⟨_, htag, h⟩ := Except.bind_eq_ok_iff.1 h
    refine Nat.max_le.2 ⟨depth_le_of_readTag htag, Json.depthItems_le_iff.2 ?_⟩
    exact Except.forall_mem_of_forM (fun v hv => Json.depth_le_of_take hv) h

/-- What is read where so many containers may be nested fits there. -/
theorem fits_of_read {v : Json} (h : read room v = .ok s) : s.Fits room := by
  unfold read at h
  split at h
  · split at h <;> rename_i hroom
    · cases h
    · obtain ⟨_, htake, h⟩ := Except.bind_eq_ok_iff.1 h
      refine (fits_of_ofJson (Json.eq_ok_of_settle h)).mono ?_
      have := depthMembers_le_of_takeMembers htake
      rw [Json.depth]
      omega
  · split at h <;> rename_i hroom
    · cases h
    · obtain ⟨_, htake, h⟩ := Except.bind_eq_ok_iff.1 h
      refine (fits_of_ofJson (Json.eq_ok_of_settle h)).mono ?_
      have := depthItems_le_of_takeItems htake
      rw [Json.depth]
      omega
  · exact absurd h Json.unexpected_ne_ok

end FactoryScript.Statement
