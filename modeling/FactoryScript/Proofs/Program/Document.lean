import FactoryScript.Program.Document
import FactoryScript.Proofs.Json.Nesting
import FactoryScript.Proofs.Statement.Document

/-!
# Programs come back from their documents

The main statement, `Program.ofText_compact`, is about the text that a program is stored as: it is
read as the program, where a scheduled interval of 0 has become 1, if no more than 127 arrays and
objects of it are inside one another, and is refused otherwise.
-/

namespace FactoryScript

open Json (PlainItems PlainMembers ReadsWithin depthMembers)

/-! ## Intervals of at least one -/

def TriggerKind.atLeastOne : TriggerKind → TriggerKind
  | scheduled s => scheduled s.atLeastOne
  | redstonePulse => redstonePulse

def Trigger.atLeastOne (t : Trigger) : Trigger := { t with kind := t.kind.atLeastOne }

/-- The program with intervals of 0 raised to 1. -/
def Program.atLeastOne (p : Program) : Program :=
  { p with triggers := p.triggers.map Trigger.atLeastOne }

/-! ## Schedules and kinds -/

/-- A schedule is written field by field, and read back with an interval of at least one. -/
theorem Schedule.written (s : Schedule) : fields.Written s.members s.atLeastOne := by
  have hmembers : s.members =
      [] ++ [("interval", .count s.interval.toNat)] ++ [("unit", .string s.unit.keyword)] ++
        [("global", .bool s.global)] ++
        Json.optionalMember "offset" (fun n => .count n.toNat) s.offset := rfl
  rw [hmembers]
  refine Fields.Written.done Schedule.mk
    |>.given ?_
    |>.given ?_
    |>.given ?_
    |>.optionalMember s.offset ?_
  · exact congrArg (Except.map (max 1)) (Json.readCount_count s.interval)
  · exact Json.takenName_name s.unit
  · rfl
  · exact fun n => congrArg (Except.map some) (Json.readCount_count n)

theorem Schedule.ne_key (s : Schedule) {key : String} (h : key ∉ fields.keys) :
    ∀ m ∈ s.members, m.1 ≠ key := by
  rintro m hm rfl
  exact h (s.written.mem_keys m hm)

namespace TriggerKind

/-- What fires a trigger is read back from its own members, up to an interval of zero. -/
theorem ofMembers_members (kind : TriggerKind) : ofMembers kind.members = .ok kind.atLeastOne := by
  cases kind with
  | scheduled s =>
    have hsplit : Json.splitTag tagKey id ((tagKey, .string Firing.scheduled.name) :: s.members) =
        some (Firing.scheduled, s.members) :=
      Json.splitTag_cons (Json.tag?_name Firing.scheduled) (s.ne_key (by decide))
    rw [members, ofMembers, hsplit]
    exact congrArg (Except.map scheduled) (s.written.ofMembers (by decide))
  | redstonePulse => rfl

theorem ne_statementsKey (kind : TriggerKind) :
    ∀ m ∈ kind.members, m.1 ≠ Trigger.statementsKey := by
  cases kind with
  | scheduled s => exact List.forall_mem_cons.2 ⟨by decide, s.ne_key (by decide)⟩
  | redstonePulse => exact List.forall_mem_cons.2 ⟨by decide, nofun⟩

theorem plainMembers (kind : TriggerKind) : PlainMembers kind.members := by
  cases kind with
  | scheduled s =>
    exact ⟨trivial, Json.plain_count s.interval, trivial, trivial,
      Json.plainMembers_optionalMember Json.plain_count⟩
  | redstonePulse => exact ⟨trivial, trivial⟩

/-- The kind of a trigger holds no containers. -/
theorem depthMembers_members (kind : TriggerKind) : depthMembers kind.members = 0 := by
  cases kind with
  | scheduled s =>
    obtain ⟨interval, unit, global, offset⟩ := s
    cases offset <;> rfl
  | redstonePulse => rfl

end TriggerKind

/-! ## Triggers -/

namespace Trigger

/-- The statements may follow any members that can be taken. -/
theorem gather_concat {members : List (String × Json)} (hplain : PlainMembers members)
    (hdepth : depthMembers members = 0) (hkey : ∀ m ∈ members, m.1 ≠ statementsKey) (room : Nat)
    (v : Json) : gather room none (members ++ [(statementsKey, v)]) =
      (Json.readList (Statement.read (room - 1)) v).map some := by
  induction members with
  | nil =>
    rw [List.nil_append, gather, if_pos rfl]
    cases Json.readList (Statement.read (room - 1)) v <;> rfl
  | cons m rest ih =>
    obtain ⟨key, w⟩ := m
    obtain ⟨hm, hrest⟩ := List.forall_mem_cons.1 hkey
    rw [depthMembers] at hdepth
    have htake : w.take room = .ok () := by
      rw [hplain.1.take, if_pos (by omega)]
    rw [List.cons_append, gather, if_neg hm, htake]
    exact ih hplain.2 (by omega) hrest

theorem plain_toJson (t : Trigger) : t.toJson.Plain :=
  Json.plainMembers_append.2 ⟨t.kind.plainMembers, Statement.plain_toJsonAll t.statements, trivial⟩

theorem depth_toJson (t : Trigger) :
    t.toJson.depth = (Json.array (Statement.toJsonAll t.statements)).depth + 1 := by
  simp [toJson, Json.depth, Json.depthMembers_append, t.kind.depthMembers_members, depthMembers]

/-- The members of a kind, and whatever the statements are read from. -/
theorem read_members (kind : TriggerKind) (v : Json) (room : Nat) :
    read (room + 2) (.object (kind.members ++ [(statementsKey, v)])) =
      (Json.readList (Statement.read room) v).map (Trigger.mk kind.atLeastOne) := by
  have hkeep : kind.members.filter (fun m => m.1 != statementsKey) = kind.members :=
    List.filter_eq_self.2 fun m hm => bne_iff_ne.2 (kind.ne_statementsKey m hm)
  have hkind : (kind.members ++ [(statementsKey, v)]).filter (fun m => m.1 != statementsKey) =
      kind.members := by
    simp [hkeep]
  have hgather : gather (room + 1) none (kind.members ++ [(statementsKey, v)]) =
      (Json.readList (Statement.read room) v).map some :=
    gather_concat kind.plainMembers kind.depthMembers_members kind.ne_statementsKey ..
  change (gather (room + 1) none _).bind _ = _
  rw [hgather, hkind, TriggerKind.ofMembers_members]
  cases Json.readList (Statement.read room) v <;> rfl

theorem read_toJson (t : Trigger) (room : Nat) :
    read (room + 2) t.toJson =
      (Json.readList (Statement.read room) (.array (Statement.toJsonAll t.statements))).map
        (Trigger.mk t.kind.atLeastOne) := read_members t.kind _ room

theorem readsWithin (t : Trigger) (room : Nat) :
    ReadsWithin (room + 2) (read (room + 2)) t.toJson t.atLeastOne :=
  (Statement.readsWithin_all t.statements room).container (t.read_toJson room) t.depth_toJson

end Trigger

/-! ## Programs -/

namespace Program

theorem plain_toJson (p : Program) : p.toJson.Plain := by
  have htriggers : PlainItems (p.triggers.map Trigger.toJson) :=
    Json.plainItems_iff.2 (List.forall_mem_map.2 fun t _ => t.plain_toJson)
  exact ⟨trivial, htriggers, trivial⟩

/-- A program is read back from its document as its triggers are, each where 125 containers may
still be opened. -/
theorem read_toJson (p : Program) :
    read p.toJson =
      (Json.readList (Trigger.read 125) (.array (p.triggers.map Trigger.toJson))).map
        (Program.mk p.name) := by
  have hname : ((Fields.done Program.mk).optional "name" Json.readText "").Written
      [("name", .string p.name)] (Program.mk p.name) :=
    .given (.done Program.mk) rfl
  exact hname.ofMembers_concat (by decide) _

theorem depth_toJson (p : Program) :
    p.toJson.depth = (Json.array (p.triggers.map Trigger.toJson)).depth + 1 := by
  simp [toJson, Json.depth, depthMembers]

theorem readsWithin (p : Program) : ReadsWithin 127 read p.toJson p.atLeastOne := by
  have htriggers : ReadsWithin 126 (Json.readList (Trigger.read 125))
      (.array (p.triggers.map Trigger.toJson)) (p.triggers.map Trigger.atLeastOne) :=
    Json.readsWithin_list fun t _ => t.readsWithin 123
  exact htriggers.container p.read_toJson p.depth_toJson

/-- The stored text of a program is read as this program, with intervals of 0 raised to 1, if it
nests at most 127 arrays and objects, and is refused if it does not. -/
theorem ofText_compact (p : Program) :
    read.ofText p.toJson.compact =
      if Json.nesting p.toJson.compact ≤ 127 then .ok p.atLeastOne else .error .malformed :=
  p.readsWithin.ofText p.plain_toJson

end Program
end FactoryScript
