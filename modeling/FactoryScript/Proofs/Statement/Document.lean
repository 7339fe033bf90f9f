import FactoryScript.Proofs.Json.Plain
import FactoryScript.Proofs.Json.Written
import FactoryScript.Statement.Document

/-!
# Statements come back from their documents

What a statement is written as is read as the same statement, whatever texts it holds and however
its branches nest, unless the document nests too deeply as a whole (`Statement.readsWithin`).
-/

namespace FactoryScript

open Json (PlainItems PlainMembers ReadsWithin depthMembers)

/-! ## Movements -/

theorem Retention.read_toJson (r : Retention) : read r.toJson = .ok r := by
  have hwritten : fields.Written [("count", .count r.count.toNat), ("each", .bool r.each)] r :=
    .given (.given (.done Retention.mk) (Json.readCount_count r.count)) rfl
  exact hwritten.ofMembers (by decide)

namespace Transfer

/-- A movement is written field by field. -/
theorem written (t : Transfer) : fields.Written t.members t := by
  have hmembers : t.members =
      [] ++ Json.optionalMember "quantity" (fun n => .count n.toNat) t.quantity ++
        Json.optionalMember "retain" Retention.toJson t.retain ++
        [("kind", .string t.kind.name)] ++ [("resource_id", .string t.resourceId)] ++
        Json.optionalMember "except" .string t.except ++
        [("label", .string t.label)] ++ [("each", .bool t.each)] ++
        Json.optionalMember "side" (fun s => .string s.keyword) t.side ++
        Json.optionalMember "slots" .string t.slots := by
    simp [members]
  rw [hmembers]
  refine Fields.Written.done Transfer.mk
    |>.optionalMember t.quantity ?_
    |>.optionalMember t.retain ?_
    |>.given ?_
    |>.given ?_
    |>.optionalMember t.except ?_
    |>.given ?_
    |>.given ?_
    |>.optionalMember t.side ?_
    |>.optionalMember t.slots ?_
  · exact fun n => congrArg (Except.map some) (Json.readCount_count n)
  · exact fun r => congrArg (Except.map some) (Retention.read_toJson r)
  · exact Json.takenName_name t.kind
  · rfl
  · exact fun _ => rfl
  · rfl
  · rfl
  · exact fun s => congrArg (Except.map some) (Json.takenName_name s)
  · exact fun _ => rfl

theorem plainMembers (t : Transfer) : PlainMembers t.members := by
  have hretain (r : Retention) : r.toJson.Plain := ⟨Json.plain_count r.count, trivial, trivial⟩
  have htext (s : String) : (Json.string s).Plain := trivial
  have hflag (b : Bool) : (Json.bool b).Plain := trivial
  simp [members, Json.plainMembers_append, Json.plainMembers_optionalMember, PlainMembers,
    Json.plain_count, hretain, htext, hflag]

end Transfer

namespace Statement

/-! ## Members -/

theorem memberParts_eq_map (members : List (String × Json)) :
    memberParts members = members.map fun m => (m.1, ⟨m.2, listOfJson m.2⟩) := by
  induction members with
  | nil => rfl
  | cons m rest ih => rw [memberParts, ih, List.map_cons]

/-- The fields of a kind that has no lists of statements. -/
theorem written_comap {α : Type} {f : Fields Json α} {members : List (String × Json)} {a : α}
    (h : f.Written members a) : (f.comap Part.value).Written (memberParts members) a := by
  have hvalues : (memberParts members).map (fun m => (m.1, m.2.value)) = members := by
    simp [memberParts_eq_map, Function.comp_def]
  refine .comap ?_
  rwa [hvalues]

theorem nodup_keys_fieldsOf (tag : StatementTag) : (fieldsOf tag).keys.Nodup := by
  cases tag <;> decide

theorem tagKey_notMem_keys (tag : StatementTag) : tagKey ∉ (fieldsOf tag).keys := by
  cases tag <;> decide

section
variable {tag : StatementTag} {members : List (String × Json)} {s : Statement}

theorem ne_tagKey_of_written (h : (fieldsOf tag).Written (memberParts members) s) :
    ∀ m ∈ memberParts members, m.1 ≠ tagKey := by
  rintro m hm hkey
  exact tagKey_notMem_keys tag (hkey ▸ h.mem_keys m hm)

/-- A statement of which the fields are written is read in the second pass. -/
theorem ofJson_written (h : (fieldsOf tag).Written (memberParts members) s) :
    ofJson (.object ((tagKey, .string (Named.name tag)) :: members)) = .ok s := by
  have hsplit : Json.splitTag tagKey Part.value
      (memberParts ((tagKey, .string (Named.name tag)) :: members)) =
        some (tag, memberParts members) :=
    Json.splitTag_cons (Json.tag?_name tag) (ne_tagKey_of_written h)
  rw [ofJson, ofParts, hsplit]
  exact h.ofMembers (nodup_keys_fieldsOf tag)

/-- The first pass fails on plain members only if they are nested too deep. -/
theorem takeMembers_plain (hplain : PlainMembers members) (hkey : ∀ m ∈ members, m.1 ≠ tagKey)
    (room : Nat) (tagged : Bool) : takeMembers room tagged members =
      if depthMembers members ≤ room then .ok () else .error .malformed := by
  induction members with
  | nil => rfl
  | cons m rest ih =>
    obtain ⟨key, v⟩ := m
    obtain ⟨hm, hrest⟩ := List.forall_mem_cons.1 hkey
    rw [takeMembers, if_neg hm, hplain.1.take, ih hplain.2 hrest, depthMembers, Json.ite_max_le]
    split <;> rfl

/-- Both passes together: a written statement is read back wherever there is room for it. -/
theorem readsWithin_written (h : (fieldsOf tag).Written (memberParts members) s)
    (hplain : PlainMembers members) (room : Nat) :
    ReadsWithin room (read room) (.object ((tagKey, .string (Named.name tag)) :: members)) s := by
  have hkey : ∀ m ∈ members, m.1 ≠ tagKey := by
    rintro m hm
    refine ne_tagKey_of_written h (m.1, ⟨m.2, listOfJson m.2⟩) ?_
    rw [memberParts_eq_map]
    exact List.mem_map_of_mem hm
  cases room with
  | zero => rfl
  | succ room =>
    have htag : readTag (.string (Named.name tag)) = .ok () := by
      simp [readTag]
    have htake : takeMembers room false ((tagKey, .string (Named.name tag)) :: members) =
        if depthMembers members ≤ room then .ok () else .error .malformed := by
      rw [takeMembers, if_pos rfl, htag]
      exact takeMembers_plain hplain hkey room true
    have hdepth : (Json.object ((tagKey, .string (Named.name tag)) :: members)).depth =
        depthMembers members + 1 := by
      simp [Json.depth, depthMembers]
    rw [ReadsWithin, read, if_neg (Nat.succ_ne_zero room), Nat.add_sub_cancel, htake,
      ofJson_written h]
    simp only [hdepth, Nat.add_le_add_iff_right]
    split <;> rfl

end

/-- A branch without an alternative, whose list of first statements is given as a document. -/
theorem written_branch (condition : String) {thenJson : List Json} {thenBranch : List Statement}
    (h : ofJsonAll thenJson = .ok thenBranch) :
    ((Fields.done branch).required "condition" (fun p => Json.readText p.value)
      |>.optional "then_branch" Part.statements []).Written
        (memberParts [("condition", .string condition), ("then_branch", .array thenJson)])
        (branch condition thenBranch) := by
  have hparts : memberParts [("condition", .string condition), ("then_branch", .array thenJson)] =
      [] ++ [("condition", ⟨.string condition, listOfJson (.string condition)⟩)] ++
        [("then_branch", ⟨.array thenJson, listOfJson (.array thenJson)⟩)] := rfl
  rw [hparts]
  exact .given (.given (.done branch) rfl) h

/-! ## Every statement -/

mutual

/-- Documents of statements are plain. -/
theorem plain_toJson (s : Statement) : s.toJson.Plain := by
  cases s with
  | input t | output t => exact ⟨trivial, t.plainMembers⟩
  | forget labels => exact ⟨trivial, Json.plainMembers_optionalMember fun _ => trivial⟩
  | branch condition thenBranch elseBranch =>
    have hthen := plain_toJsonAll thenBranch
    have helse := plain_toJsonAll elseBranch
    refine ⟨trivial, trivial, hthen, ?_⟩
    split
    · trivial
    · exact ⟨helse, trivial⟩

theorem plain_toJsonAll (statements : List Statement) : PlainItems (toJsonAll statements) := by
  cases statements with
  | nil => trivial
  | cons s rest => exact ⟨plain_toJson s, plain_toJsonAll rest⟩

end

mutual

/-- Each statement is written as a tag and its fields, those of a branch by induction. -/
theorem exists_written (s : Statement) : ∃ tag members,
    s.toJson = .object ((tagKey, .string (Named.name tag)) :: members) ∧
      (fieldsOf tag).Written (memberParts members) s := by
  cases s with
  | input t => exact ⟨.input, t.members, rfl, written_comap (t.written.map input)⟩
  | output t => exact ⟨.output, t.members, rfl, written_comap (t.written.map output)⟩
  | forget labels =>
    refine ⟨.forget, Json.optionalMember "labels" .string labels, rfl, written_comap ?_⟩
    exact (Fields.Written.done forget).optionalMember labels fun _ => rfl
  | branch condition thenBranch elseBranch =>
    have hthen := ofJsonAll_toJsonAll thenBranch
    have helse := ofJsonAll_toJsonAll elseBranch
    have hwritten := written_branch condition hthen
    cases elseBranch with
    | nil => exact ⟨.branch, _, rfl, .omitted hwritten⟩
    | cons s rest => exact ⟨.branch, _, rfl, .given hwritten helse⟩

theorem ofJsonAll_toJsonAll (statements : List Statement) :
    ofJsonAll (toJsonAll statements) = .ok statements := by
  cases statements with
  | nil => rfl
  | cons s rest =>
    obtain ⟨tag, members, hs, hwritten⟩ := exists_written s
    rw [toJsonAll, ofJsonAll, hs, ofJson_written hwritten, ofJsonAll_toJsonAll rest]

end

theorem readsWithin (s : Statement) (room : Nat) : ReadsWithin room (read room) s.toJson s := by
  obtain ⟨tag, members, hs, hwritten⟩ := exists_written s
  have hplain := plain_toJson s
  rw [hs] at hplain ⊢
  exact readsWithin_written hwritten hplain.2 room

theorem toJsonAll_eq_map (statements : List Statement) :
    toJsonAll statements = statements.map toJson := by
  induction statements with
  | nil => rfl
  | cons s rest ih => rw [toJsonAll, ih, List.map_cons]

theorem readsWithin_all (statements : List Statement) (room : Nat) :
    ReadsWithin (room + 1) (Json.readList (read room)) (.array (toJsonAll statements))
      statements := by
  have h := Json.readsWithin_list fun s (_ : s ∈ statements) => s.readsWithin room
  rwa [List.map_id', ← toJsonAll_eq_map] at h

end Statement
end FactoryScript
