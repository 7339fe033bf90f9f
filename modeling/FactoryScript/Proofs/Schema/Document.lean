import FactoryScript.Proofs.Schema.Program

/-!
# Documents mean the same however they are written

The remaining documents are records of single values and of lists of records. With them
`documents_read_alike` says of all five kinds of documents that the order of members and the members
under foreign keys are of no account.
-/

namespace FactoryScript

open Schema (under plain record storedTrigger)

variable {v w : Json}

/-! ## Graphs -/

/-- An endpoint adds five fields to a record, of which the side and the kind are plain values. -/
theorem Endpoint.follows_addFields {α : Type} {rest : Fields Json (Endpoint → α)}
    {fields : List (String × Schema)}
    (h : rest.Follows (fun key => (under fields key).Variant) rest)
    (hside : under fields "side" = plain) (hkind : under fields "kind" = plain) :
    (addFields rest).Follows (fun key => (under fields key).Variant) (addFields rest) := by
  refine (h.map _)
    |>.field ?_
    |>.field ?_
    |>.field ?_
    |>.field ?_
    |>.field ?_
  · exact Schema.carries_text
  · rw [hside]
    exact Schema.carries_name
  · rw [hkind]
    exact Schema.carries_name
  · exact Schema.carries_text
  · exact Schema.carries_text

theorem Node.carries_read : (record Schema.node).Carries read read := by
  refine Schema.carries_record rfl (by decide) (Endpoint.follows_addFields ?_ rfl rfl)
  exact .field (.done mk) Schema.carries_nodeId

theorem Connection.carries_read : (record Schema.connection).Carries read read :=
  Schema.carries_record rfl (by decide)
    (.field (.field (.done mk) Schema.carries_nodeId) Schema.carries_nodeId)

/-- The record of a stored trigger is read alike, in all its lists of nodes and connections. -/
theorem StoredTrigger.carries_readRecord :
    (record storedTrigger).Carries (Json.readRecord fields) (Json.readRecord fields) := by
  refine Schema.carries_record rfl (by decide) (Fields.Follows.done StoredTrigger.mk
    |>.field ?_
    |>.field ?_
    |>.field ?_
    |>.field ?_
    |>.field ?_)
  · exact Schema.carries_text
  · exact Schema.carries_name
  · exact Schema.carries_interval
  · exact Node.carries_read.list
  · exact Connection.carries_read.list

/-- Loading depends on what has been read. -/
theorem GraphTrigger.carries_read : (record storedTrigger).Carries read read := by
  intro v w t hvw hread
  rw [read] at hread
  split at hread <;> rename_i hstored
  · cases hread
  · rw [read, StoredTrigger.carries_readRecord v w _ hvw hstored]
    exact hread

theorem Graph.carries_read : Schema.graph.Carries read read := GraphTrigger.carries_read.list

/-! ## Wizard layouts, common values and conditions -/

theorem Endpoint.carries_read : (record Schema.endpoint).Carries read read :=
  Schema.carries_record rfl (by decide) (follows_addFields (.done id) rfl rfl)

/-- Layouts are read alike. -/
theorem WizardLayout.carries_read : Schema.wizardLayout.Carries read read := by
  refine Schema.carries_record rfl (by decide) (Fields.Follows.done mk
    |>.field ?_
    |>.field ?_
    |>.field ?_)
  · exact Schema.carries_interval
  · exact Endpoint.carries_read.list
  · exact Endpoint.carries_read.list

/-- Stores of common values are read alike. -/
theorem CommonValues.carries_read : Schema.commonValues.Carries read read := by
  refine Schema.carries_record rfl (by decide) (Fields.Follows.done mk
    |>.field ?_
    |>.field ?_
    |>.field ?_
    |>.field ?_
    |>.field ?_)
  all_goals exact Schema.carries_text.list

/-- Forms of conditions are read alike. -/
theorem ConditionForm.carries_read : Schema.condition.Carries read read := by
  refine Schema.carries_record rfl (by decide) (Fields.Follows.done mk
    |>.field ?_
    |>.field ?_
    |>.field ?_
    |>.field ?_
    |>.field ?_)
  · exact Schema.carries_name
  · exact Schema.carries_text
  · exact Schema.carries_name
  · exact Schema.carries_text
  · exact Schema.carries_text

/-! ## All documents -/

/-- A document that is accepted is accepted, and means the same, when the members of its objects
change places and objects of the domain have other members under foreign keys. Programs are read
along the text, where `Json.maxDepth` containers may be nested; as far as the document goes, any
room will do that it fits into. -/
theorem documents_read_alike (hv : v.Proper) (hw : w.Proper) :
    (Schema.program.Rearranged v w → ∀ p, (∃ room, Program.readWithin room v = .ok p) →
        ∀ room, w.depth ≤ room → Program.readWithin room w = .ok p) ∧
      (Schema.graph.Rearranged v w → ∀ g, Graph.read v = .ok g → Graph.read w = .ok g) ∧
      (Schema.wizardLayout.Rearranged v w → ∀ l, WizardLayout.read v = .ok l →
        WizardLayout.read w = .ok l) ∧
      (Schema.commonValues.Rearranged v w → ∀ c, CommonValues.read v = .ok c →
        CommonValues.read w = .ok c) ∧
      (Schema.condition.Rearranged v w → ∀ f, ConditionForm.read v = .ok f →
        ConditionForm.read w = .ok f) := by
  refine ⟨fun h p hread room hroom => ?_, fun h g => Graph.carries_read v w g ⟨hv, hw, h⟩,
    fun h l => WizardLayout.carries_read v w l ⟨hv, hw, h⟩,
    fun h c => CommonValues.carries_read v w c ⟨hv, hw, h⟩,
    fun h f => ConditionForm.carries_read v w f ⟨hv, hw, h⟩⟩
  obtain ⟨room₀, hread⟩ := hread
  exact Program.read_of_variant ⟨hv, hw, h⟩ hread hroom

/-- The tags may come last, a trigger without a schedule may have an interval that is none, and a
statement the label of another kind. -/
theorem documents_read_alike_pulse :
    Program.read (.object [("version", .count 2),
        ("triggers", .array [.object [("interval", .string "never"),
          ("statements", .array [.object [("label", .null), ("statement", .string "forget")]]),
          ("trigger", .string "redstone_pulse")]]),
        ("name", .string "gate")]) =
      .ok ⟨"gate", [⟨.redstonePulse, [.forget none]⟩]⟩ := by
  -- each object has its members in the opposite order, and the added one comes first
  have hreverse (members : List (String × Json)) : members.Perm members.reverse :=
    (List.reverse_perm members).symm
  have hsame {s : Schema} {m : String × Json} : m.1 = m.1 ∧ s.Rearranged m.2 m.2 :=
    ⟨rfl, .refl s m.2⟩
  let statement : Json := .object [("statement", .string "forget")]
  let statement' : Json := .object [("label", .null), ("statement", .string "forget")]
  have hstatement : Schema.Rearranged .statement statement statement' :=
    @Schema.Rearranged.of_perm _ _ _ [("statement", .string "forget")] [("label", .null)]
      (by decide) (hreverse _) (.cons hsame .nil)
      (List.forall_mem_singleton.2 ⟨_, rfl, by decide⟩)
  let trigger : Json := .object [("trigger", .string "redstone_pulse"),
    ("statements", .array [statement])]
  let trigger' : Json := .object [("interval", .string "never"),
    ("statements", .array [statement']), ("trigger", .string "redstone_pulse")]
  have htrigger : Schema.Rearranged .trigger trigger trigger' :=
    @Schema.Rearranged.of_perm _ _ _
      [("trigger", .string "redstone_pulse"), ("statements", .array [statement'])]
      [("interval", .string "never")]
      (by decide) (hreverse _)
      (.cons hsame (.cons ⟨rfl, .of_forall₂ (.cons hstatement .nil)⟩ .nil))
      (List.forall_mem_singleton.2 ⟨_, rfl, by decide⟩)
  let program : Json := .object [("name", .string "gate"), ("triggers", .array [trigger])]
  let program' : Json := .object [("version", .count 2), ("triggers", .array [trigger']),
    ("name", .string "gate")]
  have hprogram : Schema.program.Rearranged program program' :=
    @Schema.Rearranged.of_perm _ _ _ [("name", .string "gate"), ("triggers", .array [trigger'])]
      [("version", .count 2)]
      (by decide) (hreverse _)
      (.cons hsame (.cons ⟨rfl, .of_forall₂ (.cons htrigger .nil)⟩ .nil))
      (List.forall_mem_singleton.2 ⟨_, rfl, by decide⟩)
  have hproper : program.Proper := by
    simp [program, trigger, statement]
  have hproper' : program'.Proper := by
    simp [program', trigger', statement', Json.count]
  exact (documents_read_alike hproper hproper').1 hprogram _ ⟨Json.maxDepth, rfl⟩ Json.maxDepth
    (by decide)

end FactoryScript
