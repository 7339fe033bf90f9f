import FactoryScript.Program.Script
import FactoryScript.Proofs.Count
import FactoryScript.Proofs.Graph.Groups
import FactoryScript.Proofs.Script.Lines

/-!
# Graphs and programs write one dialect

The block of a graph and the block of a structured trigger are made by two renderers. They agree:
the structured trigger of a graph (`GraphTrigger.structured`) takes the contents of each node for a
movement, and where the nodes say what both can say, the lines are the same but for their
indentation (`GraphTrigger.block?_eq_structured`). The headers differ in one case, as a structured
trigger does not write an interval of one.
-/

namespace FactoryScript

/-! ## Resources -/

namespace Resource

/-- The marker of a kind other than items starts the token. -/
theorem token_ne_wildcard {kind : ResourceKind} (h : kind ≠ .item) (id : String) :
    token kind id ≠ wildcard := by
  intro htoken
  have hhead : (token kind id).toList.head? = some '*' := by rw [htoken]; rfl
  unfold token at hhead
  cases kind with
  | item => exact h rfl
  | fluid | energy | gas =>
    split at hhead
    · exact absurd hhead (by decide)
    · rw [String.toList_append] at hhead
      exact absurd (Option.some.inj hhead) (by decide)

/-- Both dialects leave out the same resources, unless an item is called like the wildcard. -/
theorem token_eq_wildcard_iff {kind : ResourceKind} {id : String}
    (h : ¬ (kind = .item ∧ id = wildcard)) :
    token kind id = wildcard ↔ kind = .item ∧ Text.blank id = true := by
  constructor
  · intro htoken
    have hkind : kind = .item := by
      by_contra hne
      exact token_ne_wildcard hne id htoken
    subst hkind
    refine ⟨rfl, ?_⟩
    by_contra hblank
    rw [token, if_neg hblank, ResourceKind.marker, String.empty_append] at htoken
    exact h ⟨rfl, htoken⟩
  · rintro ⟨rfl, hblank⟩
    rw [token, if_pos hblank]

end Resource

/-! ## Movements -/

namespace Endpoint

/-- The endpoint as a movement; its quantity is read as the count fields of a form are. -/
def transfer (e : Endpoint) : Transfer where
  quantity := (Count.read "quantity" e.quantity).toOption.join
  retain := none
  kind := e.kind
  resourceId := e.resourceId
  except := none
  label := e.label
  each := false
  side := e.side.side?
  slots := none

/-- Both dialects can say this: the quantity is a count as it is written or none at all, and the
wildcard is not spelled out. -/
structure Shared (e : Endpoint) : Prop where
  quantity : Text.trim e.quantity = "" ∨ ∃ n, Text.trim e.quantity = Count.text n
  resource : ¬ (e.kind = .item ∧ e.resourceId = wildcard)

variable {e : Endpoint}

/-- The free text of a quantity is the number that the structured statement has. -/
theorem Shared.quantityWord?_eq (he : e.Shared) :
    e.quantityWord? = e.transfer.quantity.map Count.text := by
  rcases he.quantity with hempty | ⟨n, hn⟩
  · rw [quantityWord?, hempty, transfer, Count.read_of_trim_eq_empty hempty]
    rfl
  · rw [quantityWord?, hn, transfer, Count.read_of_trim_eq_text hn, Text.nonBlank?,
      Count.blank_text]
    rfl

/-- Leaving out the token of a blank item and leaving out the wildcard come to the same. -/
theorem Shared.toList_resourceWord? (he : e.Shared) :
    e.resourceWord?.toList =
      if Resource.token e.kind e.resourceId = wildcard then []
      else [Resource.token e.kind e.resourceId] := by
  have hwildcard := Resource.token_eq_wildcard_iff he.resource
  rw [resourceWord?, Resource.filter]
  by_cases h : e.kind = .item ∧ Text.blank e.resourceId = true
  · rw [if_pos h, if_pos (hwildcard.2 h)]
    rfl
  · rw [if_neg h, if_neg fun htoken => h (hwildcard.1 htoken)]
    rfl

end Endpoint

theorem Node.line_eq_transfer_line {n : Node} (h : n.endpoint.Shared) (keyword direction : String) :
    n.line keyword direction = n.endpoint.transfer.line keyword direction := by
  rw [line, Transfer.line, Transfer.words, h.quantityWord?_eq, h.toList_resourceWord?]
  refine congrArg (String.intercalate " ") ?_
  cases hside : n.endpoint.side <;>
    simp [Endpoint.transfer, SideFilter.keyword?, SideFilter.side?, hside, Text.present]

/-! ## Blocks -/

namespace GraphTrigger
variable {t : GraphTrigger}

/-- The structured trigger that says the same as a graph: for each source an input, and for each of
its connections an output. -/
def structured (t : GraphTrigger) (node : NodeId → Node) : Trigger where
  kind :=
    match t.kind with
    | .scheduled => .scheduled (.every t.tickInterval)
    | .redstonePulse => .redstonePulse
  statements := t.sources.flatMap fun source =>
    .input (node source).endpoint.transfer ::
      (t.connectionsFrom source).map fun c => .output (node c.target).endpoint.transfer

theorem lines_input (m : Transfer) : (Statement.input m).lines 0 = [m.line "input" "from"] := by
  rw [Statement.lines_eq]
  simp [Statement.opening, Statement.inner, indent]

theorem lines_output (m : Transfer) : (Statement.output m).lines 0 = [m.line "output" "to"] := by
  rw [Statement.lines_eq]
  simp [Statement.opening, Statement.inner, indent]

/-- The block of a graph has the lines of the structured trigger, two spaces deep, between the same
header and the same end. -/
theorem groupedLines_eq_structured {node : NodeId → Node}
    (hshared : ∀ c ∈ t.connections,
      (node c.source).endpoint.Shared ∧ (node c.target).endpoint.Shared) :
    t.groupedLines node = [t.header] ++
      ((t.structured node).statements.flatMap (Statement.lines 0)).map ("  " ++ ·) ++ ["end"] := by
  rw [groupedLines, structured, List.flatMap_assoc, List.map_flatMap]
  refine congrArg (fun inner => [t.header] ++ inner ++ ["end"]) ?_
  refine List.flatMap_congr fun source hsource => ?_
  obtain ⟨c, hc, rfl⟩ := mem_sources.1 hsource
  have houtputs : ((t.connectionsFrom c.source).map fun d =>
      "  " ++ (node d.target).line "output" "to") =
        ((t.connectionsFrom c.source).map fun d =>
          (node d.target).endpoint.transfer.line "output" "to").map ("  " ++ ·) := by
    rw [List.map_map]
    refine List.map_congr_left fun d hd => ?_
    rw [Node.line_eq_transfer_line (hshared d (mem_connectionsFrom.1 hd).1).2]
    rfl
  rw [Node.line_eq_transfer_line (hshared c hc).1, houtputs, List.flatMap_cons, lines_input,
    List.flatMap_map]
  simp only [lines_output, ← List.map_eq_flatMap, List.singleton_append, List.map_cons]

/-! ## Headers -/

/-- The headers agree, except that an interval of one is written in a graph and left out in a
program. -/
theorem header_structured (node : NodeId → Node)
    (h : ¬ (t.kind = .scheduled ∧ t.tickInterval = 1)) :
    (t.structured node).header = t.header := by
  rw [header]
  cases hkind : t.kind with
  | redstonePulse => simp only [structured, hkind, Trigger.header, TriggerKind.header]
  | scheduled =>
    have hinterval : t.tickInterval ≠ 1 := fun heq => h ⟨hkind, heq⟩
    simp [structured, hkind, Trigger.header, TriggerKind.header, Schedule.header, Schedule.every,
      hinterval, TimeUnit.keyword, String.append_assoc]

theorem header_structured_one (node : NodeId → Node) (hkind : t.kind = .scheduled)
    (hinterval : t.tickInterval = 1) :
    t.header = "every 1 ticks do" ∧ (t.structured node).header = "every ticks do" := by
  rw [header, Trigger.header, structured, hkind, hinterval]
  exact ⟨rfl, rfl⟩

/-- The block of a graph has the lines that the structured trigger has, each behind two spaces, and
the header of the structured trigger, except that a graph writes out an interval of one. -/
theorem block?_eq_structured (hids : t.ids.Nodup)
    (hends : ∀ c ∈ t.connections, c.source ∈ t.ids ∧ c.target ∈ t.ids)
    (hne : t.connections ≠ [])
    (hshared : ∀ c ∈ t.connections, ∀ n ∈ t.nodes, c.touches n.id = true → n.endpoint.Shared) :
    ∃ node : NodeId → Node, (∀ n ∈ t.nodes, node n.id = n) ∧
      t.block? = some ("\n".intercalate ([t.header] ++
        ((t.structured node).statements.flatMap (Statement.lines 0)).map ("  " ++ ·) ++ ["end"])) ∧
      (¬ (t.kind = .scheduled ∧ t.tickInterval = 1) → t.header = (t.structured node).header) ∧
      (t.kind = .scheduled → t.tickInterval = 1 →
        t.header = "every 1 ticks do" ∧ (t.structured node).header = "every ticks do") := by
  obtain ⟨node, hnode⟩ := exists_node hids
  refine ⟨node, hnode, ?_, fun h => (header_structured node h).symm, header_structured_one node⟩
  have hsharedAt : ∀ c ∈ t.connections, ∀ id ∈ t.ids, c.touches id = true →
      (node id).endpoint.Shared := by
    intro c hc id hid htouches
    obtain ⟨n, hn, rfl⟩ := List.mem_map.1 hid
    rw [hnode n hn]
    exact hshared c hc n hn htouches
  have hlines : t.groupedLines node = _ := groupedLines_eq_structured fun c hc =>
    ⟨hsharedAt c hc _ (hends c hc).1 (by simp [Connection.touches]),
      hsharedAt c hc _ (hends c hc).2 (by simp [Connection.touches])⟩
  rw [block?, if_neg (by simpa using hne), lines_eq_groupedLines hids hends hnode, hlines]

/-- A tank and a chest that feed each other on every tick. -/
def exchange : GraphTrigger :=
  ⟨"", .scheduled, 1,
    [⟨⟨2⟩, ⟨"chest", .top, .item, "iron_ingot", " 64 "⟩⟩, ⟨⟨5⟩, ⟨"tank", .any, .fluid, "", ""⟩⟩],
    [⟨⟨5⟩, ⟨2⟩⟩, ⟨⟨2⟩, ⟨5⟩⟩], ⟨6⟩⟩

theorem block?_exchange :
    ∃ node : NodeId → Node,
      exchange.block? = some ("\n".intercalate (["every 1 ticks do"] ++
        ((exchange.structured node).statements.flatMap (Statement.lines 0)).map ("  " ++ ·) ++
          ["end"])) ∧
      (exchange.structured node).header = "every ticks do" ∧
      (node ⟨2⟩).endpoint.transfer.line "output" "to" =
        "output 64 iron_ingot to chest top side" := by
  have hchest : Endpoint.Shared ⟨"chest", .top, .item, "iron_ingot", " 64 "⟩ :=
    ⟨.inr ⟨64, by decide⟩, by decide⟩
  have htank : Endpoint.Shared ⟨"tank", .any, .fluid, "", ""⟩ := ⟨.inl (by decide), by decide⟩
  have hshared : ∀ c ∈ exchange.connections, ∀ n ∈ exchange.nodes, c.touches n.id = true →
      n.endpoint.Shared := by
    intro c _ n hn _
    rcases List.mem_cons.1 hn with rfl | hn
    · exact hchest
    · rw [List.mem_singleton.1 hn]
      exact htank
  obtain ⟨node, hnode, hblock, -, hone⟩ :=
    block?_eq_structured (t := exchange) (by decide) (by decide) (by decide) hshared
  obtain ⟨hheader, hstructured⟩ := hone rfl rfl
  refine ⟨node, hheader ▸ hblock, hstructured, ?_⟩
  have hfirst : node ⟨2⟩ = ⟨⟨2⟩, ⟨"chest", .top, .item, "iron_ingot", " 64 "⟩⟩ :=
    hnode _ List.mem_cons_self
  rw [hfirst]
  decide

end GraphTrigger
end FactoryScript
