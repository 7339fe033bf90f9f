import FactoryScript.Graph.Script
import FactoryScript.Proofs.Graph.Invariant
import FactoryScript.Proofs.List

/-!
# The groups of a block

The groups are built in one pass over the connections, and then the nodes are looked up by their
numbers. Told without the pass (`TargetGroups.ofConnections_eq`): the sources are the distinct ones
in the order in which they first appear, and the targets of a source are those of all its
connections. No look-up fails where every end is a node, so the block has one line for each source
and one for each connection (`block?_eq_grouped`).
-/

namespace FactoryScript

/-! ## Grouping -/

namespace TargetGroups

/-- The connections from a source. -/
def group (cs : List Connection) (source : NodeId) : List Connection :=
  cs.filter fun c => c.source = source

/-- The groups of these sources, in this order. -/
def ofSources (cs : List Connection) (sources : List NodeId) : TargetGroups :=
  sources.map fun source => (source, (group cs source).map Connection.target)

variable {cs : List Connection} {c : Connection} {source : NodeId} {sources : List NodeId}

theorem group_concat_self : group (cs ++ [c]) c.source = group cs c.source ++ [c] := by
  simp [group]

theorem group_concat_of_ne (h : c.source ≠ source) :
    group (cs ++ [c]) source = group cs source := by
  simp [group, h]

theorem group_eq_nil (h : source ∉ cs.map Connection.source) : group cs source = [] := by
  rw [group, List.filter_eq_nil_iff]
  intro c hc
  simpa using fun heq => h (List.mem_map.2 ⟨c, hc, heq⟩)

theorem ofSources_concat_of_notMem (h : c.source ∉ sources) :
    ofSources (cs ++ [c]) sources = ofSources cs sources := by
  refine List.map_congr_left fun source hsource => ?_
  rw [group_concat_of_ne fun heq => h (heq ▸ hsource)]

/-- One more connection goes to the group of its source, or opens a group of its own at the end. -/
theorem insert_ofSources (h : sources.Nodup) : insert c (ofSources cs sources) =
    if c.source ∈ sources then ofSources (cs ++ [c]) sources
    else ofSources cs sources ++ [(c.source, [c.target])] := by
  induction sources with
  | nil => rfl
  | cons source rest ih =>
    obtain ⟨hsource, hrest⟩ := List.nodup_cons.1 h
    have hcons (cs : List Connection) : ofSources cs (source :: rest) =
        (source, (group cs source).map Connection.target) :: ofSources cs rest := rfl
    rw [hcons, insert]
    by_cases heq : source = c.source
    · subst heq
      rw [if_pos rfl, if_pos List.mem_cons_self, hcons, ofSources_concat_of_notMem hsource,
        group_concat_self, List.map_append, List.map_singleton]
    · rw [if_neg heq, ih hrest, hcons, group_concat_of_ne (Ne.symm heq)]
      simp only [List.mem_cons, Ne.symm heq, false_or]
      split <;> rfl

/-- What the pass over the connections yields. -/
theorem ofConnections_eq (cs : List Connection) :
    ofConnections cs = ofSources cs (cs.map Connection.source).eraseDups := by
  induction cs using List.reverseRecOn with
  | nil => rfl
  | append_singleton cs c ih =>
    have hstep : ofConnections (cs ++ [c]) = insert c (ofConnections cs) := by
      rw [ofConnections, List.foldl_append]
      rfl
    rw [hstep, ih, insert_ofSources (List.nodup_eraseDups _), List.map_append, List.map_singleton,
      List.eraseDups_concat]
    simp only [List.mem_eraseDups]
    split <;> rename_i hmem
    · rfl
    · -- a new source has a group of its own, at the end
      have hnew : ofSources (cs ++ [c]) [c.source] = [(c.source, [c.target])] := by
        rw [ofSources, List.map_singleton, group_concat_self, group_eq_nil hmem]
        rfl
      rw [← hnew, ← ofSources_concat_of_notMem (c := c) (by simpa using hmem)]
      exact List.map_append.symm

end TargetGroups

/-! ## Lines -/

namespace GraphTrigger
variable {t : GraphTrigger}

/-- The sources of the connections, in the order in which they first appear. -/
def sources (t : GraphTrigger) : List NodeId := (t.connections.map Connection.source).eraseDups

def connectionsFrom (t : GraphTrigger) (source : NodeId) : List Connection :=
  TargetGroups.group t.connections source

/-- The lines of a block: for each source one line, and one for each of its connections. -/
def groupedLines (t : GraphTrigger) (node : NodeId → Node) : List String :=
  [t.header] ++
    (t.sources.flatMap fun source =>
      ("  " ++ (node source).line "input" "from") ::
        (t.connectionsFrom source).map fun c => "  " ++ (node c.target).line "output" "to") ++
    ["end"]

theorem node?_eq_some {n : Node} (h : t.ids.Nodup) (hn : n ∈ t.nodes) : t.node? n.id = some n := by
  cases hfind : t.node? n.id with
  | none => simpa using List.find?_eq_none.1 hfind n hn
  | some m =>
    have hid : m.id = n.id := by simpa using List.find?_some hfind
    rw [List.inj_on_of_nodup_map h (List.mem_of_find?_eq_some hfind) hn hid]

/-- The nodes as a function of their numbers. -/
theorem exists_node (h : t.ids.Nodup) : ∃ node : NodeId → Node, ∀ n ∈ t.nodes, node n.id = n := by
  refine ⟨fun id => (t.node? id).getD ⟨id, .ofLabel ""⟩, fun n hn => ?_⟩
  simp only [node?_eq_some h hn, Option.getD_some]

theorem node?_eq_some_node {node : NodeId → Node} (h : t.ids.Nodup)
    (hnode : ∀ n ∈ t.nodes, node n.id = n) {id : NodeId} (hid : id ∈ t.ids) :
    t.node? id = some (node id) := by
  obtain ⟨n, hn, rfl⟩ := List.mem_map.1 hid
  rw [node?_eq_some h hn, hnode n hn]

theorem mem_sources {id : NodeId} : id ∈ t.sources ↔ ∃ c ∈ t.connections, c.source = id := by
  rw [sources, List.mem_eraseDups, List.mem_map]

theorem mem_connectionsFrom {c : Connection} {id : NodeId} :
    c ∈ t.connectionsFrom id ↔ c ∈ t.connections ∧ c.source = id := by
  simp [connectionsFrom, TargetGroups.group]

/-- The lines of a group, if every look-up succeeds. -/
theorem groupLines_eq {node : NodeId → Node} {source : NodeId} {targets : List NodeId}
    (hs : t.node? source = some (node source))
    (ht : ∀ id ∈ targets, t.node? id = some (node id)) :
    t.groupLines source targets = ("  " ++ (node source).line "input" "from") ::
      targets.map fun id => "  " ++ (node id).line "output" "to" := by
  have hfound : targets.filterMap t.node? = targets.map node := by
    rw [← List.filterMap_eq_map]
    exact List.filterMap_congr fun id hid => ht id hid
  rw [groupLines, hs, hfound]
  simp [flatIndent]

/-- With distinct numbers and no loose ends, every number in a group stands for the one node that
has it. -/
theorem lines_eq_groupedLines {node : NodeId → Node} (h : t.ids.Nodup)
    (hends : ∀ c ∈ t.connections, c.source ∈ t.ids ∧ c.target ∈ t.ids)
    (hnode : ∀ n ∈ t.nodes, node n.id = n) : t.lines = t.groupedLines node := by
  rw [lines, groupedLines, TargetGroups.ofConnections_eq, TargetGroups.ofSources, List.flatMap_map]
  congr 2
  refine List.flatMap_congr fun source hsource => ?_
  obtain ⟨c, hc, rfl⟩ := mem_sources.1 hsource
  refine (groupLines_eq (node?_eq_some_node h hnode (hends c hc).1) fun id hid => ?_).trans ?_
  · obtain ⟨d, hd, rfl⟩ := List.mem_map.1 hid
    exact node?_eq_some_node h hnode (hends d (mem_connectionsFrom.1 hd).1).2
  · rw [List.map_map]
    rfl

/-! ## Counting -/

theorem nodup_sources : t.sources.Nodup := List.nodup_eraseDups _

/-- The groups have each connection once. -/
theorem connectionsFrom_sources_perm (h : t.connections.Nodup) :
    (t.sources.flatMap t.connectionsFrom).Perm t.connections := by
  refine (List.perm_ext_iff_of_nodup ?_ h).2 fun c => ?_
  · rw [List.nodup_flatMap]
    refine ⟨fun _ _ => h.filter _, nodup_sources.imp fun hne => ?_⟩
    intro c hc hc'
    exact hne ((mem_connectionsFrom.1 hc).2.symm.trans (mem_connectionsFrom.1 hc').2)
  · rw [List.mem_flatMap]
    constructor
    · rintro ⟨source, -, hc⟩
      exact (mem_connectionsFrom.1 hc).1
    · intro hc
      exact ⟨c.source, mem_sources.2 ⟨c, hc, rfl⟩, mem_connectionsFrom.2 ⟨hc, rfl⟩⟩

/-- A block has its two outer lines, one line for each source and one for each connection. -/
theorem length_groupedLines (node : NodeId → Node) (h : t.connections.Nodup) :
    (t.groupedLines node).length = 2 + t.sources.length + t.connections.length := by
  have hgroups (sources : List NodeId) : (sources.flatMap fun source =>
      ("  " ++ (node source).line "input" "from") ::
        (t.connectionsFrom source).map fun c => "  " ++ (node c.target).line "output" "to").length =
      sources.length + (sources.flatMap t.connectionsFrom).length := by
    induction sources with
    | nil => rfl
    | cons source rest ih =>
      simp only [List.flatMap_cons, List.length_append, List.length_cons, List.length_map, ih]
      omega
  have hperm := (connectionsFrom_sources_perm h).length_eq
  simp only [groupedLines, List.length_append, List.length_singleton, hgroups]
  omega

theorem block?_eq_none_iff : t.block? = none ↔ t.connections = [] := by
  simp [block?]

/-- A graph whose numbers name its nodes has a block exactly if it has connections. The block has
one line for each source, where that first appears, and below it one for each of its connections,
and so each connection has one line. -/
theorem block?_eq_grouped (hids : t.ids.Nodup) (hcs : t.connections.Nodup)
    (hends : ∀ c ∈ t.connections, c.source ∈ t.ids ∧ c.target ∈ t.ids) :
    (t.block? = none ↔ t.connections = []) ∧
      ∃ node : NodeId → Node, (∀ n ∈ t.nodes, node n.id = n) ∧
        (t.connections ≠ [] → t.block? = some ("\n".intercalate (t.groupedLines node))) ∧
        (t.groupedLines node).length = 2 + t.sources.length + t.connections.length ∧
        t.sources.Nodup ∧ (t.sources.flatMap t.connectionsFrom).Perm t.connections := by
  obtain ⟨node, hnode⟩ := exists_node hids
  refine ⟨block?_eq_none_iff, node, hnode, fun hne => ?_, length_groupedLines node hcs,
    nodup_sources, connectionsFrom_sources_perm hcs⟩
  rw [block?, if_neg (by simpa using hne), lines_eq_groupedLines hids hends hnode]

/-- The connections from the first node stand apart, and loops are no exception. -/
def interleaved : GraphTrigger :=
  ⟨"", .scheduled, 20, [⟨⟨7⟩, .ofLabel "a"⟩, ⟨⟨0⟩, .ofLabel "b"⟩, ⟨⟨3⟩, .ofLabel "c"⟩],
    [⟨⟨7⟩, ⟨0⟩⟩, ⟨⟨3⟩, ⟨3⟩⟩, ⟨⟨7⟩, ⟨3⟩⟩], ⟨8⟩⟩

theorem block?_interleaved :
    interleaved.sources = [⟨7⟩, ⟨3⟩] ∧
      ∃ node : NodeId → Node, (∀ n ∈ interleaved.nodes, node n.id = n) ∧
        interleaved.block? = some ("\n".intercalate (interleaved.groupedLines node)) ∧
        (interleaved.groupedLines node).length = 7 := by
  obtain ⟨-, node, hnode, hblock, hlength, -⟩ :=
    block?_eq_grouped (t := interleaved) (by decide) (by decide) (by decide)
  exact ⟨by decide, node, hnode, hblock (by decide), hlength⟩

end GraphTrigger
end FactoryScript
