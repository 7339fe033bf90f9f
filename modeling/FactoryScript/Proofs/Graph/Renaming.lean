import FactoryScript.Proofs.Graph.Document
import FactoryScript.Proofs.Graph.Groups

/-!
# The block of a graph under other numbers

The number of a node shows nowhere in a script: it is only used to look the node up. So a block
depends on the sequence of the connections and on the contents of the nodes they join, and on
nothing else of the trigger but its kind and its interval. The groups of renamed connections are the
renamed groups (`TargetGroups.ofConnections_rename`), provided that the renaming keeps apart the
numbers in use; that nodes have equal contents is no reason to join their groups.
-/

namespace FactoryScript

/-! ## Renaming -/

def Connection.rename (f : NodeId → NodeId) (c : Connection) : Connection :=
  ⟨f c.source, f c.target⟩

def Node.rename (f : NodeId → NodeId) (n : Node) : Node := { n with id := f n.id }

namespace TargetGroups

def rename (f : NodeId → NodeId) (groups : TargetGroups) : TargetGroups :=
  groups.map fun g => (f g.1, g.2.map f)

variable {f : NodeId → NodeId} {cs : List Connection}

theorem group_rename {source : NodeId} (hf : ∀ c ∈ cs, f c.source = f source → c.source = source) :
    group (cs.map (Connection.rename f)) (f source) =
      (group cs source).map (Connection.rename f) := by
  rw [group, group, List.filter_map]
  refine congrArg _ (List.filter_congr fun c hc => ?_)
  exact decide_eq_decide.2 ⟨hf c hc, congrArg f⟩

/-- New numbers that keep sources apart keep the groups apart. -/
theorem ofConnections_rename (hf : ∀ c ∈ cs, ∀ d ∈ cs, f c.source = f d.source →
    c.source = d.source) :
    ofConnections (cs.map (Connection.rename f)) = (ofConnections cs).rename f := by
  have hsources : (cs.map (Connection.rename f)).map Connection.source =
      (cs.map Connection.source).map f := by
    rw [List.map_map, List.map_map]
    rfl
  have hinj : ∀ i ∈ cs.map Connection.source, ∀ j ∈ cs.map Connection.source, f i = f j → i = j :=
    List.forall_mem_map.2 fun c hc => List.forall_mem_map.2 fun d hd => hf c hc d hd
  rw [ofConnections_eq, ofConnections_eq, hsources, List.eraseDups_map hinj, ofSources, ofSources,
    rename, List.map_map, List.map_map]
  refine List.map_congr_left fun source hsource => Prod.ext rfl ?_
  obtain ⟨d, hd, rfl⟩ := List.mem_map.1 (List.mem_eraseDups.1 hsource)
  change List.map Connection.target _ = List.map f _
  rw [group_rename fun c hc => hf c hc d hd, List.map_map, List.map_map]
  rfl

end TargetGroups

namespace GraphTrigger

variable {t u : GraphTrigger} {f : NodeId → NodeId}

theorem source_mem_ends {c : Connection} (hc : c ∈ t.connections) : c.source ∈ t.ends :=
  List.mem_flatMap.2 ⟨c, hc, List.mem_cons_self⟩

theorem target_mem_ends {c : Connection} (hc : c ∈ t.connections) : c.target ∈ t.ends :=
  List.mem_flatMap.2 ⟨c, hc, List.mem_cons_of_mem _ List.mem_cons_self⟩

/-! ## Blocks -/

/-- What a look-up contributes to a script. -/
def contents? (t : GraphTrigger) (id : NodeId) : Option Endpoint := (t.node? id).map Node.endpoint

theorem contents?_eq_some {n : Node} (h : t.ids.Nodup) (hn : n ∈ t.nodes) :
    t.contents? n.id = some n.endpoint := by
  rw [contents?, node?_eq_some h hn, Option.map_some]

/-- A line does not show the number of its node. -/
theorem map_line_eq_of_contents {i j : NodeId} (h : u.contents? j = t.contents? i)
    (keyword direction : String) : (u.node? j).map (fun n => n.line keyword direction) =
      (t.node? i).map fun n => n.line keyword direction := by
  have hline (o : Option Node) : o.map (fun n => n.line keyword direction) =
      (o.map Node.endpoint).map fun e => (Node.mk i e).line keyword direction := by
    cases o with
    | none => rfl
    | some n => simp only [Option.map_some, Node.line]
  rw [hline, hline]
  exact congrArg _ h

/-- The lines of a group depend on what the nodes hold, not on their numbers. -/
theorem groupLines_eq_of_contents {source : NodeId} {targets : List NodeId}
    (hs : u.contents? (f source) = t.contents? source)
    (ht : ∀ id ∈ targets, u.contents? (f id) = t.contents? id) :
    u.groupLines (f source) (targets.map f) = t.groupLines source targets := by
  have hgroup (v : GraphTrigger) (source : NodeId) (targets : List NodeId) :
      v.groupLines source targets =
        ((v.node? source).map fun n => n.line "input" "from").elim [] fun line =>
          (flatIndent ++ line) :: (targets.filterMap fun id =>
            (v.node? id).map fun n => n.line "output" "to").map (flatIndent ++ ·) := by
    rw [groupLines]
    cases v.node? source with
    | none => rfl
    | some n => simp only [Option.map_some, Option.elim_some, ← List.map_filterMap, List.map_map,
        Function.comp_def]
  rw [hgroup, hgroup, map_line_eq_of_contents hs, List.filterMap_map]
  have htargets : (targets.filterMap fun id => (u.node? (f id)).map fun n => n.line "output" "to") =
      targets.filterMap fun id => (t.node? id).map fun n => n.line "output" "to" :=
    List.filterMap_congr fun id hid => map_line_eq_of_contents (ht id hid) _ _
  exact congrArg (fun outputs => Option.elim _ [] fun line =>
    (flatIndent ++ line) :: outputs.map (flatIndent ++ ·)) htargets

/-- Two triggers have the same block if their connections look up the same contents. -/
theorem block?_eq_of_contents (hf : ∀ i ∈ t.ends, ∀ j ∈ t.ends, f i = f j → i = j)
    (hcs : u.connections = t.connections.map (Connection.rename f))
    (hcontents : ∀ i ∈ t.ends, u.contents? (f i) = t.contents? i)
    (hkind : u.kind = t.kind) (hinterval : u.tickInterval = t.tickInterval) :
    u.block? = t.block? := by
  have hheader : u.header = t.header := by rw [header, header, hkind, hinterval]
  have hgroups : TargetGroups.ofConnections u.connections =
      (TargetGroups.ofConnections t.connections).rename f := by
    rw [hcs]
    exact TargetGroups.ofConnections_rename fun c hc d hd =>
      hf _ (source_mem_ends hc) _ (source_mem_ends hd)
  have hlines : u.lines = t.lines := by
    rw [lines, lines, hheader, hgroups, TargetGroups.rename, List.flatMap_map]
    congr 2
    refine List.flatMap_congr fun g hg => ?_
    rw [TargetGroups.ofConnections_eq, TargetGroups.ofSources] at hg
    obtain ⟨source, hsource, rfl⟩ := List.mem_map.1 hg
    obtain ⟨c, hc, rfl⟩ := List.mem_map.1 (List.mem_eraseDups.1 hsource)
    refine groupLines_eq_of_contents (hcontents _ (source_mem_ends hc)) fun id hid => ?_
    obtain ⟨d, hd, rfl⟩ := List.mem_map.1 hid
    exact hcontents _ (target_mem_ends (List.mem_filter.1 hd).1)
  rw [block?, block?, hlines, hcs, List.isEmpty_map]

/-- The connections of the second trigger are those of the first one, in the same order and under
the numbers that `f` gives, and the nodes with these numbers have the old contents. -/
structure Renaming (f : NodeId → NodeId) (t u : GraphTrigger) : Prop where
  injective : ∀ i ∈ t.ends, ∀ j ∈ t.ends, f i = f j → i = j
  connections_eq : u.connections = t.connections.map (Connection.rename f)
  contents : ∀ n ∈ t.nodes, n.id ∈ t.ends → ∃ m ∈ u.nodes, m.id = f n.id ∧ m.endpoint = n.endpoint

theorem Renaming.block?_eq (h : Renaming f t u) (ht : t.ids.Nodup) (hu : u.ids.Nodup)
    (hends : ∀ i ∈ t.ends, i ∈ t.ids) (hkind : u.kind = t.kind)
    (hinterval : u.tickInterval = t.tickInterval) : u.block? = t.block? := by
  refine block?_eq_of_contents h.injective h.connections_eq (fun i hi => ?_) hkind hinterval
  obtain ⟨n, hn, rfl⟩ := List.mem_map.1 (hends i hi)
  obtain ⟨m, hm, hid, hcontents⟩ := h.contents n hn hi
  rw [← hid, contents?_eq_some hu hm, contents?_eq_some ht hn, hcontents]

/-- The connected nodes may stand among others and in another order. -/
theorem Renaming.of_nodes (hcs : u.connections = t.connections)
    (hnodes : ∀ n ∈ t.nodes, n.id ∈ t.ends → n ∈ u.nodes) : Renaming id t u where
  injective _ _ _ _ h := h
  connections_eq := hcs.trans (List.map_id _).symm
  contents n hn hid := ⟨n, hnodes n hn hid, rfl, rfl⟩

/-! ## Changes that keep the block -/

/-- The trigger with other numbers for its nodes and another counter. -/
def renumber (t : GraphTrigger) (f : NodeId → NodeId) (counter : NodeId) : GraphTrigger :=
  { t with
    nodes := t.nodes.map (Node.rename f)
    connections := t.connections.map (Connection.rename f)
    counter := counter }

/-- The block is the same under any other distinct numbers. -/
theorem block?_renumber (ht : t.ids.Nodup) (hends : ∀ i ∈ t.ends, i ∈ t.ids)
    (hf : ∀ i ∈ t.ids, ∀ j ∈ t.ids, f i = f j → i = j) (counter : NodeId) :
    (t.renumber f counter).block? = t.block? := by
  have hids : (t.renumber f counter).ids = t.ids.map f := by
    rw [ids, ids, renumber, List.map_map, List.map_map]
    rfl
  have hrenaming : Renaming f t (t.renumber f counter) :=
    ⟨fun i hi j hj => hf i (hends i hi) j (hends j hj), rfl,
      fun n hn _ => ⟨n.rename f, List.mem_map_of_mem hn, rfl, rfl⟩⟩
  refine hrenaming.block?_eq ht ?_ hends rfl rfl
  rw [hids]
  exact ht.map_on fun i hi j hj => hf i hi j hj

theorem block?_of_perm {nodes : List Node} (ht : t.ids.Nodup) (hends : ∀ i ∈ t.ends, i ∈ t.ids)
    (h : nodes.Perm t.nodes) : ({ t with nodes := nodes } : GraphTrigger).block? = t.block? := by
  have hrenaming : Renaming id t { t with nodes := nodes } :=
    .of_nodes rfl fun n hn _ => h.mem_iff.2 hn
  exact hrenaming.block?_eq ht ((h.map Node.id).nodup_iff.2 ht) hends rfl rfl

/-- More nodes make no difference, whatever their numbers are. -/
theorem block?_append_nodes {ns : List Node} (hends : ∀ i ∈ t.ends, i ∈ t.ids)
    (hnodes : u.nodes = t.nodes ++ ns) (hcs : u.connections = t.connections)
    (hkind : u.kind = t.kind) (hinterval : u.tickInterval = t.tickInterval) :
    u.block? = t.block? := by
  refine block?_eq_of_contents (f := id) (fun _ _ _ _ h => h) (hcs.trans (List.map_id _).symm)
    (fun i hi => ?_) hkind hinterval
  obtain ⟨n, hn⟩ := Option.isSome_iff_exists.1 (hasNode_eq_true_iff.2 (hends i hi))
  have hfound : u.node? i = some n := by
    rw [node?, hnodes, List.find?_append]
    exact Option.or_of_isSome (o := t.node? i) (hasNode_eq_true_iff.2 (hends i hi)) |>.trans hn
  rw [id_eq, contents?, contents?, hfound, hn]

/-- A node without connections has no line, so it may go. -/
theorem block?_removeNode {id : NodeId} {n : Node} (ht : t.ids.Nodup)
    (hends : ∀ i ∈ t.ends, i ∈ t.ids) (hid : id ∉ t.ends) (h : t.removeNode id = .ok (n, u)) :
    u.block? = t.block? := by
  rw [removeNode] at h
  split at h
  · cases h
    have hcs : t.connections.filter (fun c => !c.touches id) = t.connections := by
      refine List.filter_eq_self.2 fun c hc => ?_
      have hs : c.source ≠ id := fun heq => hid (heq ▸ source_mem_ends hc)
      have ht : c.target ≠ id := fun heq => hid (heq ▸ target_mem_ends hc)
      simp [Connection.touches, hs, ht]
    refine Renaming.block?_eq (.of_nodes hcs fun m hm hmid => ?_) ht
      (ht.sublist (List.eraseP_sublist.map _)) hends rfl rfl
    have hne : m.id ≠ id := fun heq => hid (heq ▸ hmid)
    exact (List.mem_eraseP_of_neg (by simpa using hne)).2 hm
  · cases h

/-- An interval of 0 shows only in the script of a schedule. -/
theorem block?_atLeastOne (h : t.kind = .scheduled → t.tickInterval ≠ 0) :
    t.atLeastOne.block? = t.block? := by
  have hheader : t.atLeastOne.header = t.header := by
    rw [header, header]
    cases hkind : t.kind with
    | redstonePulse => simp only [atLeastOne, hkind]
    | scheduled =>
      have hle : 1 ≤ t.tickInterval := by
        have hne := h hkind
        rw [ne_eq, ← UInt32.toNat_inj] at hne
        exact UInt32.le_iff_toNat_le.2 (Nat.pos_of_ne_zero hne)
      have hmax : max 1 t.tickInterval = t.tickInterval := if_pos hle
      simp only [atLeastOne, hkind, hmax]
  have hlines : t.atLeastOne.lines = t.lines := by
    rw [lines, hheader]
    rfl
  rw [block?, hlines]
  rfl

/-- The trigger without connections of a node to itself. -/
def withoutLoops (t : GraphTrigger) : GraphTrigger :=
  { t with connections := t.connections.filter fun c => c.source ≠ c.target }

theorem withoutLoops_eq (h : ∀ c ∈ t.connections, c.source ≠ c.target) : t.withoutLoops = t := by
  have hkept : t.connections.filter (fun c => c.source ≠ c.target) = t.connections :=
    List.filter_eq_self.2 fun c hc => by simpa using h c hc
  rw [withoutLoops, hkept]

/-- The trigger that comes back from a document has the script of the trigger that was written, but
for an interval of 0, which comes back as 1, and for loops, which do not come back. -/
theorem block?_restored (hcs : t.connections.Nodup) :
    t.restored.block? = t.withoutLoops.atLeastOne.block? := by
  have hproper : StoredTrigger.properConnections t.connections = t.withoutLoops.connections :=
    List.eraseDups_of_nodup (hcs.filter _)
  have hrestored : t.restored =
      { t.withoutLoops.atLeastOne with counter := StoredTrigger.counterAfter t.ids } := by
    rw [restored, StoredTrigger.trigger]
    exact congrArg (fun cs => GraphTrigger.mk _ _ _ _ cs _) hproper
  rw [hrestored]
  rfl

/-- Storing and loading drops loops and raises the interval to one, and changes nothing else of the
block. -/
theorem exists_ofText_block?_eq (hids : t.ids.Nodup) (hends : ∀ i ∈ t.ends, i ∈ t.ids)
    (hcs : t.connections.Nodup) :
    ∃ u, read.ofText t.toJson.compact = .ok u ∧
      u.block? = t.withoutLoops.atLeastOne.block? ∧
      ((∀ c ∈ t.connections, c.source ≠ c.target) → (t.kind = .scheduled → t.tickInterval ≠ 0) →
        u.block? = t.block?) := by
  refine ⟨_, ofText_eq hids hends, block?_restored hcs, fun hloops hinterval => ?_⟩
  rw [block?_restored hcs, withoutLoops_eq hloops, block?_atLeastOne hinterval]

/-- The block depends on the connections and on the contents of the nodes they join. So it stays
the same under other numbers, in another order of the nodes, under another name, with nodes more or
fewer that nothing is connected to, and in the trigger that comes back from the document. -/
theorem block?_depends_on_contents (ht : t.ids.Nodup) (hends : ∀ i ∈ t.ends, i ∈ t.ids) :
    (∀ f u, u.ids.Nodup → u.kind = t.kind → u.tickInterval = t.tickInterval → Renaming f t u →
      u.block? = t.block?) ∧
    (∀ f counter, (∀ i ∈ t.ids, ∀ j ∈ t.ids, f i = f j → i = j) →
      (t.renumber f counter).block? = t.block?) ∧
    (∀ nodes, nodes.Perm t.nodes → ({ t with nodes := nodes } : GraphTrigger).block? = t.block?) ∧
    (∀ name, ({ t with name := name } : GraphTrigger).block? = t.block?) ∧
    (∀ label, (t.addNode label).block? = t.block?) ∧
    (∀ n u, t.insertNode n = .ok u → u.block? = t.block?) ∧
    (∀ id n u, id ∉ t.ends → t.removeNode id = .ok (n, u) → u.block? = t.block?) ∧
    (t.connections.Nodup → ∃ u, read.ofText t.toJson.compact = .ok u ∧
      u.block? = t.withoutLoops.atLeastOne.block? ∧
      ((∀ c ∈ t.connections, c.source ≠ c.target) → (t.kind = .scheduled → t.tickInterval ≠ 0) →
        u.block? = t.block?)) := by
  refine ⟨fun f u hu hkind hinterval h => h.block?_eq ht hu hends hkind hinterval,
    fun f counter hf => block?_renumber ht hends hf counter,
    fun nodes h => block?_of_perm ht hends h, fun name => rfl,
    fun label => block?_append_nodes hends rfl rfl rfl rfl, fun n u h => ?_,
    fun id n u hid h => block?_removeNode ht hends hid h, exists_ofText_block?_eq ht hends⟩
  rw [insertNode] at h
  split at h
  · cases h
  · cases h
    exact block?_append_nodes hends rfl rfl rfl rfl

/-- Two sources with equal contents. -/
def twins : GraphTrigger :=
  ⟨"twins", .scheduled, 20, [⟨⟨3⟩, .ofLabel "a"⟩, ⟨⟨5⟩, .ofLabel "a"⟩, ⟨⟨4⟩, .ofLabel "b"⟩],
    [⟨⟨5⟩, ⟨4⟩⟩, ⟨⟨3⟩, ⟨4⟩⟩], ⟨6⟩⟩

/-- The groups of nodes with equal contents stay apart under other numbers. -/
theorem block?_twins :
    let renamed : GraphTrigger := ⟨"", .scheduled, 20, [⟨⟨1⟩, .ofLabel "b"⟩, ⟨⟨0⟩, .ofLabel "a"⟩,
      ⟨⟨9⟩, .ofLabel "c"⟩, ⟨⟨2⟩, .ofLabel "a"⟩], [⟨⟨0⟩, ⟨1⟩⟩, ⟨⟨2⟩, ⟨1⟩⟩], ⟨10⟩⟩
    renamed.block? = twins.block? ∧ twins.sources = [⟨5⟩, ⟨3⟩] ∧
      ∃ u, read.ofText twins.toJson.compact = .ok u ∧ u.block? = twins.block? := by
  intro renamed
  let f : NodeId → NodeId := fun id => if id = ⟨5⟩ then ⟨0⟩ else if id = ⟨4⟩ then ⟨1⟩ else ⟨2⟩
  have hrenaming : Renaming f twins renamed := ⟨by decide, by decide, by decide⟩
  have h := block?_depends_on_contents (t := twins) (by decide) (by decide)
  obtain ⟨hrename, -, -, -, -, -, -, hreload⟩ := h
  obtain ⟨u, hu, -, hblock⟩ := hreload (by decide)
  exact ⟨hrename f renamed (by decide) rfl rfl hrenaming, by decide, u, hu,
    hblock (by decide) fun _ => by decide⟩

/-- Neither an interval of 0 nor a loop survives the document. -/
theorem block?_reload_changes :
    let idle : GraphTrigger := { starter "g" with tickInterval := 0 }
    let loop : GraphTrigger := { starter "g" with connections := [⟨⟨0⟩, ⟨0⟩⟩] }
    (idle.WellFormed ∧ ∃ u, read.ofText idle.toJson.compact = .ok u ∧ u.block? ≠ idle.block?) ∧
      loop.ids.Nodup ∧ loop.connections.Nodup ∧ (∀ i ∈ loop.ends, i ∈ loop.ids) ∧
        ∃ u, read.ofText loop.toJson.compact = .ok u ∧ u.block? ≠ loop.block? := by
  intro idle loop
  have hidle : idle.WellFormed := ⟨by decide, by decide, by decide, by decide, by decide⟩
  have hloop : loop.ids.Nodup ∧ loop.connections.Nodup ∧ ∀ i ∈ loop.ends, i ∈ loop.ids :=
    ⟨by decide, by decide, by decide⟩
  refine ⟨⟨hidle, _, ofText_eq hidle.nodup_ids (by decide), by decide⟩,
    hloop.1, hloop.2.1, hloop.2.2, _, ofText_eq hloop.1 hloop.2.2, by decide⟩

end GraphTrigger
end FactoryScript
