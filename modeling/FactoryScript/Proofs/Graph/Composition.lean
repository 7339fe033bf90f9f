import FactoryScript.Proofs.Graph.Groups
import FactoryScript.Proofs.Text.Trim

/-!
# The script of a graph and its blocks

A graph is written trigger by trigger: its script is the blocks of the triggers that have
connections, with an empty line between them (`Graph.script_eq_intercalate`). Every block begins
with a header and ends with `end`, whatever the labels are, so trimming takes nothing from it, and
no blocks make up the text that stands for a graph without any. Two graphs that both have blocks
are thus written one after the other (`Graph.script_composes`).
-/

namespace FactoryScript
open Text

/-! ## Blocks -/

namespace GraphTrigger
variable {t : GraphTrigger} {block : String}

theorem exists_header_eq (t : GraphTrigger) : ∃ rest, t.header = "every " ++ rest := by
  unfold header
  cases t.kind with
  | scheduled => exact ⟨_, String.append_assoc ..⟩
  | redstonePulse => exact ⟨"redstone pulse do", rfl⟩

/-- Blocks begin with a word with which the placeholder does not. -/
theorem exists_block_eq (h : t.block? = some block) : ∃ rest, block = "every " ++ rest := by
  obtain ⟨rest, hrest⟩ := t.exists_header_eq
  unfold block? at h
  split at h
  · cases h
  · cases h
    rw [lines, hrest, List.append_assoc, List.singleton_append, String.intercalate_cons_append]
    exact ⟨_, rfl⟩

theorem endsSolid_of_block? (h : t.block? = some block) : EndsSolid block := by
  have hend : EndsSolid blockEnd := ⟨['e', 'n'], 'd', rfl, by decide⟩
  unfold block? at h
  split at h
  · cases h
  · cases h
    exact hend.intercalate "\n" _

end GraphTrigger

namespace Graph
variable {ts xs ys : List GraphTrigger}

/-- The blocks of a graph, in the order of its triggers. -/
def blocks (ts : List GraphTrigger) : List String := ts.filterMap GraphTrigger.block?

theorem blocks_append (xs ys : List GraphTrigger) : blocks (xs ++ ys) = blocks xs ++ blocks ys :=
  List.filterMap_append

theorem blocks_eq_nil_iff : blocks ts = [] ↔ ∀ t ∈ ts, t.connections = [] := by
  simp only [blocks, List.filterMap_eq_nil_iff, GraphTrigger.block?_eq_none_iff]

theorem blocks_ne_nil_iff : blocks ts ≠ [] ↔ ∃ t ∈ ts, t.connections ≠ [] := by
  simp only [ne_eq, blocks_eq_nil_iff, not_forall, exists_prop]

/-- The triggers with connections are the ones that have blocks. -/
theorem map_block?_filter (ts : List GraphTrigger) :
    (ts.filter fun t => t.connections ≠ []).map GraphTrigger.block? = (blocks ts).map some := by
  induction ts with
  | nil => rfl
  | cons t rest ih =>
    rw [blocks] at ih ⊢
    by_cases h : t.connections = []
    · rw [List.filter_cons_of_neg (by simpa using h),
        List.filterMap_cons_none (GraphTrigger.block?_eq_none_iff.2 h), ih]
    · obtain ⟨block, hblock⟩ :=
        Option.ne_none_iff_exists'.1 (mt GraphTrigger.block?_eq_none_iff.1 h)
      rw [List.filter_cons_of_pos (by simpa using h), List.filterMap_cons_some hblock,
        List.map_cons, hblock, ih, List.map_cons]

/-! ## Scripts -/

/-- No block loses anything to the trimming. -/
theorem script_eq_intercalate (h : blocks ts ≠ []) :
    script ts = "\n\n".intercalate (blocks ts) := by
  have hsolid : ∀ block ∈ blocks ts, EndsSolid block := by
    intro block hmem
    obtain ⟨t, -, ht⟩ := List.mem_filterMap.1 hmem
    exact GraphTrigger.endsSolid_of_block? ht
  have hempty : ¬ (blocks ts).isEmpty = true := by rwa [List.isEmpty_iff]
  rw [script, ← blocks, if_neg hempty]
  exact trimEnd_eq_self (endsSolid_intercalate _ h hsolid)

theorem script_of_blocks_eq_nil (h : blocks ts = []) : script ts = placeholder := by
  rw [script, ← blocks, h]
  rfl

/-- A script of blocks begins with the header of the first one. -/
theorem intercalate_blocks_ne_placeholder (h : blocks ts ≠ []) :
    "\n\n".intercalate (blocks ts) ≠ placeholder := by
  obtain ⟨block, rest, hblocks⟩ := List.exists_cons_of_ne_nil h
  have hmem : block ∈ blocks ts := hblocks ▸ List.mem_cons_self
  obtain ⟨t, -, ht⟩ := List.mem_filterMap.1 hmem
  obtain ⟨text, rfl⟩ := GraphTrigger.exists_block_eq ht
  rw [hblocks, String.intercalate_cons_append]
  intro heq
  have hhead := congrArg (·.toList.head?) heq
  rw [String.toList_append] at hhead
  exact absurd (Option.some.inj hhead) (by decide)

/-- A script with any block in it is no placeholder, since it begins otherwise. -/
theorem script_eq_placeholder_iff : script ts = placeholder ↔ ∀ t ∈ ts, t.connections = [] := by
  rw [← blocks_eq_nil_iff]
  constructor
  · intro h
    by_contra hne
    rw [script_eq_intercalate hne] at h
    exact intercalate_blocks_ne_placeholder hne h
  · exact script_of_blocks_eq_nil

theorem script_append (hxs : blocks xs ≠ []) (hys : blocks ys ≠ []) :
    script (xs ++ ys) = script xs ++ "\n\n" ++ script ys := by
  have happend : blocks (xs ++ ys) ≠ [] := by
    rw [blocks_append]
    exact List.append_ne_nil_of_left_ne_nil hxs _
  rw [script_eq_intercalate happend, script_eq_intercalate hxs, script_eq_intercalate hys,
    blocks_append, String.intercalate_append_of_ne_nil hxs hys]

/-- Graphs with the same blocks have the same script. -/
theorem script_eq_of_blocks_eq (h : blocks xs = blocks ys) : script xs = script ys := by
  rw [script, script, ← blocks, ← blocks, h]

theorem blocks_insert {t : GraphTrigger} (ht : t.connections = [])
    (before after : List GraphTrigger) :
    blocks (before ++ t :: after) = blocks (before ++ after) := by
  have hcons : blocks (t :: after) = blocks after :=
    List.filterMap_cons_none (GraphTrigger.block?_eq_none_iff.2 ht)
  rw [blocks_append, blocks_append, hcons]

/-- The script of a graph is put together from the blocks of its triggers. A placeholder stands for
a graph without connections, and for no other. Else the script is the blocks of the triggers with
connections, unchanged and in order, with an empty line between them. So graphs that have
connections are written one after the other, and a trigger without connections does not show. -/
theorem script_composes :
    (∀ ts, script ts = placeholder ↔ ∀ t ∈ ts, t.connections = []) ∧
    (∀ ts, (∃ t ∈ ts, t.connections ≠ []) → ∃ blocks : List String,
      (ts.filter fun t => t.connections ≠ []).map GraphTrigger.block? = blocks.map some ∧
      script ts = "\n\n".intercalate blocks) ∧
    (∀ xs ys, (∃ t ∈ xs, t.connections ≠ []) → (∃ t ∈ ys, t.connections ≠ []) →
      script (xs ++ ys) = script xs ++ "\n\n" ++ script ys) ∧
    ∀ before t after, t.connections = [] →
      script (before ++ t :: after) = script (before ++ after) := by
  refine ⟨fun ts => script_eq_placeholder_iff, fun ts h => ?_, fun xs ys hxs hys => ?_,
    fun before t after ht => ?_⟩
  · exact ⟨blocks ts, map_block?_filter ts, script_eq_intercalate (blocks_ne_nil_iff.2 h)⟩
  · exact script_append (blocks_ne_nil_iff.2 hxs) (blocks_ne_nil_iff.2 hys)
  · exact script_eq_of_blocks_eq (blocks_insert ht before after)

/-- A trigger that has nothing to connect stands before and between two others. -/
theorem script_composes_idle :
    let idle : GraphTrigger := .ofName "idle"
    let pair : GraphTrigger := .starter "pair"
    script [idle, pair, idle, pair] = script [pair] ++ "\n\n" ++ script [pair] ∧
      script [pair] = "every 20 ticks do\n  input from a\n  output to b\nend" ∧
      script [idle] = placeholder := by
  intro idle pair
  obtain ⟨hplaceholder, -, happend, hskip⟩ := script_composes
  have hpair : ∃ t ∈ [pair], t.connections ≠ [] := ⟨pair, List.mem_cons_self, by decide⟩
  have hidle : ∀ t ∈ [idle], t.connections = [] := List.forall_mem_singleton.2 rfl
  refine ⟨?_, by decide, (hplaceholder [idle]).2 hidle⟩
  have hfirst := hskip [] idle [pair, idle, pair] rfl
  have hsecond := hskip [pair] idle [pair] rfl
  exact (hfirst.trans hsecond).trans (happend [pair] [pair] hpair hpair)

end Graph
end FactoryScript
