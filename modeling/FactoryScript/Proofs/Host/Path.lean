import FactoryScript.Host.Basic
import FactoryScript.Proofs.Text.Split
import Mathlib.Data.List.Basic
import Mathlib.Tactic.SplitIfs

/-!
# The pieces of paths

A path to a name in a directory has the pieces that lead to the directory and then the name, so two
names in one directory differ in their last pieces alone (`Path.pieces_join`). The parent of such a
path goes the same way, but for the pieces that lead nowhere (`Path.filter_pieces_parent`).
-/

namespace FactoryScript.Path
open Text

/-- The pieces between slashes are those of the library's `List.splitOn`. -/
theorem split_eq_splitOn (cs : List Char) : split cs = cs.splitOn '/' := by
  induction cs with
  | nil => rfl
  | cons c rest ih =>
    rw [split, ih, List.splitOn_cons_eq_if_modifyHead]
    by_cases hc : c = '/'
    · rw [if_pos hc, if_pos (beq_iff_eq.2 hc)]
    · rw [if_neg hc, if_neg fun heq => hc (beq_iff_eq.1 heq)]
      cases hsplit : rest.splitOn '/' with
      | nil => exact absurd hsplit (List.splitOn_ne_nil '/' rest)
      | cons piece pieces => rfl

theorem pieces_eq_splitAt (path : String) : pieces path = splitAt '/' path := by
  rw [pieces, splitAt, split_eq_splitOn]

/-- No piece of a path holds a slash. -/
theorem notMem_of_mem_split {cs piece : List Char} (h : piece ∈ split cs) : '/' ∉ piece := by
  induction cs generalizing piece with
  | nil =>
    rw [List.mem_singleton.1 h]
    exact List.not_mem_nil
  | cons c rest ih =>
    rw [split] at h
    split at h <;> rename_i hc
    · rcases List.mem_cons.1 h with rfl | h
      · exact List.not_mem_nil
      · exact ih h
    · cases hsplit : split rest with
      | nil =>
        rw [hsplit] at h
        rw [List.mem_singleton.1 h, List.mem_singleton]
        exact Ne.symm hc
      | cons first others =>
        rw [hsplit] at h ih
        rcases List.mem_cons.1 h with rfl | h
        · rw [List.mem_cons, not_or]
          exact ⟨Ne.symm hc, ih List.mem_cons_self⟩
        · exact ih (List.mem_cons_of_mem _ h)

theorem notMem_of_mem_pieces {path piece : String} (h : piece ∈ pieces path) :
    '/' ∉ piece.toList := by
  obtain ⟨cs, hcs, rfl⟩ := List.mem_map.1 h
  rw [String.toList_ofList]
  exact notMem_of_mem_split hcs

theorem pieces_ne_nil (path : String) : pieces path ≠ [] := by
  rw [pieces, split_eq_splitOn]
  exact fun h => List.splitOn_ne_nil '/' path.toList (List.map_eq_nil_iff.1 h)

/-- A path starts where any path starts that goes on from it. -/
theorem head?_pieces_of_prefix {part path : String} (h : pieces part <+: pieces path) :
    (pieces part).head? = (pieces path).head? := by
  obtain ⟨rest, hrest⟩ := h
  rw [← hrest, List.head?_append_of_ne_nil _ (pieces_ne_nil part)]

/-! ## Names in a directory -/

/-- The pieces that lead to what is in a directory. -/
def lead (dir : String) : List String :=
  if dir = "" then []
  else if dir.toList.getLast? = some '/' then (pieces dir).dropLast
  else pieces dir

/-- Joining a name to a directory adds one piece after those of the directory. -/
theorem pieces_join {name : String} (h : '/' ∉ name.toList) (dir : String) :
    pieces (join dir name) = lead dir ++ [name] := by
  have hslash : "/" = String.singleton '/' := rfl
  rw [join, lead]
  split_ifs with hempty hlast
  · rw [pieces_eq_splitAt, splitAt_of_notMem h, List.nil_append]
  · -- the slash at the end is not doubled
    obtain ⟨front, hfront⟩ := List.getLast?_eq_some_iff.1 hlast
    have hdir : dir = String.ofList front ++ String.singleton '/' ++ "" := by
      rw [← String.toList_inj, hfront]
      simp
    have hpieces : pieces dir = splitAt '/' (String.ofList front) ++ [""] := by
      rw [pieces_eq_splitAt, hdir, splitAt_append]
      rfl
    have hname : dir ++ name = String.ofList front ++ String.singleton '/' ++ name := by
      rw [hdir, String.append_empty]
    rw [hpieces, hname, List.dropLast_concat, pieces_eq_splitAt, splitAt_append,
      splitAt_of_notMem h]
  · rw [pieces_eq_splitAt, pieces_eq_splitAt, hslash, splitAt_append, splitAt_of_notMem h]

theorem join_append (dir name extension : String) :
    join dir name ++ extension = join dir (name ++ extension) := by
  rw [join, join]
  split_ifs
  · rfl
  · rw [String.append_assoc]
  · rw [String.append_assoc]

/-! ## Parents -/

theorem parent_eq_empty {path : String} (h : (pieces path).dropLast = []) : parent path = "" := by
  rw [parent, h]

/-- The idle pieces at the end make no difference to a list without idle pieces. -/
theorem filter_reverse_dropWhile_isIdle (pieces : List String) :
    (pieces.reverse.dropWhile isIdle).reverse.filter (!isIdle ·) =
      pieces.filter (!isIdle ·) := by
  have hreverse (l : List String) :
      (l.dropWhile isIdle).filter (!isIdle ·) = l.filter (!isIdle ·) := by
    induction l with
    | nil => rfl
    | cons piece l ih =>
      cases hpiece : isIdle piece with
      | true =>
        rw [List.dropWhile_cons_of_pos hpiece, ih, List.filter_cons_of_neg (by simp [hpiece])]
      | false => rw [List.dropWhile_cons_of_neg (by simp [hpiece])]
  rw [List.filter_reverse, hreverse, ← List.filter_reverse, List.reverse_reverse]

theorem pieces_intercalate {ps : List String} (hne : ps ≠ []) (h : ∀ p ∈ ps, '/' ∉ p.toList) :
    pieces ("/".intercalate ps) = ps := by
  have hslash : "/" = String.singleton '/' := rfl
  rw [pieces_eq_splitAt, hslash, splitAt_intercalate hne]
  have hparts : ps.flatMap (splitAt '/') = ps.flatMap fun p => [p] :=
    List.flatMap_congr fun p hp => splitAt_of_notMem (h p hp)
  rw [hparts, List.flatMap_singleton']

/-- The parent of a path starts where the path starts, and has the pieces that lead there. -/
theorem pieces_parent {path first : String} {rest : List String}
    (h : (pieces path).dropLast = first :: rest) :
    (parent path ≠ "" ∧ (pieces (parent path)).head? = some first) ∧
      (pieces (parent path)).filter (!isIdle ·) = (first :: rest).filter (!isIdle ·) := by
  have hnames : ∀ p ∈ first :: rest, '/' ∉ p.toList := by
    intro p hp
    rw [← h] at hp
    exact notMem_of_mem_pieces (List.dropLast_subset _ hp)
  have hrest := filter_reverse_dropWhile_isIdle rest
  rw [parent, h]
  dsimp only
  split <;> rename_i hroot
  · obtain ⟨rfl, hidle⟩ := hroot
    rw [hidle] at hrest
    refine ⟨⟨by decide, rfl⟩, ?_⟩
    rw [List.filter_cons_of_neg (by decide), ← hrest]
    rfl
  · have hpieces : pieces ("/".intercalate (first :: (rest.reverse.dropWhile isIdle).reverse)) =
        first :: (rest.reverse.dropWhile isIdle).reverse := by
      refine pieces_intercalate (List.cons_ne_nil _ _) fun p hp => hnames p ?_
      rcases List.mem_cons.1 hp with rfl | hp
      · exact List.mem_cons_self
      · have hmem := (List.dropWhile_sublist isIdle).subset (List.mem_reverse.1 hp)
        exact List.mem_cons_of_mem _ (List.mem_reverse.1 hmem)
    refine ⟨⟨fun hempty => ?_, by rw [hpieces]; rfl⟩, ?_⟩
    · rw [hempty] at hpieces
      obtain ⟨rfl, htail⟩ := List.cons.inj hpieces
      exact hroot ⟨rfl, htail.symm⟩
    · rw [hpieces, List.filter_cons, List.filter_cons, hrest]

end FactoryScript.Path
