import FactoryScript.Proofs.Command.Values
import Mathlib.Data.List.Dedup

/-!
# Editing the lists of common values

Adding puts a text at the end of one list unless it is there, and removing takes every copy of a
text out of one list; both trim the text that they are given. So lists that were empty at first hold
tidy texts, each of them once and in the order in which they have been added last
(`CommonValues.lists_stay_clean`). A list that has been loaded may hold anything, and a text in it
with white space at an end is never taken out (`CommonValues.remove_listed`).
-/

namespace List
variable {α : Type _} [DecidableEq α]

/-- `List.dedup` keeps the last one of equal items. -/
theorem dedup_concat (l : List α) (a : α) :
    (l ++ [a]).dedup = l.dedup.filter (· ≠ a) ++ [a] := by
  induction l with
  | nil => rfl
  | cons b l ih =>
    rw [cons_append]
    by_cases hba : b = a
    · have hdropped : (b :: l).dedup.filter (· ≠ a) = l.dedup.filter (· ≠ a) := by
        by_cases hb : b ∈ l
        · rw [dedup_cons_of_mem hb]
        · rw [dedup_cons_of_notMem hb, filter_cons_of_neg (by simpa using hba)]
      rw [dedup_cons_of_mem (by simp [hba]), ih, hdropped]
    · by_cases hb : b ∈ l
      · rw [dedup_cons_of_mem (mem_append_left _ hb), dedup_cons_of_mem hb, ih]
      · have hnew : b ∉ l ++ [a] := by simp [hb, hba]
        rw [dedup_cons_of_notMem hnew, dedup_cons_of_notMem hb, ih,
          filter_cons_of_pos (by simpa using hba), cons_append]

/-- A list in the order of the last occurrences in a record is so again after an item that it does
not have has been put at the end of both. -/
theorem Sublist.dedup_concat {l record : List α} {a : α} (h : l <+ record.dedup) (ha : a ∉ l) :
    l ++ [a] <+ (record ++ [a]).dedup := by
  have hl : l.filter (· ≠ a) = l :=
    filter_eq_self.2 fun b hb => by simpa using ne_of_mem_of_not_mem hb ha
  have hfilter := h.filter (· ≠ a)
  rw [hl] at hfilter
  rw [List.dedup_concat]
  exact hfilter.append_right [a]

end List

namespace FactoryScript.CommonValues
open scoped List

variable {v : CommonValues} {c d : ValueCategory} {x : String} {l m : List String}

/-! ## One list among others -/

theorem list_withList : (v.withList c l).list c = l := by
  cases c <;> rfl

theorem list_withList_of_ne (h : d ≠ c) : (v.withList c l).list d = v.list d := by
  cases c <;> cases d <;> first | rfl | exact absurd rfl h

theorem withList_withList : (v.withList c l).withList c m = v.withList c m := by
  cases c <;> rfl

/-! ## Adding and removing -/

theorem add_of_refused (h : Text.trim x = "" ∨ Text.trim x ∈ v.list c) :
    v.add c x = (false, v) := if_pos h

theorem add_of_new (h : ¬ (Text.trim x = "" ∨ Text.trim x ∈ v.list c)) :
    v.add c x = (true, v.withList c (v.list c ++ [Text.trim x])) := if_neg h

theorem list_add_of_new (h : ¬ (Text.trim x = "" ∨ Text.trim x ∈ v.list c)) :
    (v.add c x).2.list c = v.list c ++ [Text.trim x] := by
  rw [add_of_new h, list_withList]

theorem remove_eq_true_iff : (v.remove c x).1 = true ↔ Text.trim x ∈ v.list c :=
  List.contains_iff_mem

theorem list_remove : (v.remove c x).2.list c = (v.list c).filter (· != Text.trim x) :=
  list_withList

/-- An edit of one list: it says whether it changes anything, and no other list changes. -/
structure EditsList (c : ValueCategory) (edit : CommonValues → Bool × CommonValues) : Prop where
  changed_iff (v : CommonValues) : (edit v).1 = true ↔ (edit v).2 ≠ v
  others (v : CommonValues) {d : ValueCategory} (h : d ≠ c) : (edit v).2.list d = v.list d

/-- Adding edits one list, and says so exactly if the text is new and not blank. -/
theorem editsList_add (c : ValueCategory) (x : String) : EditsList c (·.add c x) where
  changed_iff v := by
    by_cases h : Text.trim x = "" ∨ Text.trim x ∈ v.list c
    · simp [add_of_refused h]
    · refine iff_of_true (by rw [add_of_new h]) fun heq => ?_
      have hlist := list_add_of_new h
      rw [heq] at hlist
      exact List.cons_ne_nil _ _ (List.self_eq_append_right.1 hlist)
  others v d hd := by
    by_cases h : Text.trim x = "" ∨ Text.trim x ∈ v.list c
    · rw [add_of_refused h]
    · rw [add_of_new h, list_withList_of_ne hd]

/-- Removing edits one list, and says so exactly if the text was listed. -/
theorem editsList_remove (c : ValueCategory) (x : String) : EditsList c (·.remove c x) where
  changed_iff v := by
    constructor
    · intro h heq
      have hlist := @list_remove v c x
      rw [heq, eq_comm, List.filter_eq_self] at hlist
      exact bne_iff_ne.1 (hlist _ (remove_eq_true_iff.1 h)) rfl
    · intro h
      by_contra hfalse
      exact h (@ValuesCommand.edit_eq_of_unchanged (.remove c x) v
        (Bool.eq_false_iff.2 hfalse))
  others _ _ := list_withList_of_ne

/-- A text that has just been added is removed without a trace. -/
theorem remove_add (h : (v.add c x).1 = true) : (v.add c x).2.remove c x = (true, v) := by
  have hnew : ¬ (Text.trim x = "" ∨ Text.trim x ∈ v.list c) := by
    intro hrefused
    rw [add_of_refused hrefused] at h
    cases h
  have hkept : (v.list c ++ [Text.trim x]).filter (· != Text.trim x) = v.list c := by
    have hne : ∀ y ∈ v.list c, (y != Text.trim x) = true := by
      rintro y hy
      exact bne_iff_ne.2 fun heq => hnew (.inr (heq ▸ hy))
    rw [List.filter_append, List.filter_eq_self.2 hne]
    simp
  rw [add_of_new hnew, remove, list_withList, hkept, withList_withList, withList_list]
  simp

/-! ## Runs of edits -/

/-- The lists after some commands. -/
def after (commands : List ValuesCommand) (v : CommonValues) : CommonValues :=
  commands.foldl (fun v command => (command.edit v).2) v

/-- What a command adds to a list, if it is not refused. -/
def added (c : ValueCategory) (command : ValuesCommand) (v : CommonValues) : List String :=
  match command with
  | .add d x => if d = c ∧ (v.add d x).1 = true then [Text.trim x] else []
  | _ => []

/-- All that commands have added to a list, in the order of time. -/
def additions (c : ValueCategory) : List ValuesCommand → CommonValues → List String
  | [], _ => []
  | command :: rest, v => added c command v ++ additions c rest (command.edit v).2

/-- A clean list, given what has been added to it: its texts are tidy and distinct, and they are in
the order of their latest additions. -/
structure Clean (l record : List String) : Prop where
  tidy : ∀ x ∈ l, Text.Tidy x
  nodup : l.Nodup
  order : l <+ record.dedup

variable {record : List String}

/-- A new text is trimmed when it is added, and it is the latest addition. -/
theorem Clean.add (h : Clean l record) (hblank : Text.trim x ≠ "") (hx : Text.trim x ∉ l) :
    Clean (l ++ [Text.trim x]) (record ++ [Text.trim x]) where
  tidy := by
    have hsolid : Text.blank x = false :=
      Bool.eq_false_iff.2 fun hx => hblank ((Text.blank_iff_trim_eq x).1 hx)
    exact List.forall_mem_append.2 ⟨h.tidy, by simpa using Text.tidy_trim hsolid⟩
  nodup := by
    rw [← List.concat_eq_append]
    exact h.nodup.concat hx
  order := h.order.dedup_concat hx

theorem Clean.sublist (h : Clean l record) (hm : m <+ l) : Clean m record where
  tidy x hx := h.tidy x (hm.subset hx)
  nodup := h.nodup.sublist hm
  order := hm.trans h.order

/-- Every command keeps every list clean. -/
theorem Clean.edit (h : Clean (v.list c) record) (command : ValuesCommand) :
    Clean ((command.edit v).2.list c) (record ++ added c command v) := by
  cases command with
  | list =>
    change Clean (v.list c) (record ++ [])
    rw [List.append_nil]
    exact h
  | add d x =>
    change Clean ((v.add d x).2.list c) (record ++ if d = c ∧ _ then _ else _)
    by_cases hrefused : Text.trim x = "" ∨ Text.trim x ∈ v.list d
    · rw [add_of_refused hrefused, if_neg (by simp), List.append_nil]
      exact h
    obtain ⟨hblank, hx⟩ := not_or.1 hrefused
    by_cases hd : d = c
    · subst hd
      rw [list_add_of_new hrefused, if_pos ⟨rfl, by rw [add_of_new hrefused]⟩]
      exact h.add hblank hx
    · rw [if_neg fun hadded => hd hadded.1, List.append_nil,
        (editsList_add d x).others v (Ne.symm hd)]
      exact h
  | remove d x =>
    change Clean ((v.remove d x).2.list c) (record ++ [])
    rw [List.append_nil]
    by_cases hd : d = c
    · subst hd
      rw [list_remove]
      exact h.sublist List.filter_sublist
    · rw [(editsList_remove d x).others v (Ne.symm hd)]
      exact h

/-- Commands in a row keep a list clean, by induction over them. -/
theorem Clean.after (commands : List ValuesCommand) (h : Clean (v.list c) record) :
    Clean ((after commands v).list c) (record ++ additions c commands v) := by
  induction commands generalizing v record with
  | nil =>
    rw [additions, List.append_nil]
    exact h
  | cons command rest ih =>
    rw [additions, ← List.append_assoc]
    exact ih (h.edit command)

/-- From empty lists, all commands keep every list clean. On any lists, also loaded ones, adding and
removing say whether they change anything and change the one list only; adding appends to it,
removing leaves the rest in its order, and what has just been added is removed without a trace. -/
theorem lists_stay_clean :
    (∀ commands c, Clean ((after commands empty).list c) (additions c commands empty)) ∧
      (∀ c x, EditsList c (·.add c x) ∧ EditsList c (·.remove c x)) ∧
      ∀ (v : CommonValues) c x, v.list c <+: (v.add c x).2.list c ∧
        (v.remove c x).2.list c <+ v.list c ∧
        ((v.add c x).1 = true → (v.add c x).2.remove c x = (true, v)) := by
  refine ⟨fun commands c => ?_, fun c x => ⟨editsList_add c x, editsList_remove c x⟩,
    fun v c x => ⟨?_, ?_, remove_add⟩⟩
  · have hempty : Clean (empty.list c) [] := by
      cases c <;> exact ⟨nofun, List.nodup_nil, List.Sublist.refl []⟩
    exact hempty.after commands
  · by_cases h : Text.trim x = "" ∨ Text.trim x ∈ v.list c
    · have hsame : (v.add c x).2.list c = v.list c := by rw [add_of_refused h]
      exact hsame ▸ List.prefix_rfl
    · rw [list_add_of_new h]
      exact List.prefix_append ..
  · rw [list_remove]
    exact List.filter_sublist

/-- Loaded lists with repetitions and blank texts are restored as well. -/
theorem lists_stay_clean_loaded :
    let v : CommonValues := ⟨["a", " a", "a"], ["", "iron", "iron"], [], [], []⟩
    (v.add .item " gold\n").1 = true ∧
      (v.add .item " gold\n").2.remove .item " gold\n" = (true, v) := by
  intro v
  have hadded : (v.add .item " gold\n").1 = true := by decide +kernel
  obtain ⟨-, -, hany⟩ := lists_stay_clean
  exact ⟨hadded, (hany v .item " gold\n").2.2 hadded⟩

/-- Added again after its removal, a text stands last. -/
example : (after [.add .item " iron", .add .item "gold", .remove .item "iron\t", .add .item "gold ",
    .add .item "iron"] empty).items = ["gold", "iron"] := by decide +kernel

/-! ## Listed texts -/

/-- Removing a text takes it out of a list, and nothing else. -/
structure TakesOut (v : CommonValues) (c : ValueCategory) (x : String) : Prop where
  answer : (v.remove c x).1 = true
  gone : x ∉ (v.remove c x).2.list c
  others {d : ValueCategory} (h : d ≠ c) : (v.remove c x).2.list d = v.list d
  kept : ∀ y ∈ v.list c, y ≠ x → y ∈ (v.remove c x).2.list c

theorem takesOut (h : x ∈ v.list c) (htrim : Text.trim x = x) : TakesOut v c x where
  answer := remove_eq_true_iff.2 (htrim.symm ▸ h)
  gone := by simp [list_remove, htrim]
  others := (editsList_remove c x).others v
  kept y hy hne := by simp [list_remove, htrim, hy, hne]

theorem remove_trim (v : CommonValues) (c : ValueCategory) (x : String) :
    v.remove c (Text.trim x) = v.remove c x := by
  simp only [remove, Text.trim_trim]

/-- A listed text can be removed if there is no white space at its ends. If there is, it stays, and
the trimmed text is removed in its place, should that be listed too. -/
theorem remove_listed (h : x ∈ v.list c) :
    (Text.trim x = x → TakesOut v c x) ∧
      (Text.trim x ≠ x → x ∈ (v.remove c x).2.list c ∧
        (Text.trim x ∉ v.list c → v.remove c x = (false, v)) ∧
        (Text.trim x ∈ v.list c →
          v.remove c x = v.remove c (Text.trim x) ∧ TakesOut v c (Text.trim x))) := by
  refine ⟨takesOut h, fun hpadded => ⟨?_, fun hmissing => ?_, fun hlisted => ?_⟩⟩
  · rw [list_remove, List.mem_filter]
    exact ⟨h, bne_iff_ne.2 (Ne.symm hpadded)⟩
  · have hfalse : (v.remove c x).1 = false :=
      Bool.eq_false_iff.2 (mt remove_eq_true_iff.1 hmissing)
    exact Prod.ext hfalse (@ValuesCommand.edit_eq_of_unchanged (.remove c x) v hfalse)
  · exact ⟨(remove_trim v c x).symm, takesOut hlisted (Text.trim_trim x)⟩

theorem remove_listed_twins :
    let v : CommonValues := ⟨["chest", "chest "], [], [], [], []⟩
    TakesOut v .label "chest" ∧ "chest " ∈ (v.remove .label "chest ").2.labels := by
  intro v
  have htrim : Text.trim "chest" = "chest" := by decide +kernel
  have hpadded : Text.trim "chest " ≠ "chest " := by decide +kernel
  have hchest : "chest" ∈ v.list .label := by decide
  have hspace : "chest " ∈ v.list .label := by decide
  exact ⟨(remove_listed hchest).1 htrim, ((remove_listed hspace).2 hpadded).1⟩

/-- A store may list a text that no removal takes out. -/
theorem remove_padded_refused :
    read.ofText "\x7b\"Labels\": [\" chest\"]\x7d" = .ok ⟨[" chest"], [], [], [], []⟩ ∧
      remove ⟨[" chest"], [], [], [], []⟩ .label " chest" =
        (false, ⟨[" chest"], [], [], [], []⟩) := by
  constructor
  · decide +kernel
  · decide +kernel

end FactoryScript.CommonValues
