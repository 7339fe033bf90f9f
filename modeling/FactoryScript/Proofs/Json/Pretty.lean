import FactoryScript.Proofs.Json.Compact

/-!
# Pretty text is read back

The pretty text of a plain value is its compact text with white space between the tokens. The
machine of `Json.scan` stays where it is on white space (`Progress.Skips`), except that white space
ends a number.
-/

namespace FactoryScript.Json

/-! ## The text of arrays and objects -/

/-- The lines after the first one of a container, up to the end of the container. -/
def followedLines (lines : List String) (ending : List Char) : List Char :=
  lines.flatMap (fun line => ',' :: '\n' :: line.toList) ++ '\n' :: ending

@[simp] theorem followedLines_nil (ending : List Char) :
    followedLines [] ending = '\n' :: ending := rfl

@[simp] theorem followedLines_cons (line : String) (lines : List String) (ending : List Char) :
    followedLines (line :: lines) ending =
      ',' :: '\n' :: (line.toList ++ followedLines lines ending) := by
  simp [followedLines]

/-- The characters of a bracketed block with at least one line: each line of it follows a line
break. -/
theorem toList_bracketed_cons {opening closing line : String} {lines : List String} {depth : Nat} :
    (bracketed opening closing depth (line :: lines)).toList =
      opening.toList ++ '\n' :: (line.toList ++
        followedLines lines ((margin depth).toList ++ closing.toList)) := by
  have hlines (line : String) (ending : List Char) :
      (",\n".intercalate (line :: lines)).toList ++ '\n' :: ending =
        line.toList ++ followedLines lines ending := by
    induction lines generalizing line with
    | nil => simp
    | cons next lines ih =>
      rw [String.intercalate_cons_cons, String.toList_append, List.append_assoc, ih]
      simp
  rw [← hlines]
  simp [bracketed]

namespace Progress
variable {frames : List Frame} {p : Progress}

/-! ## White space -/

/-- White space changes nothing. -/
def Skips (p : Progress) : Prop := ∀ c, isSpace c = true → p.step c = p

theorem Skips.foldl {cs : List Char} (hp : p.Skips) (hcs : ∀ c ∈ cs, isSpace c = true) :
    cs.foldl step p = p := by
  induction cs with
  | nil => rfl
  | cons c cs ih =>
    obtain ⟨hc, hcs⟩ := List.forall_mem_cons.1 hcs
    rw [List.foldl_cons, hp c hc, ih hcs]

theorem Skips.foldl_margin (hp : p.Skips) (depth : Nat) :
    (margin depth).toList.foldl step p = p := by
  refine hp.foldl fun c hc => ?_
  rw [margin, String.toList_ofList] at hc
  rw [List.eq_of_mem_replicate hc]
  rfl

theorem skips_value : Skips (.reading frames .value) := by
  intro c hc
  rw [step, if_pos hc]

theorem skips_firstItem : Skips (.reading frames .firstItem) := by
  intro c hc
  simp only [step, hc, if_true]

theorem skips_key : Skips (.reading frames .key) := by
  intro c hc
  rw [step, if_pos hc]

theorem skips_firstKey : Skips (.reading frames .firstKey) := by
  intro c hc
  simp only [step, hc, if_true]

theorem skips_emit (v : Json) : Skips (emit v frames) := by
  intro c hc
  rw [step_emit]
  cases frames with
  | nil => exact if_pos hc
  | cons frame outer => cases frame <;> exact if_pos hc

/-- The end of a line ends a value. -/
theorem Reads.step_newline {v : Json} (h : Reads frames v p) : p.step '\n' = emit v frames := by
  cases h with
  | whole => exact skips_emit v '\n' rfl
  | @number done phase hphase =>
    have hnext : phase.next? '\n' = none := by cases phase <;> rfl
    have hdigit : '\n'.isDigit = false := rfl
    have hspace : Progress.step (emit (numberValue done) frames) '\n' =
        emit (numberValue done) frames := skips_emit (numberValue done) '\n' rfl
    rw [step_emit] at hspace
    simp [Progress.step, hnext, hphase, hdigit, hspace]

/-! ## Arrays and objects -/

/-- A member up to the start of its value. -/
theorem foldl_memberStart {done : List (String × Json)} (depth : Nat) (key : String)
    (hspace : p.Skips) (hp : p.step '"' = .reading (.members done :: frames) (.text true .start)) :
    (margin depth ++ quote key ++ ": ").toList.foldl step p =
      .reading (.member done key :: frames) .value := by
  have htext : (margin depth ++ quote key ++ ": ").toList =
      (margin depth).toList ++ ((quote key ++ ":").toList ++ [' ']) := by
    simp
  rw [htext, List.foldl_append, hspace.foldl_margin, List.foldl_append, foldl_key key hp]
  exact skips_value ' ' rfl

mutual

/-- The pretty text of a plain value is read as this value, whatever containers are open. -/
theorem reads_pretty {v : Json} (h : v.Plain) (depth : Nat) {frames : List Frame} {p : Progress}
    (hp : Opens frames p) : Reads frames v ((prettyAt depth v).toList.foldl step p) := by
  cases v with
  | null | bool b | number numeral | string s => exact reads_compact h hp
  | array items =>
    cases items with
    | nil => exact reads_compact h hp
    | cons v rest =>
      have hopen : p.step '[' = .reading (.items [] :: frames) .firstItem := hp '[' rfl (by decide)
      have hv := reads_pretty h.1 (depth + 1) (@opens_firstItem (.items [] :: frames))
      have hrest := foldl_itemLines h.2 depth hv
      have hstart : ("[".toList ++ ['\n']).foldl step p =
          .reading (.items [] :: frames) .firstItem := by
        rw [List.foldl_append]
        exact (congrArg (step · '\n') hopen).trans (skips_firstItem '\n' rfl)
      rw [prettyAt, prettyItems, toList_bracketed_cons, List.append_cons, List.foldl_append,
        hstart, List.foldl_append, String.toList_append, List.foldl_append,
        skips_firstItem.foldl_margin, hrest]
      exact .whole (.array (v :: rest))
  | object members =>
    cases members with
    | nil => exact reads_compact h hp
    | cons m rest =>
      obtain ⟨key, v⟩ := m
      have hopen : p.step '\x7b' = .reading (.members [] :: frames) .firstKey :=
        hp '\x7b' rfl (by decide)
      have hv := reads_pretty h.1 (depth + 1) (@opens_value (.member [] key :: frames))
      have hrest := foldl_memberLines h.2 depth hv
      have hstart : (openBrace.toList ++ ['\n']).foldl step p =
          .reading (.members [] :: frames) .firstKey := by
        rw [List.foldl_append]
        exact (congrArg (step · '\n') hopen).trans (skips_firstKey '\n' rfl)
      rw [prettyAt, prettyMembers, toList_bracketed_cons, List.append_cons, List.foldl_append,
        hstart, List.foldl_append, String.toList_append, List.foldl_append,
        foldl_memberStart _ key skips_firstKey rfl, hrest]
      exact .whole (.object ((key, v) :: rest))
  | flaw f => exact h.elim

/-- The rest of an array after one of its items. -/
theorem foldl_itemLines {items : List Json} (h : PlainItems items) (depth : Nat)
    {done : List Json} {v : Json} {frames : List Frame} {p : Progress}
    (hp : Reads (.items done :: frames) v p) :
    (followedLines (prettyItems (depth + 1) items) ((margin depth).toList ++ "]".toList)).foldl
      step p = emit (.array ((v :: done).reverse ++ items)) frames := by
  cases items with
  | nil =>
    rw [prettyItems, followedLines_nil, List.foldl_cons, hp.step_newline, List.foldl_append,
      (skips_emit v).foldl_margin, List.append_nil]
    rfl
  | cons w rest =>
    have hcomma : p.step ',' = .reading (.items (v :: done) :: frames) .value := hp.step (.inl rfl)
    have hw := reads_pretty h.1 (depth + 1) (@opens_value (.items (v :: done) :: frames))
    have hrest := foldl_itemLines h.2 depth hw
    rw [List.reverse_cons, List.append_assoc, List.singleton_append] at hrest
    rw [prettyItems, followedLines_cons, List.foldl_cons, hcomma, List.foldl_cons,
      skips_value '\n' rfl, List.foldl_append, String.toList_append, List.foldl_append,
      skips_value.foldl_margin, hrest]

/-- The rest of an object after one of its members. -/
theorem foldl_memberLines {members : List (String × Json)} (h : PlainMembers members) (depth : Nat)
    {done : List (String × Json)} {key : String} {v : Json} {frames : List Frame} {p : Progress}
    (hp : Reads (.member done key :: frames) v p) :
    (followedLines (prettyMembers (depth + 1) members)
      ((margin depth).toList ++ closeBrace.toList)).foldl step p =
      emit (.object (((key, v) :: done).reverse ++ members)) frames := by
  cases members with
  | nil =>
    rw [prettyMembers, followedLines_nil, List.foldl_cons, hp.step_newline, List.foldl_append,
      (skips_emit v).foldl_margin, List.append_nil]
    rfl
  | cons m rest =>
    obtain ⟨key', w⟩ := m
    have hcomma : p.step ',' = .reading (.members ((key, v) :: done) :: frames) .key :=
      hp.step (.inl rfl)
    have hw :=
      reads_pretty h.1 (depth + 1) (@opens_value (.member ((key, v) :: done) key' :: frames))
    have hrest := foldl_memberLines h.2 depth hw
    rw [List.reverse_cons, List.append_assoc, List.singleton_append] at hrest
    rw [prettyMembers, followedLines_cons, List.foldl_cons, hcomma, List.foldl_cons,
      skips_key '\n' rfl, List.foldl_append, String.toList_append, List.foldl_append,
      foldl_memberStart _ key' skips_key rfl, hrest]

end

end Progress

/-- Writing a plain value in the pretty form and reading the text gives the value back. -/
theorem scan_pretty {v : Json} (h : v.Plain) : scan v.pretty = ⟨v, true⟩ :=
  (Progress.reads_pretty h 0 Progress.opens_value).finish

theorem Plain.ofText_pretty_eq {α : Type} {read : Reader α} {v : Json} (h : v.Plain) :
    read.ofText v.pretty = read v := by
  rw [Reader.ofText, scan_pretty h]
  cases read v <;> rfl

end FactoryScript.Json
