import FactoryScript.Proofs.Json.Numeral
import FactoryScript.Proofs.Json.Plain
import Mathlib.Tactic.IntervalCases

/-!
# Compact text is read back

The machine of `Json.scan` over the compact text of a plain value. Each part of the text is read
whatever containers are open around it, so the statements have the open containers as a variable. A
number is the one value whose text does not show where it ends: what follows it does
(`Progress.Reads`).
-/

namespace FactoryScript.Json

/-! ## The text of arrays and objects -/

/-- The text of the items or members that follow another one, up to the end of the container. -/
def followed (texts : List String) (closing : Char) : List Char :=
  texts.flatMap (fun t => ',' :: t.toList) ++ [closing]

@[simp] theorem followed_nil (closing : Char) : followed [] closing = [closing] := rfl

@[simp] theorem followed_cons (t : String) (texts : List String) (closing : Char) :
    followed (t :: texts) closing = ',' :: (t.toList ++ followed texts closing) := by
  simp [followed]

theorem toList_intercalate_append (t : String) (texts : List String) (closing : Char) :
    (",".intercalate (t :: texts)).toList ++ [closing] = t.toList ++ followed texts closing := by
  induction texts generalizing t with
  | nil => simp
  | cons u texts ih =>
    rw [String.intercalate_cons_cons, String.toList_append, List.append_assoc, ih]
    simp

theorem toList_compact_array_cons (v : Json) (rest : List Json) :
    (Json.array (v :: rest)).compact.toList =
      '[' :: (v.compact.toList ++ followed (compactItems rest) ']') := by
  rw [← toList_intercalate_append]
  simp [compact, compactItems]

theorem toList_compact_object_cons (key : String) (v : Json) (rest : List (String × Json)) :
    (Json.object ((key, v) :: rest)).compact.toList =
      '\x7b' :: ((quote key ++ ":" ++ v.compact).toList ++
        followed (compactMembers rest) '\x7d') := by
  rw [← toList_intercalate_append]
  simp [compact, compactMembers, openBrace, closeBrace]

/-! ## Strings -/

theorem hexValue?_hexDigit {n : Nat} (h : n < 16) : Quoted.hexValue? (hexDigit n) = some n := by
  revert n
  decide

namespace Progress
variable {frames : List Frame} {done : List Char} {isKey : Bool} {p : Progress}

/-- Inside a string, the reader takes the escaped form of a character back to that character. -/
theorem foldl_escapeChar (c : Char) :
    (escapeChar c).foldl step (.reading frames (.text isKey ⟨done, false, .none⟩)) =
      .reading frames (.text isKey ⟨c :: done, false, .none⟩) := by
  unfold escapeChar
  split_ifs with h1 h2 h3 h4 h5 h6 h7 h8
  case pos => subst h1; rfl
  case pos => subst h2; rfl
  case pos => subst h3; rfl
  case pos => subst h4; rfl
  case pos => subst h5; rfl
  case pos => subst h6; rfl
  case pos => subst h7; rfl
  -- any other control character is a code unit of four digits, of which the first two are 0
  case pos =>
    have hopening : ['\\', 'u', '0', '0'].foldl step
        (.reading frames (.text isKey ⟨done, false, .none⟩)) =
          .reading frames (.text isKey ⟨done, false, .unit 2 0 none⟩) := rfl
    have hhigh : Quoted.hexValue? (hexDigit (c.toNat / 16)) = some (c.toNat / 16) :=
      hexValue?_hexDigit (by omega)
    have hlow : Quoted.hexValue? (hexDigit (c.toNat % 16)) = some (c.toNat % 16) :=
      hexValue?_hexDigit (by omega)
    have hcode : 16 * (c.toNat / 16) + c.toNat % 16 = c.toNat := Nat.div_add_mod ..
    have hunit : Quoted.unit ⟨done, false, .unit 1 (c.toNat / 16) none⟩ c.toNat none =
        ⟨c :: done, false, .none⟩ := by
      have hnotHigh : Quoted.isHigh c.toNat = false := by simp [Quoted.isHigh]; omega
      have hnotLow : Quoted.isLow c.toNat = false := by simp [Quoted.isLow]; omega
      simp [Quoted.unit, hnotHigh, hnotLow, Quoted.push, Char.ofNat_toNat]
    have hsplit (d e : Char) : ['\\', 'u', '0', '0', d, e] = ['\\', 'u', '0', '0'] ++ [d, e] := rfl
    rw [hsplit, List.foldl_append, hopening]
    simp [step, Quoted.step, hhigh, hlow, hcode, hunit]
  case neg => simp [step, Quoted.step, Quoted.plain, Quoted.push, h1, h2, h8]

theorem foldl_escape (cs : List Char) :
    (cs.flatMap escapeChar).foldl step (.reading frames (.text isKey ⟨done, false, .none⟩)) =
      .reading frames (.text isKey ⟨cs.reverse ++ done, false, .none⟩) := by
  induction cs generalizing done with
  | nil => rfl
  | cons c cs ih => simp [foldl_escapeChar, ih]

/-- The text of a string after its opening quote. -/
theorem foldl_quoted (s : String) :
    (s.toList.flatMap escapeChar ++ ['"']).foldl step (.reading frames (.text isKey .start)) =
      if isKey then closeKey frames ⟨s.toList.reverse, false, .none⟩
      else emit (.string s) frames := by
  have hs : textValue ⟨s.toList.reverse, false, .none⟩ = .string s := by
    simp [textValue, Quoted.text]
  rw [List.foldl_append, Quoted.start, foldl_escape, List.append_nil, ← hs]
  rfl

/-! ## Values -/

/-- The machine takes a character that no array ends with as the start of a value. -/
def Opens (frames : List Frame) (p : Progress) : Prop :=
  ∀ c, isSpace c = false → c ≠ ']' → p.step c = openValue frames c

theorem opens_value : Opens frames (.reading frames .value) := by
  intro c hspace _
  rw [step, hspace]
  rfl

theorem opens_firstItem : Opens frames (.reading frames .firstItem) := by
  intro c hspace hc
  simp only [step, hspace, if_neg hc]
  rfl

/-- A value has been read inside containers. A number that is complete may still go on. -/
inductive Reads (frames : List Frame) : Json → Progress → Prop
  | whole (v : Json) : Reads frames v (emit v frames)
  | number {done : List Char} {phase : Numeral.Phase} (h : phase.complete = true) :
    Reads frames (numberValue done) (.reading frames (.number done phase))

theorem step_emit (v : Json) (c : Char) : step (emit v frames) c = settled (emit v frames) c := by
  cases frames with
  | nil => rfl
  | cons frame outer => cases frame <;> rfl

/-- What follows a value inside a container ends it. -/
theorem Reads.step {v : Json} (h : Reads frames v p) {c : Char}
    (hc : c = ',' ∨ c = ']' ∨ c = '\x7d') : p.step c = settled (emit v frames) c := by
  cases h with
  | whole => exact step_emit v c
  | @number done phase hphase =>
    have hnext : phase.next? c = none := by
      obtain rfl | rfl | rfl := hc <;> cases phase <;> rfl
    have hdigit : c.isDigit = false := by obtain rfl | rfl | rfl := hc <;> rfl
    simp [Progress.step, hnext, hphase, hdigit]

theorem Reads.finish {v : Json} (h : Reads [] v p) : p.finish = ⟨v, true⟩ := by
  cases h with
  | whole => rfl
  | number hphase =>
    rw [Progress.finish, hphase]
    rfl

/-- A word is told by its first character. -/
theorem reads_word {v : Json} {c : Char} {rest : List Char} (hp : Opens frames p)
    (hspace : isSpace c = false) (hc : c ≠ ']')
    (hopen : openValue frames c = .reading frames (.word rest v))
    (hrest : rest.foldl step (.reading frames (.word rest v)) = emit v frames) :
    Reads frames v ((c :: rest).foldl step p) := by
  rw [List.foldl_cons, hp c hspace hc, hopen, hrest]
  exact .whole v

theorem openValue_digitChar {m : Nat} (h : m < 10) :
    openValue frames m.digitChar =
      .reading frames (.number [m.digitChar] (if m = 0 then .zero else .whole)) := by
  interval_cases m <;> rfl

/-- Where a value may start, the decimal digits of a number are read as one number, and a leading
zero is the number zero. -/
theorem foldl_toDigits (hp : Opens frames p) (n : Nat) :
    (Nat.toDigits 10 n).foldl step p =
      .reading frames (.number (Nat.toDigits 10 n).reverse (if n = 0 then .zero else .whole)) := by
  induction n using Nat.base_induction 10 (by decide) with
  | single m hm =>
    have hopen : p.step m.digitChar = openValue frames m.digitChar := by
      refine hp _ ?_ ?_ <;> interval_cases m <;> decide
    rw [Nat.toDigits_of_lt_base hm, List.foldl_cons, hopen, openValue_digitChar hm]
    rfl
  | digit m k hk hm ih =>
    have hnext : Numeral.Phase.next? .whole k.digitChar = some .whole := by
      interval_cases k <;> rfl
    rw [← Nat.toDigits_append_toDigits (by decide) hm hk, List.foldl_append, ih,
      Nat.toDigits_of_lt_base hk, if_neg (by omega), if_neg (by omega)]
    simp [step, hnext]

/-- The digits of a count are read as that count, whichever character ends them. -/
theorem reads_count (hp : Opens frames p) (n : UInt32) :
    Reads frames (.number n.toNat.repr) (n.toNat.repr.toList.foldl step p) := by
  have hrange : Numeral.exceedsRange (Nat.toDigits 10 n.toNat) = false :=
    Numeral.exceedsRange_toDigits (Nat.lt_trans n.toNat_lt (by decide))
  have hvalue : numberValue (Nat.toDigits 10 n.toNat).reverse = .number n.toNat.repr := by
    simp [numberValue, hrange, Nat.repr_eq_ofList_toDigits]
  rw [Nat.toList_repr, foldl_toDigits hp, ← hvalue]
  refine .number ?_
  split <;> rfl

/-! ## Arrays and objects -/

theorem foldl_key {done : List (String × Json)} (key : String)
    (hp : p.step '"' = .reading (.members done :: frames) (.text true .start)) :
    (quote key ++ ":").toList.foldl step p = .reading (.member done key :: frames) .value := by
  rw [String.toList_append, List.foldl_append, quote, String.toList_ofList, List.foldl_cons, hp,
    foldl_quoted]
  simp [closeKey, Quoted.text, step, isSpace]

mutual

/-- The compact text of a plain value is read as this value, whatever containers are open. -/
theorem reads_compact {v : Json} (h : v.Plain) {frames : List Frame} {p : Progress}
    (hp : Opens frames p) : Reads frames v (v.compact.toList.foldl step p) := by
  cases v with
  | null => exact reads_word hp rfl (by decide) rfl rfl
  | bool b => cases b <;> exact reads_word hp rfl (by decide) rfl rfl
  | number numeral =>
    obtain ⟨n, rfl⟩ := h
    exact reads_count hp n
  | string s =>
    have hopen : p.step '"' = .reading frames (.text false .start) := hp '"' rfl (by decide)
    rw [compact, quote, String.toList_ofList, List.foldl_cons, hopen, foldl_quoted]
    exact .whole (.string s)
  | array items =>
    have hopen : p.step '[' = .reading (.items [] :: frames) .firstItem := hp '[' rfl (by decide)
    cases items with
    | nil =>
      have htext : (Json.array []).compact.toList = ['[', ']'] := rfl
      rw [htext, List.foldl_cons, hopen]
      exact .whole (.array [])
    | cons v rest =>
      have hv := reads_compact h.1 (@opens_firstItem (.items [] :: frames))
      have hrest := foldl_items h.2 hv
      rw [toList_compact_array_cons, List.foldl_cons, hopen, List.foldl_append, hrest]
      exact .whole (.array (v :: rest))
  | object members =>
    have hopen : p.step '\x7b' = .reading (.members [] :: frames) .firstKey :=
      hp '\x7b' rfl (by decide)
    cases members with
    | nil =>
      have htext : (Json.object []).compact.toList = ['\x7b', '\x7d'] := rfl
      rw [htext, List.foldl_cons, hopen]
      exact .whole (.object [])
    | cons m rest =>
      obtain ⟨key, v⟩ := m
      have hv := reads_compact h.1 (@opens_value (.member [] key :: frames))
      have hrest := foldl_members h.2 hv
      rw [toList_compact_object_cons, List.foldl_cons, hopen, List.foldl_append,
        String.toList_append, List.foldl_append, foldl_key key rfl, hrest]
      exact .whole (.object ((key, v) :: rest))
  | flaw f => exact h.elim

/-- The rest of an array after one of its items. -/
theorem foldl_items {items : List Json} (h : PlainItems items) {done : List Json} {v : Json}
    {frames : List Frame} {p : Progress} (hp : Reads (.items done :: frames) v p) :
    (followed (compactItems items) ']').foldl step p =
      emit (.array ((v :: done).reverse ++ items)) frames := by
  cases items with
  | nil =>
    rw [List.append_nil]
    exact hp.step (.inr (.inl rfl))
  | cons w rest =>
    have hcomma : p.step ',' = .reading (.items (v :: done) :: frames) .value := hp.step (.inl rfl)
    have hw := reads_compact h.1 (@opens_value (.items (v :: done) :: frames))
    have hrest := foldl_items h.2 hw
    rw [List.reverse_cons, List.append_assoc, List.singleton_append] at hrest
    rw [compactItems, followed_cons, List.foldl_cons, hcomma, List.foldl_append, hrest]

/-- The rest of an object after one of its members. -/
theorem foldl_members {members : List (String × Json)} (h : PlainMembers members)
    {done : List (String × Json)} {key : String} {v : Json} {frames : List Frame} {p : Progress}
    (hp : Reads (.member done key :: frames) v p) :
    (followed (compactMembers members) '\x7d').foldl step p =
      emit (.object (((key, v) :: done).reverse ++ members)) frames := by
  cases members with
  | nil =>
    rw [List.append_nil]
    exact hp.step (.inr (.inr rfl))
  | cons m rest =>
    obtain ⟨key', w⟩ := m
    have hcomma : p.step ',' = .reading (.members ((key, v) :: done) :: frames) .key :=
      hp.step (.inl rfl)
    have hw := reads_compact h.1 (@opens_value (.member ((key, v) :: done) key' :: frames))
    have hrest := foldl_members h.2 hw
    rw [List.reverse_cons, List.append_assoc, List.singleton_append] at hrest
    rw [compactMembers, followed_cons, List.foldl_cons, hcomma, List.foldl_append,
      String.toList_append, List.foldl_append, foldl_key key' rfl, hrest]

end

end Progress

/-- Writing a plain value and reading its text gives the value back, and nothing is left over. -/
theorem scan_compact {v : Json} (h : v.Plain) : scan v.compact = ⟨v, true⟩ :=
  (Progress.reads_compact h Progress.opens_value).finish

/-- Reading the text of a plain value is reading the value. -/
theorem Plain.ofText_eq {α : Type} {read : Reader α} {v : Json} (h : v.Plain) :
    read.ofText v.compact = read v := by
  rw [Reader.ofText, scan_compact h]
  cases read v <;> rfl

end FactoryScript.Json
