import FactoryScript.Proofs.Script.Tokens

/-!
# The line of a movement

The tokens of the line stand in a fixed order and most of them may be missing. They still tell the
movement, up to its normal form, if its texts are clean: a label is one token and not the flag
before it, a resource is one token and not one that can stand in its place, and the excepted
resources do not hold the word that ends them (`Transfer.line_unique`).
-/

namespace FactoryScript
open Text

/-! ## Clean movements -/

/-- A token that can only be read as a resource. -/
structure Resource.IsWord (token : String) : Prop where
  ne_empty : token ≠ ""
  space : ' ' ∉ token.toList
  numeral : ¬ Count.IsNumeral token
  reserved : token ∉ ["retain", "each", "except", "from", "to"]

namespace Transfer

def texts (t : Transfer) : List String :=
  t.resourceId :: t.label :: (t.except.toList ++ t.slots.toList)

/-- The texts of the movement can be told apart in its line. -/
structure Clean (t : Transfer) : Prop where
  oneLine : ∀ s ∈ t.texts, OneLine s
  label_ne_empty : t.label ≠ ""
  label_space : ' ' ∉ t.label.toList
  label_ne_each : t.label ≠ "each"
  resource : Resource.token t.kind t.resourceId = wildcard ∨
    Resource.IsWord (Resource.token t.kind t.resourceId)
  except : ∀ s ∈ present t.except, "from" ∉ splitAt ' ' s ∧ "to" ∉ splitAt ' ' s

/-! ## Tokens of a movement -/

/-- The token of the resource, unless it is the wildcard. -/
def resourceWord? (t : Transfer) : Option String :=
  if Resource.token t.kind t.resourceId = wildcard then none
  else some (Resource.token t.kind t.resourceId)

theorem Clean.isWord {t : Transfer} (ht : t.Clean) {w : String} (h : w ∈ t.resourceWord?) :
    Resource.IsWord w := by
  by_cases hw : Resource.token t.kind t.resourceId = wildcard
  · simp [resourceWord?, hw] at h
  · simp only [resourceWord?, hw, if_false, Option.mem_some] at h
    exact h ▸ ht.resource.resolve_left hw

theorem token_eq_of_resourceWord? {t t' : Transfer} (h : t.resourceWord? = t'.resourceWord?) :
    Resource.token t.kind t.resourceId = Resource.token t'.kind t'.resourceId := by
  unfold resourceWord? at h
  split at h <;> split at h <;> simp_all

/-- A text after a word that announces it. -/
def announced (word s : String) : List String := word :: splitAt ' ' s

/-- The tokens after the label. -/
def tokensAfterLabel (t : Transfer) : List String :=
  t.side.toList.flatMap (fun side => [side.keyword, "side"]) ++
    (present t.slots).toList.flatMap (announced "slots")

/-- The tokens after the resource. -/
def tokensAfterResource (t : Transfer) (direction : String) : List String :=
  (present t.except).toList.flatMap (announced "except") ++
    direction :: ((if t.each then ["each"] else []) ++ t.label :: t.tokensAfterLabel)

/-- The tokens of an amount that stays behind. -/
def retentionTokens (r : Retention) : List String :=
  "retain" :: Count.text r.count :: if r.each then ["each"] else []

/-- The tokens after the keyword. -/
def tokens (t : Transfer) (direction : String) : List String :=
  t.quantity.toList.flatMap (fun n => [Count.text n]) ++
    (t.retain.toList.flatMap retentionTokens ++
      (t.resourceWord?.toList ++ t.tokensAfterResource direction))

theorem splitAt_announced (word s : String) (h : ' ' ∉ word.toList) :
    splitAt ' ' (word ++ " " ++ s) = announced word s :=
  splitAt_append_of_notMem h s

/-- The tokens of an amount that stays behind. -/
theorem splitAt_words (r : Retention) : splitAt ' ' r.words = retentionTokens r := by
  have hcount : ' ' ∉ (Count.text r.count).toList := Count.notMem_text (by decide) _
  have hwords : r.words =
      "retain" ++ " " ++ if r.each then Count.text r.count ++ " " ++ "each"
        else Count.text r.count := by
    rw [← String.toList_inj, Retention.words]
    cases r.each <;> simp
  rw [hwords, splitAt_announced _ _ (by decide), announced, retentionTokens]
  cases r.each with
  | false => simp [splitAt_of_notMem hcount]
  | true =>
    rw [if_pos rfl, splitAt_announced _ _ hcount, announced, splitAt_of_notMem (by decide)]
    rfl

/-- The words of a movement, with each optional one as a list of at most one. -/
theorem words_eq (t : Transfer) (keyword direction : String) :
    t.words keyword direction =
      keyword :: ((t.quantity.map Count.text).toList ++ ((t.retain.map Retention.words).toList ++
        (t.resourceWord?.toList ++ (((present t.except).map ("except " ++ ·)).toList ++
          direction :: ((if t.each then ["each"] else []) ++
            t.label :: (t.side.toList.flatMap (fun side => [side.keyword, "side"]) ++
              ((present t.slots).map ("slots " ++ ·)).toList)))))) := by
  unfold words resourceWord?
  by_cases h : Resource.token t.kind t.resourceId = wildcard <;> cases t.side <;> simp [h]

/-- The tokens of the line of a clean movement, whose label and resource are one token each. -/
theorem splitAt_line {t : Transfer} (ht : t.Clean) {keyword direction : String}
    (hkeyword : ' ' ∉ keyword.toList) (hdirection : ' ' ∉ direction.toList) :
    splitAt ' ' (t.line keyword direction) = keyword :: t.tokens direction := by
  have hquantity := splitAt_optional t.quantity fun n _ =>
    splitAt_of_notMem (Count.notMem_text (c := ' ') (by decide) n)
  have hretain := splitAt_optional t.retain fun r _ => splitAt_words r
  have hresource : t.resourceWord?.toList.flatMap (splitAt ' ') = t.resourceWord?.toList := by
    have hword := splitAt_optional t.resourceWord? (g := id) fun w hw =>
      splitAt_of_notMem (ht.isWord hw).space
    simpa using hword
  have hexcept : ((present t.except).map ("except " ++ ·)).toList.flatMap (splitAt ' ') =
      (present t.except).toList.flatMap (announced "except") :=
    splitAt_optional _ fun s _ => splitAt_announced "except" s (by decide)
  have hslots : ((present t.slots).map ("slots " ++ ·)).toList.flatMap (splitAt ' ') =
      (present t.slots).toList.flatMap (announced "slots") :=
    splitAt_optional _ fun s _ => splitAt_announced "slots" s (by decide)
  have hside : (t.side.toList.flatMap fun side => [side.keyword, "side"]).flatMap (splitAt ' ') =
      t.side.toList.flatMap fun side => [side.keyword, "side"] := by
    cases t.side with
    | none => rfl
    | some side => cases side <;> rfl
  have heach : (if t.each then ["each"] else []).flatMap (splitAt ' ') =
      if t.each then ["each"] else [] := by
    cases t.each <;> rfl
  have hspace : " " = String.singleton ' ' := rfl
  rw [line, hspace, words_eq, splitAt_intercalate (List.cons_ne_nil _ _)]
  simp only [List.flatMap_append, List.flatMap_cons, hquantity, hretain, hresource, hexcept, heach,
    hside, hslots, splitAt_of_notMem hkeyword, splitAt_of_notMem hdirection,
    splitAt_of_notMem ht.label_space, List.cons_append, List.nil_append]
  rfl

/-! ## Reading a movement -/

theorem announced_injective {word s s' : String} (h : announced word s = announced word s') :
    s = s' :=
  splitAt_injective (List.cons.inj h).2

/-- After the label the side is told by its keyword, and the slots are what remains. -/
theorem tokensAfterLabel_unique {t t' : Transfer} (h : t.tokensAfterLabel = t'.tokensAfterLabel) :
    t.side = t'.side ∧ present t.slots = present t'.slots := by
  have hslots (t : Transfer) : NotFirst (fun w => ∃ side : Side, side.keyword = w)
      ((present t.slots).toList.flatMap (announced "slots")) := by
    refine .optional fun s _ => notFirst_cons.2 ?_
    rintro ⟨side, hside⟩
    cases side <;> exact absurd hside (by decide)
  obtain ⟨hside, hrest⟩ := optional_unique (fun side _ => ⟨_, _, rfl, side, rfl⟩) (hslots t)
    (hslots t') (fun side _ side' _ h => by
      obtain ⟨hkeyword, h⟩ := List.cons.inj h
      exact ⟨Named.name_injective hkeyword, (List.cons.inj h).2⟩) h
  exact ⟨hside, optional_last_unique (fun _ => List.cons_ne_nil _ _)
    (fun _ _ => announced_injective) hrest⟩

section
variable {t t' : Transfer} {direction : String}

theorem notFirst_tokensAfterResource {P : String → Prop} (hexcept : ¬ P "except")
    (hd : ¬ P direction) (t : Transfer) : NotFirst P (t.tokensAfterResource direction) :=
  .append (.optional fun _ _ => notFirst_cons.2 hexcept) (notFirst_cons.2 hd)

theorem Clean.notFirst_resource {P : String → Prop} (ht : t.Clean)
    (hw : ∀ w, Resource.IsWord w → ¬ P w) (hexcept : ¬ P "except") (hd : ¬ P direction) :
    NotFirst P (t.resourceWord?.toList ++ t.tokensAfterResource direction) := by
  refine .append ?_ (notFirst_tokensAfterResource hexcept hd t)
  cases h : t.resourceWord? with
  | none => exact notFirst_nil
  | some w => exact notFirst_cons.2 (hw w (ht.isWord h))

/-- The amount that stays behind, before a list that does not start with its flag. -/
theorem retention_unique {o o' : Option Retention} {r r' : List String}
    (hr : NotFirst (· = "retain") r) (hr' : NotFirst (· = "retain") r')
    (heach : NotFirst (· = "each") r) (heach' : NotFirst (· = "each") r')
    (h : o.toList.flatMap retentionTokens ++ r = o'.toList.flatMap retentionTokens ++ r') :
    o = o' ∧ r = r' := by
  refine optional_unique (P := (· = "retain")) (fun _ _ => ⟨_, _, rfl, rfl⟩) hr hr' ?_ h
  rintro ⟨count, each⟩ - ⟨count', each'⟩ - h
  obtain ⟨hcount, h⟩ := List.cons.inj (List.cons.inj h).2
  obtain ⟨hflag, hrest⟩ := flag_unique heach heach' h
  exact ⟨(Retention.mk.injEq ..).mpr ⟨Count.text_injective hcount, hflag⟩, hrest⟩

variable (hd : direction = "from" ∨ direction = "to")
include hd

theorem Clean.notMem_direction (ht : t.Clean) {s : String} (hs : s ∈ present t.except) :
    direction ∉ announced "except" s := by
  obtain ⟨hfrom, hto⟩ := ht.except s hs
  rcases hd with rfl | rfl
  · exact List.not_mem_cons_of_ne_of_not_mem (by decide) hfrom
  · exact List.not_mem_cons_of_ne_of_not_mem (by decide) hto

/-- After the resource an exception runs up to the direction, which no clean exception holds. -/
theorem tokensAfterResource_unique (ht : t.Clean) (ht' : t'.Clean)
    (h : t.tokensAfterResource direction = t'.tokensAfterResource direction) :
    present t.except = present t'.except ∧ t.each = t'.each ∧ t.label = t'.label ∧
      t.tokensAfterLabel = t'.tokensAfterLabel := by
  have hdirection (r : List String) : NotFirst (· = "except") (direction :: r) := by
    refine notFirst_cons.2 ?_
    rcases hd with rfl | rfl <;> decide
  -- the excepted resources can have any number of tokens, and end at the direction
  obtain ⟨hexcept, hrest⟩ := optional_unique (P := (· = "except")) (fun s _ => ⟨_, _, rfl, rfl⟩)
    (hdirection _) (hdirection _) (fun s hs s' hs' h => by
      obtain ⟨hs, hrest⟩ := until_unique (ht.notMem_direction hd hs) (ht'.notMem_direction hd hs') h
      exact ⟨announced_injective hs, congrArg _ hrest⟩) h
  obtain ⟨heach, hrest⟩ := flag_unique (notFirst_cons.2 ht.label_ne_each)
    (notFirst_cons.2 ht'.label_ne_each) (List.cons.inj hrest).2
  obtain ⟨hlabel, hrest⟩ := List.cons.inj hrest
  exact ⟨hexcept, heach, hlabel, hrest⟩

/-- The resource is one token or none; none of what may follow it looks like one. -/
theorem resource_unique (ht : t.Clean) (ht' : t'.Clean)
    (h : t.resourceWord?.toList ++ t.tokensAfterResource direction =
      t'.resourceWord?.toList ++ t'.tokensAfterResource direction) :
    Resource.token t.kind t.resourceId = Resource.token t'.kind t'.resourceId ∧
      t.tokensAfterResource direction = t'.tokensAfterResource direction := by
  have hreserved {w : String} (hw : Resource.IsWord w) : w ≠ "except" ∧ w ≠ direction := by
    have hmem := hw.reserved
    rcases hd with rfl | rfl <;> simp_all
  have hafter (t : Transfer) : NotFirst (fun w => w ≠ "except" ∧ w ≠ direction)
      (t.tokensAfterResource direction) :=
    notFirst_tokensAfterResource (fun h => h.1 rfl) (fun h => h.2 rfl) t
  obtain ⟨hword, hrest⟩ := optional_token_unique (fun w hw => hreserved
    (hw.elim ht.isWord ht'.isWord)) (hafter t) (hafter t') h
  exact ⟨token_eq_of_resourceWord? hword, hrest⟩

/-- The tokens of a clean movement are read from the left, part by part, and give it back up to its
normal form. -/
theorem tokens_unique (ht : t.Clean) (ht' : t'.Clean)
    (h : t.tokens direction = t'.tokens direction) : t.normal = t'.normal := by
  have hnumeral {t : Transfer} (ht : t.Clean) : NotFirst Count.IsNumeral
      (t.resourceWord?.toList ++ t.tokensAfterResource direction) :=
    ht.notFirst_resource (fun w hw => hw.numeral) (by decide)
      (by rcases hd with rfl | rfl <;> decide)
  have hword {w : String} (hmem : w ∈ ["retain", "each"]) {t : Transfer} (ht : t.Clean) :
      NotFirst (· = w) (t.resourceWord?.toList ++ t.tokensAfterResource direction) := by
    have hw : w = "retain" ∨ w = "each" := by simpa using hmem
    refine ht.notFirst_resource (fun v hv hvw => hv.reserved ?_) ?_ ?_
    · rcases hw with rfl | rfl <;> simp [hvw]
    · rcases hw with rfl | rfl <;> decide
    · rcases hw with rfl | rfl <;> rcases hd with rfl | rfl <;> decide
  have hretention (o : Option Retention) :
      NotFirst Count.IsNumeral (o.toList.flatMap retentionTokens) :=
    .optional fun _ _ => notFirst_cons.2 (by decide)
  obtain ⟨hquantity, h⟩ := Count.optional_text_unique ((hretention _).append (hnumeral ht))
    ((hretention _).append (hnumeral ht')) h
  obtain ⟨hretain, h⟩ := retention_unique (hword (by simp) ht) (hword (by simp) ht')
    (hword (by simp) ht) (hword (by simp) ht') h
  obtain ⟨hresource, h⟩ := resource_unique hd ht ht' h
  obtain ⟨hexcept, heach, hlabel, h⟩ := tokensAfterResource_unique hd ht ht' h
  obtain ⟨hside, hslots⟩ := tokensAfterLabel_unique h
  simp only [normal, hquantity, hretain, hresource, hexcept, heach, hlabel, hside, hslots]

theorem line_unique (ht : t.Clean) (ht' : t'.Clean) {keyword : String}
    (hkeyword : ' ' ∉ keyword.toList)
    (h : t.line keyword direction = t'.line keyword direction) : t.normal = t'.normal := by
  have hspace : ' ' ∉ direction.toList := by rcases hd with rfl | rfl <;> decide
  have htokens := congrArg (splitAt ' ') h
  rw [splitAt_line ht hkeyword hspace, splitAt_line ht' hkeyword hspace] at htokens
  exact tokens_unique hd ht ht' (List.cons.inj htokens).2

end

end Transfer
end FactoryScript
