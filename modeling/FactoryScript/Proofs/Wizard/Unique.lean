import FactoryScript.Proofs.Script.Newline
import FactoryScript.Wizard
import Mathlib.Data.List.Forall2
import Mathlib.Data.List.Nodup

/-!
# Layouts with the same script

A line of the wizard has the resource before the amount, and both may be missing. With clean rows
the line tells them apart, since an amount is a numeral and a resource is not
(`Endpoint.tokens_unique`), and the keywords of the lines tell where the sources end. So the script
of a layout tells its rows up to what a line does not show (`WizardLayout.script_eq_iff_alike`).
-/

namespace FactoryScript
open Text

/-! ## Rows -/

/-- A text of one token in one line. -/
structure Text.IsToken (s : String) : Prop where
  space : ' ' ∉ s.toList
  oneLine : OneLine s

instance (s : String) : Decidable (IsToken s) :=
  decidable_of_iff (' ' ∉ s.toList ∧ OneLine s) ⟨fun ⟨h, h'⟩ => ⟨h, h'⟩, fun ⟨h, h'⟩ => ⟨h, h'⟩⟩

theorem Count.IsNumeral.isToken {s : String} (h : IsNumeral s) : IsToken s := by
  have hdigit (c : Char) (hc : c.isDigit = false) : c ∉ s.toList := fun hmem => by
    rw [List.all_eq_true.1 h c hmem] at hc
    cases hc
  exact ⟨hdigit ' ' rfl, hdigit '\n' rfl⟩

theorem Count.IsNumeral.eq_empty_of_blank {s : String} (h : IsNumeral s) (hs : blank s = true) :
    s = "" := by
  by_contra hne
  obtain ⟨c, hc⟩ := List.exists_mem_of_ne_nil s.toList (by simpa using hne)
  have hblank := List.all_eq_true.1 hs c hc
  rw [isBlank_of_isDigit (List.all_eq_true.1 h c hc)] at hblank
  cases hblank

namespace Endpoint

/-- Rows that are written alike. -/
structure Alike (e e' : Endpoint) : Prop where
  resource : Resource.filter e.kind e.resourceId = Resource.filter e'.kind e'.resourceId
  quantity : trim e.quantity = trim e'.quantity
  label : e.label = e'.label
  side : e.side = e'.side

/-- The tokens of the row can be told apart in its line. -/
structure Clean (e : Endpoint) : Prop where
  label : IsToken e.label
  resource : ∀ w ∈ e.resourceWord?, IsToken w ∧ w ≠ "FROM" ∧ w ≠ "TO" ∧ ¬ Count.IsNumeral w
  quantity : trim e.quantity = "" ∨ Count.IsNumeral (trim e.quantity)

instance (e : Endpoint) : Decidable e.Clean :=
  decidable_of_iff (IsToken e.label ∧
      (∀ w ∈ e.resourceWord?, IsToken w ∧ w ≠ "FROM" ∧ w ≠ "TO" ∧ ¬ Count.IsNumeral w) ∧
      (trim e.quantity = "" ∨ Count.IsNumeral (trim e.quantity)))
    ⟨fun ⟨h, h', h''⟩ => ⟨h, h', h''⟩, fun ⟨h, h', h''⟩ => ⟨h, h', h''⟩⟩

variable {e e' : Endpoint} {keyword direction : String}

theorem Alike.wizardLine_eq (h : e.Alike e') (keyword direction : String) :
    e.wizardLine keyword direction = e'.wizardLine keyword direction := by
  have hresource : e.resourceWord? = e'.resourceWord? := h.resource
  have hquantity : e.quantityWord? = e'.quantityWord? := congrArg nonBlank? h.quantity
  simp only [wizardLine, hresource, hquantity, h.label, h.side]

/-! ## The tokens of a line -/

def sideTokens (side : Side) : List String := ["SIDE", side.keyword.toUpper]

/-- The name of a side stays one token in capitals. -/
theorem isToken_toUpper (side : Side) : IsToken side.keyword.toUpper := by
  have hupper : side.keyword.toUpper.toList = side.keyword.toList.map Char.toUpper :=
    String.toList_map
  constructor
  · rw [hupper]
    cases side <;> decide
  · rw [OneLine, hupper]
    cases side <;> decide

/-- The tokens after the keyword. -/
def tokens (e : Endpoint) (direction : String) : List String :=
  e.resourceWord?.toList ++ (e.quantityWord?.toList ++
    direction :: e.label :: e.side.side?.toList.flatMap sideTokens)

theorem wizardLine_eq (e : Endpoint) (keyword direction : String) :
    e.wizardLine keyword direction = " ".intercalate (keyword :: e.tokens direction) := by
  unfold wizardLine tokens SideFilter.keyword?
  cases e.side.side? <;> simp [sideTokens]

/-- A clean row writes its amount as a numeral. -/
theorem Clean.isNumeral (he : e.Clean) {w : String} (hw : w ∈ e.quantityWord?) :
    Count.IsNumeral w := by
  unfold quantityWord? nonBlank? at hw
  split at hw <;> rename_i hblank
  · cases hw
  · cases hw
    obtain h | h := he.quantity
    · rw [h] at hblank
      exact absurd rfl hblank
    · exact h

/-- The amount that is written is what is left of the typed one. -/
theorem Clean.trim_eq (he : e.Clean) : trim e.quantity = e.quantityWord?.getD "" := by
  unfold quantityWord? nonBlank?
  split <;> rename_i hblank
  · obtain h | h := he.quantity
    · exact h
    · exact h.eq_empty_of_blank hblank
  · rfl

/-- All words of a clean row are single tokens. -/
theorem Clean.isToken_of_mem (he : e.Clean) (hd : IsToken direction) :
    ∀ w ∈ e.tokens direction, IsToken w := by
  have hside : ∀ w ∈ e.side.side?.toList.flatMap sideTokens, IsToken w := by
    cases e.side.side? with
    | none => nofun
    | some side => simpa [sideTokens] using ⟨(by decide : IsToken "SIDE"), isToken_toUpper side⟩
  simp only [tokens, List.forall_mem_append, List.forall_mem_cons, Option.mem_toList]
  exact ⟨fun w hw => (he.resource w hw).1, fun w hw => (he.isNumeral hw).isToken, hd, he.label,
    hside⟩

theorem Clean.splitAt_wizardLine (he : e.Clean) (hk : IsToken keyword) (hd : IsToken direction) :
    splitAt ' ' (e.wizardLine keyword direction) = keyword :: e.tokens direction := by
  have htokens : ∀ w ∈ keyword :: e.tokens direction, splitAt ' ' w = [w] := fun w hw =>
    splitAt_of_notMem (List.forall_mem_cons.2 ⟨hk, he.isToken_of_mem hd⟩ w hw).space
  have hspace : " " = String.singleton ' ' := rfl
  rw [wizardLine_eq, hspace, splitAt_intercalate (List.cons_ne_nil _ _),
    List.flatMap_congr htokens, List.flatMap_singleton']

theorem Clean.oneLine_wizardLine (he : e.Clean) (hk : IsToken keyword) (hd : IsToken direction) :
    OneLine (e.wizardLine keyword direction) := by
  rw [wizardLine_eq]
  refine OneLine.intercalate (by decide) fun w hw => ?_
  exact (List.forall_mem_cons.2 ⟨hk, he.isToken_of_mem hd⟩ w hw).oneLine

/-! ## Reading a line -/

/-- Sides differ in capitals, too. -/
theorem sideTokens_injective {side side' : Side} (h : sideTokens side = sideTokens side') :
    side = side' := by
  have hnodup :
      ((Named.all : List Side).map fun side => side.keyword.toList.map Char.toUpper).Nodup := by
    decide
  have hupper := congrArg String.toList (List.cons.inj (List.cons.inj h).2).1
  rw [String.toUpper, String.toUpper, String.toList_map, String.toList_map] at hupper
  exact List.inj_on_of_nodup_map hnodup (Named.mem_all side) (Named.mem_all side') hupper

theorem side_eq_of_side? {s s' : SideFilter} (h : s.side? = s'.side?) : s = s' := by
  have hname : s.name = s'.name :=
    congrArg (fun side : Option Side => (side.map Side.keyword).getD "any") h
  exact Named.name_injective hname

/-- The tokens are read from the left: a resource is no numeral, an amount is one, and then comes
the direction. -/
theorem tokens_unique (hd : direction = "FROM" ∨ direction = "TO") (he : e.Clean)
    (he' : e'.Clean) (h : e.tokens direction = e'.tokens direction) : e.Alike e' := by
  have hresource {e : Endpoint} (he : e.Clean) (w) (hw : w ∈ e.resourceWord?) :
      ¬ Count.IsNumeral w ∧ w ≠ direction := by
    obtain ⟨-, hfrom, hto, hnumeral⟩ := he.resource w hw
    exact ⟨hnumeral, by rcases hd with rfl | rfl <;> assumption⟩
  have hafter {e : Endpoint} (he : e.Clean) (r : List String) :
      NotFirst (fun w => ¬ Count.IsNumeral w ∧ w ≠ direction)
        (e.quantityWord?.toList ++ direction :: r) := by
    refine .append ?_ (notFirst_cons.2 fun h => h.2 rfl)
    cases hq : e.quantityWord? with
    | none => exact notFirst_nil
    | some w => exact notFirst_cons.2 fun h => h.1 (he.isNumeral hq)
  have hnumeral (r : List String) : NotFirst Count.IsNumeral (direction :: r) :=
    notFirst_cons.2 (by rcases hd with rfl | rfl <;> decide)
  obtain ⟨hword, h⟩ := optional_token_unique
    (fun w hw => hw.elim (hresource he w) (hresource he' w)) (hafter he _) (hafter he' _) h
  obtain ⟨hquantity, h⟩ := optional_token_unique
    (fun w hw => hw.elim he.isNumeral he'.isNumeral) (hnumeral _) (hnumeral _) h
  obtain ⟨hlabel, h⟩ := List.cons.inj (List.cons.inj h).2
  have hside := optional_last_unique (fun _ => List.cons_ne_nil _ _)
    (fun _ _ => sideTokens_injective) h
  exact ⟨hword, by rw [he.trim_eq, he'.trim_eq, hquantity], hlabel, side_eq_of_side? hside⟩

theorem wizardLine_unique (hd : direction = "FROM" ∨ direction = "TO") (hk : IsToken keyword)
    (he : e.Clean) (he' : e'.Clean)
    (h : e.wizardLine keyword direction = e'.wizardLine keyword direction) : e.Alike e' := by
  have hdirection : IsToken direction := by rcases hd with rfl | rfl <;> decide
  have htokens := congrArg (splitAt ' ') h
  rw [he.splitAt_wizardLine hk hdirection, he'.splitAt_wizardLine hk hdirection] at htokens
  exact tokens_unique hd he he' (List.cons.inj htokens).2

end Endpoint

/-! ## Layouts -/

namespace WizardLayout

/-- Layouts that are written alike: as many rows, and in each place rows that are. -/
structure Alike (w w' : WizardLayout) : Prop where
  tickInterval : w.tickInterval = w'.tickInterval
  sources : List.Forall₂ Endpoint.Alike w.sources w'.sources
  targets : List.Forall₂ Endpoint.Alike w.targets w'.targets

structure Clean (w : WizardLayout) : Prop where
  sources : ∀ e ∈ w.sources, e.Clean
  targets : ∀ e ∈ w.targets, e.Clean

def row (keyword direction : String) (e : Endpoint) : String :=
  flatIndent ++ e.wizardLine keyword direction

variable {w w' : WizardLayout} {es es' : List Endpoint} {keyword direction : String}

theorem map_row_eq (h : List.Forall₂ Endpoint.Alike es es') (keyword direction : String) :
    es.map (row keyword direction) = es'.map (row keyword direction) := by
  induction h with
  | nil => rfl
  | cons he _ ih => rw [List.map_cons, List.map_cons, ih, row, row, he.wizardLine_eq]

theorem lines_eq (w : WizardLayout) :
    w.lines = ("EVERY " ++ Count.text w.tickInterval ++ " TICKS DO") ::
      (w.sources.map (row "INPUT" "FROM") ++ (w.targets.map (row "OUTPUT" "TO") ++ ["END"])) := by
  rw [lines, List.append_assoc, List.append_assoc]
  rfl

theorem Alike.script_eq (h : w.Alike w') : w.script = w'.script := by
  rw [script, script, lines_eq, lines_eq, h.tickInterval, map_row_eq h.sources,
    map_row_eq h.targets]

/-! ## Reading a script -/

/-- Rows are read one by one. -/
theorem forall₂_of_map_row (hd : direction = "FROM" ∨ direction = "TO") (hk : IsToken keyword)
    (hes : ∀ e ∈ es, e.Clean) (hes' : ∀ e ∈ es', e.Clean)
    (h : es.map (row keyword direction) = es'.map (row keyword direction)) :
    List.Forall₂ Endpoint.Alike es es' := by
  induction es generalizing es' with
  | nil =>
    cases es' with
    | nil => exact .nil
    | cons e' rest' => cases h
  | cons e rest ih =>
    cases es' with
    | nil => cases h
    | cons e' rest' =>
      obtain ⟨he, hrest⟩ := List.forall_mem_cons.1 hes
      obtain ⟨he', hrest'⟩ := List.forall_mem_cons.1 hes'
      obtain ⟨hline, h⟩ := List.cons.inj h
      exact .cons (Endpoint.wizardLine_unique hd hk he he' ((String.append_right_inj _).1 hline))
        (ih hrest hrest' h)

/-- A row starts with its keyword, which tells sources from targets. -/
theorem firstWord_row {e : Endpoint} (he : e.Clean) (hd : direction = "FROM" ∨ direction = "TO")
    (hk : IsToken keyword) (hne : keyword ≠ "") :
    firstWord (row keyword direction e) = some keyword := by
  have hdirection : IsToken direction := by rcases hd with rfl | rfl <;> decide
  have hindent : splitAt ' ' (row keyword direction e) =
      "" :: "" :: splitAt ' ' (e.wizardLine keyword direction) := by
    have hrow : row keyword direction e = "" ++ String.singleton ' ' ++
        ("" ++ String.singleton ' ' ++ e.wizardLine keyword direction) := by
      simp [row, flatIndent, ← String.toList_inj]
    rw [hrow, splitAt_append_of_notMem (by decide), splitAt_append_of_notMem (by decide)]
  rw [firstWord, hindent, he.splitAt_wizardLine hk hdirection]
  simp [hne]

/-- A layout without line breaks in its rows has one line for each row. -/
theorem oneLine_of_mem_lines (hsources : ∀ e ∈ w.sources, OneLine (e.wizardLine "INPUT" "FROM"))
    (htargets : ∀ e ∈ w.targets, OneLine (e.wizardLine "OUTPUT" "TO")) :
    ∀ l ∈ w.lines, OneLine l := by
  have hrows {keyword direction : String} {es : List Endpoint}
      (hes : ∀ e ∈ es, OneLine (e.wizardLine keyword direction)) :
      ∀ l ∈ es.map (row keyword direction), OneLine l :=
    List.forall_mem_map.2 fun e he => OneLine.append (by decide) (hes e he)
  have hheader : OneLine ("EVERY " ++ Count.text w.tickInterval ++ " TICKS DO") :=
    (OneLine.append (by decide) (oneLine_count _)).append (by decide)
  rw [lines_eq]
  simp only [List.forall_mem_cons, List.forall_mem_append]
  exact ⟨hheader, hrows hsources, hrows htargets, by decide, nofun⟩

theorem Clean.oneLine_of_mem_lines (hw : w.Clean) : ∀ l ∈ w.lines, OneLine l :=
  WizardLayout.oneLine_of_mem_lines
    (fun e he => (hw.sources e he).oneLine_wizardLine (by decide) (by decide))
    fun e he => (hw.targets e he).oneLine_wizardLine (by decide) (by decide)

/-- The lines give the interval, the sources up to the first `OUTPUT`, and the targets up to `END`.
-/
theorem lines_unique (hw : w.Clean) (hw' : w'.Clean) (h : w.lines = w'.lines) : w.Alike w' := by
  have hfrom : "FROM" = "FROM" ∨ "FROM" = "TO" := .inl rfl
  have hto : "TO" = "FROM" ∨ "TO" = "TO" := .inr rfl
  have hsource {w : WizardLayout} (hw : w.Clean) :
      ∀ l ∈ w.sources.map (row "INPUT" "FROM"), firstWord l = some "INPUT" :=
    List.forall_mem_map.2 fun e he => firstWord_row (hw.sources e he) hfrom (by decide) (by decide)
  have htarget {w : WizardLayout} (hw : w.Clean) :
      ∀ l ∈ w.targets.map (row "OUTPUT" "TO"), firstWord l = some "OUTPUT" :=
    List.forall_mem_map.2 fun e he => firstWord_row (hw.targets e he) hto (by decide) (by decide)
  have hend {keyword : String} (hne : firstWord "END" ≠ some keyword) :
      NotFirst (fun l => firstWord l = some keyword) ["END"] := notFirst_cons.2 hne
  have htargets {w : WizardLayout} (hw : w.Clean) :
      NotFirst (fun l => firstWord l = some "INPUT")
        (w.targets.map (row "OUTPUT" "TO") ++ ["END"]) := by
    refine .append (fun l hl hinput => ?_) (hend (by decide))
    have houtput := htarget hw l (List.mem_of_mem_head? hl)
    rw [houtput] at hinput
    exact absurd hinput (by decide)
  rw [lines_eq, lines_eq] at h
  obtain ⟨hheader, h⟩ := List.cons.inj h
  obtain ⟨hsources, h⟩ := run_unique (hsource hw) (hsource hw') (htargets hw) (htargets hw') h
  obtain ⟨htargets, -⟩ := run_unique (htarget hw) (htarget hw') (hend (by decide))
    (hend (by decide)) h
  have hinterval := Count.text_injective
    ((String.append_right_inj _).1 ((String.append_left_inj _).1 hheader))
  exact ⟨hinterval, forall₂_of_map_row hfrom (by decide) hw.sources hw'.sources hsources,
    forall₂_of_map_row hto (by decide) hw.targets hw'.targets htargets⟩

/-- The script of a layout with clean rows tells the interval and what its rows say, and layouts
that say the same have the same script. -/
theorem script_eq_iff_alike (w w' : WizardLayout) :
    (w.Clean → w'.Clean → (w.script = w'.script ↔ w.Alike w')) ∧
      (w.Alike w' → w.script = w'.script) := by
  refine ⟨fun hw hw' => ⟨fun h => ?_, Alike.script_eq⟩, Alike.script_eq⟩
  exact lines_unique hw hw'
    (join_injective '\n' hw.oneLine_of_mem_lines hw'.oneLine_of_mem_lines h)

/-- A fluid that is named by its marker, and an amount with white space around it. -/
def marked : WizardLayout :=
  ⟨20, [⟨"a", .top, .item, "fluid::water", "\t64 "⟩, .ofLabel ""], [.ofLabel "SIDE"]⟩

/-- The same with the fluid as a kind. -/
def unmarked : WizardLayout :=
  ⟨20, [⟨"a", .top, .fluid, "water", "64"⟩, ⟨"", .any, .item, " ", " "⟩], [.ofLabel "SIDE"]⟩

theorem script_eq_iff_alike_fluid :
    marked.Clean ∧ unmarked.Clean ∧ (marked.script = unmarked.script ↔ marked.Alike unmarked) ∧
      marked.Alike unmarked ∧ marked.script = unmarked.script := by
  have hmarked : marked.Clean := ⟨by decide, by decide⟩
  have hunmarked : unmarked.Clean := ⟨by decide, by decide⟩
  have halike : marked.Alike unmarked := by
    refine ⟨rfl, .cons ⟨by decide, by decide, rfl, rfl⟩ (.cons ⟨?_, ?_, rfl, rfl⟩ .nil),
      .cons ⟨rfl, rfl, rfl, rfl⟩ .nil⟩ <;> decide
  obtain ⟨hiff, hscript⟩ := script_eq_iff_alike marked unmarked
  exact ⟨hmarked, hunmarked, hiff hmarked hunmarked, halike, hscript halike⟩

end WizardLayout
end FactoryScript
