import FactoryScript.Proofs.Script.Tokens

/-!
# The first line of a block

The header of a schedule leaves out an interval of one, the flag of the shared clock and a delay of
zero. What is left tells the schedule up to its normal form, and none is the header of a pulse.
-/

namespace FactoryScript
open Text

namespace Schedule

/-- The interval, unless it is one. -/
def writtenInterval (s : Schedule) : Option UInt32 := if s.interval = 1 then none else s.interval

theorem interval_eq_of_writtenInterval {s s' : Schedule}
    (h : s.writtenInterval = s'.writtenInterval) : s.interval = s'.interval := by
  unfold writtenInterval at h
  split at h <;> split at h <;> simp_all

def delayTokens (n : UInt32) : List String := ["+", Count.text n]

/-- The tokens after the first. -/
def tokens (s : Schedule) : List String :=
  s.writtenInterval.toList.flatMap (fun n => [Count.text n]) ++
    ((if s.global then ["global"] else []) ++
      ((s.offset.filter fun n => 0 < n).toList.flatMap delayTokens ++ [s.unit.keyword, "do"]))

theorem header_eq (s : Schedule) :
    s.header = " ".intercalate ("every" :: ((s.writtenInterval.map Count.text).toList ++
      ((if s.global then ["global"] else []) ++
        (((s.offset.filter fun n => 0 < n).map fun n => "+ " ++ Count.text n).toList ++
          [s.unit.keyword, "do"])))) := by
  unfold header writtenInterval
  by_cases h : s.interval = 1 <;> simp [h]

/-- The tokens of the header of a schedule. -/
theorem splitAt_header (s : Schedule) : splitAt ' ' s.header = "every" :: s.tokens := by
  have hcount (n : UInt32) : ' ' ∉ (Count.text n).toList := Count.notMem_text (by decide) n
  have hinterval := splitAt_optional s.writtenInterval fun n _ => splitAt_of_notMem (hcount n)
  have hglobal : (if s.global then ["global"] else []).flatMap (splitAt ' ') =
      if s.global then ["global"] else [] := by
    cases s.global <;> rfl
  have hoffset : ((s.offset.filter fun n => 0 < n).map fun n => "+ " ++ Count.text n).toList.flatMap
      (splitAt ' ') = (s.offset.filter fun n => 0 < n).toList.flatMap delayTokens := by
    refine splitAt_optional _ fun n _ => ?_
    refine (splitAt_append_of_notMem (s := "+") (by decide) _).trans ?_
    rw [splitAt_of_notMem (hcount n), delayTokens]
  have hunit : splitAt ' ' s.unit.keyword = [s.unit.keyword] :=
    splitAt_of_notMem (by cases s.unit <;> decide)
  have hevery : splitAt ' ' "every" = ["every"] := splitAt_of_notMem (by decide)
  have hdo : splitAt ' ' "do" = ["do"] := splitAt_of_notMem (by decide)
  have hspace : " " = String.singleton ' ' := rfl
  rw [header_eq, hspace, splitAt_intercalate (List.cons_ne_nil _ _)]
  simp only [List.flatMap_append, List.flatMap_cons, List.flatMap_nil, hevery, hinterval, hglobal,
    hoffset, hunit, hdo]
  rfl

/-! ## Reading a header -/

section
variable {P : String → Prop} (s : Schedule)

theorem notFirst_unit (hticks : ¬ P "ticks") (hseconds : ¬ P "seconds") :
    NotFirst P [s.unit.keyword, "do"] := by
  refine notFirst_cons.2 ?_
  cases s.unit with
  | ticks => exact hticks
  | seconds => exact hseconds

theorem notFirst_delay (hplus : ¬ P "+") (hticks : ¬ P "ticks") (hseconds : ¬ P "seconds") :
    NotFirst P ((s.offset.filter fun n => 0 < n).toList.flatMap delayTokens ++
      [s.unit.keyword, "do"]) :=
  .append (.optional fun _ _ => notFirst_cons.2 hplus) (s.notFirst_unit hticks hseconds)

/-- What follows the interval starts with one of four keywords. -/
theorem notFirst_global (hglobal : ¬ P "global") (hplus : ¬ P "+") (hticks : ¬ P "ticks")
    (hseconds : ¬ P "seconds") :
    NotFirst P ((if s.global then ["global"] else []) ++
      ((s.offset.filter fun n => 0 < n).toList.flatMap delayTokens ++
        [s.unit.keyword, "do"])) := by
  refine .append ?_ (s.notFirst_delay hplus hticks hseconds)
  cases s.global with
  | false => exact notFirst_nil
  | true => exact notFirst_cons.2 hglobal

end

/-- The tokens are read from the left: the number, the optional parts in their order, and the unit.
-/
theorem tokens_unique {s s' : Schedule} (h : s.tokens = s'.tokens) : s.normal = s'.normal := by
  have hnumeral (s : Schedule) := s.notFirst_global (P := Count.IsNumeral) (by decide) (by decide)
    (by decide) (by decide)
  have hglobal (s : Schedule) := s.notFirst_delay (P := (· = "global")) (by decide) (by decide)
    (by decide)
  have hplus (s : Schedule) := s.notFirst_unit (P := (· = "+")) (by decide) (by decide)
  obtain ⟨hinterval, h⟩ := Count.optional_text_unique (hnumeral s) (hnumeral s') h
  obtain ⟨hglobal, h⟩ := flag_unique (hglobal s) (hglobal s') h
  obtain ⟨hoffset, h⟩ := optional_unique (P := (· = "+")) (fun _ _ => ⟨_, _, rfl, rfl⟩) (hplus s)
    (hplus s') (fun _ _ _ _ h => by
      obtain ⟨htext, hrest⟩ := List.cons.inj (List.cons.inj h).2
      exact ⟨Count.text_injective htext, hrest⟩) h
  have hunit : s.unit = s'.unit := Named.name_injective (List.cons.inj h).1
  simp only [normal, interval_eq_of_writtenInterval hinterval, hglobal, hoffset, hunit]

theorem notFirst_redstone (s : Schedule) : NotFirst (· = "redstone") s.tokens := by
  refine .append (.optional fun n _ => notFirst_cons.2 ?_)
    (s.notFirst_global (by decide) (by decide) (by decide) (by decide))
  intro h
  exact absurd (h ▸ Count.isNumeral_text n) (by decide)

end Schedule

namespace TriggerKind

theorem splitAt_header (k : TriggerKind) : ∃ ws, splitAt ' ' k.header = "every" :: ws := by
  cases k with
  | scheduled s => exact ⟨_, s.splitAt_header⟩
  | redstonePulse => exact ⟨["redstone", "pulse", "do"], by decide⟩

/-- The header tells what fires a trigger, up to its normal form. -/
theorem header_unique {k k' : TriggerKind} (h : k.header = k'.header) : k.normal = k'.normal := by
  have hpulse (s : Schedule) : s.header ≠ pulseHeader := by
    intro h
    have htokens := congrArg (splitAt ' ') h
    rw [s.splitAt_header] at htokens
    have hfirst := s.notFirst_redstone
    rw [(List.cons.inj htokens).2] at hfirst
    exact not_notFirst_self hfirst
  cases k with
  | redstonePulse =>
    cases k' with
    | redstonePulse => rfl
    | scheduled s' => exact absurd h.symm (hpulse s')
  | scheduled s =>
    cases k' with
    | redstonePulse => exact absurd h (hpulse s)
    | scheduled s' =>
      have htokens := congrArg (splitAt ' ') h
      rw [header, header, s.splitAt_header, s'.splitAt_header] at htokens
      exact congrArg scheduled (Schedule.tokens_unique (List.cons.inj htokens).2)

end TriggerKind
end FactoryScript
