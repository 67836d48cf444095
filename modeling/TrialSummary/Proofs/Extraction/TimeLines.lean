import TrialSummary.Proofs.Decimal.Grammar
import TrialSummary.Proofs.Extraction.LineForm
import TrialSummary.Proofs.Text.LastOccurrence

/-!
# Lines of times

A line of a time starts with a word and has a unit further on, and the number stands between the word
and the last unit in front of any line feed. Behind that unit anything may follow. As no number has
the letters of the unit, a line with more than one unit is refused.
-/

namespace TrialSummary

namespace Text

theorem mem_trim {cs : List Char} {c : Char} (hc : c ∈ cs) (hblank : isBlank c = false) :
    c ∈ trim cs := by
  by_contra hnot
  exact (padded_trim cs).notMem hblank hnot hc

end Text

namespace LineForm

variable {cs text : List Char} {c : Char}

/-- A character that no number has is not taken away either, so there is no number. -/
theorem read?_trim_eq_none (hc : c ∈ cs) (hblank : Text.isBlank c = false)
    (hchar : ¬Binary64.IsMeasureChar c) : Binary64.read? (Text.trim cs) = none := by
  rw [Option.eq_none_iff_forall_ne_some]
  intro x hx
  exact hchar (Binary64.isMeasureChar_of_read? hx c (Text.mem_trim hc hblank))

/-- A line that starts with `Time: ` and has ` ms` in what follows on the same line; `text` stands
between the two, in front of the last ` ms`. -/
def IsTime (text cs : List Char) : Prop :=
  ∃ rest, cs = "Time: ".toList ++ rest ∧
    ∃ tail, Text.LastOccurrence " ms".toList text tail (Text.firstLine rest)

theorem timeText?_eq_some_iff : timeText? cs = some text ↔ IsTime text cs := by
  rw [timeText?, Option.bind_eq_some_iff]
  exact exists_congr fun rest => and_congr Text.after?_eq_some_iff Text.beforeLast?_eq_some_iff

/-- The number of a time line is what a group between the two words would hold. -/
theorem timeText?_eq_groupBetween? (cs : List Char) :
    timeText? cs = Text.groupBetween? "Time: ".toList " ms".toList cs :=
  (Text.groupBetween?_eq _ _ (by decide)).symm

/-- Anything may follow the unit, except for another unit on the same line. -/
theorem isTime_of_tail {tail : List Char} (htext : '\n' ∉ text)
    (htail : ¬" ms".toList <:+: Text.firstLine tail) :
    IsTime text ("Time: ".toList ++ (text ++ (" ms".toList ++ tail))) := by
  refine ⟨_, rfl, Text.firstLine tail, ?_⟩
  rw [Text.firstLine_append htext, Text.firstLine_append (by decide)]
  exact Text.lastOccurrence_append (by decide) htail text

/-- If there are two units, the first of them stands in front of the last one and is taken for a part
of the number. -/
theorem unit_mem_of_isTime {first between tail : List Char} (hfirst : '\n' ∉ first)
    (hbetween : '\n' ∉ between)
    (h : IsTime text ("Time: ".toList ++
      (first ++ (" ms".toList ++ (between ++ (" ms".toList ++ tail)))))) : 'm' ∈ text := by
  obtain ⟨rest, hrest, behind, hlast⟩ := h
  obtain rfl := List.append_cancel_left hrest
  obtain ⟨heq, hlongest⟩ := hlast
  rw [Text.firstLine_append hfirst, Text.firstLine_append (by decide),
    Text.firstLine_append hbetween, Text.firstLine_append (by decide)] at heq hlongest
  have hfront : first ++ (" ms".toList ++ between) <+: text := by
    refine List.prefix_of_prefix_length_le ?_ ⟨_, heq.symm⟩ (hlongest _ (Text.firstLine tail) ?_)
    · exact ⟨" ms".toList ++ Text.firstLine tail, by simp⟩
    · simp
  exact hfront.subset (by simp)

/-- A line of a time is accepted exactly if it starts with `Time: `, has ` ms` in what follows on the
same line, and has a number between the two, in front of the last ` ms`. This is what a group for any
characters but a line feed holds between the two words. So anything may follow the unit, except for
another unit; a line with two of them is refused. -/
theorem parse?_time_grammar (f : Field) (line : String) :
    (∀ vs, (time f).parse? line = some vs ↔ ∃ text x, IsTime text line.toList ∧
      Binary64.read? (Text.trim text) = some x ∧ vs = [(f, .measure x)]) ∧
    timeText? line.toList = Text.groupBetween? "Time: ".toList " ms".toList line.toList ∧
    (∀ text tail x, line.toList = "Time: ".toList ++ (text ++ (" ms".toList ++ tail)) →
      '\n' ∉ text → ¬" ms".toList <:+: Text.firstLine tail →
      Binary64.read? (Text.trim text) = some x → (time f).parse? line = some [(f, .measure x)]) ∧
    (∀ first between tail, line.toList = "Time: ".toList ++
        (first ++ (" ms".toList ++ (between ++ (" ms".toList ++ tail)))) →
      '\n' ∉ first → '\n' ∉ between → (time f).parse? line = none) := by
  have hgrammar : ∀ vs, (time f).parse? line = some vs ↔ ∃ text x, IsTime text line.toList ∧
      Binary64.read? (Text.trim text) = some x ∧ vs = [(f, .measure x)] := by
    intro vs
    rw [parse?_time_eq_some_iff]
    simp only [timeText?_eq_some_iff]
  refine ⟨hgrammar, timeText?_eq_groupBetween? _, ?_, ?_⟩
  · intro text tail x hline htext htail hread
    exact (hgrammar _).mpr ⟨text, x, hline ▸ isTime_of_tail htext htail, hread, rfl⟩
  · intro first between tail hline hfirst hbetween
    rw [Option.eq_none_iff_forall_ne_some]
    intro vs hvs
    obtain ⟨text, x, htime, hread, -⟩ := (hgrammar vs).mp hvs
    rw [hline] at htime
    have hunit := unit_mem_of_isTime hfirst hbetween htime
    rw [read?_trim_eq_none hunit (by decide) (by decide)] at hread
    cases hread

/-- What a database prints behind the unit does not matter, and a line feed ends the search for it. -/
theorem parse?_time_of_printed_lines :
    (time .time1).parse? "Time: 5 ms (00:05.000)" = some [(.time1, .measure (Binary64.ofNat 5))] ∧
    (time .time1).parse? "Time: 5 ms\n 6 ms" = some [(.time1, .measure (Binary64.ofNat 5))] ∧
    (time .time1).parse? "Time: 5 ms of 6 ms" = none := by
  have hfive : Binary64.read? (Text.trim ['5']) = some (Binary64.ofNat 5) := by decide +kernel
  obtain ⟨-, -, hremark, -⟩ := parse?_time_grammar .time1 "Time: 5 ms (00:05.000)"
  obtain ⟨-, -, hfeed, -⟩ := parse?_time_grammar .time1 "Time: 5 ms\n 6 ms"
  obtain ⟨-, -, -, htwo⟩ := parse?_time_grammar .time1 "Time: 5 ms of 6 ms"
  exact ⟨hremark ['5'] " (00:05.000)".toList _ (by decide) (by decide) (by decide) hfive,
    hfeed ['5'] "\n 6 ms".toList _ (by decide) (by decide) (by decide) hfive,
    htwo ['5'] " of 6".toList [] (by decide) (by decide) (by decide)⟩

end LineForm

end TrialSummary
