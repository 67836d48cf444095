import TrialSummary.Proofs.Extraction.LineOrder
import TrialSummary.Proofs.Extraction.TimeLines

/-!
# Lines that are placed twice

Settings may put two forms on one line. No line has two forms of different kinds: a line of averages
has a bar, a line of a time starts with a word, and a line of a count has neither. Therefore two kinds
on one line are always noticed. If the file has that line, one of them is malformed there, and as the
lines are read in order, no line that is missing can be reported in its place.
-/

namespace TrialSummary

namespace LineForm

/-- The three kinds of forms, without the fields that they fill. -/
inductive Kind where
  | avgCount
  | time
  | count
  deriving DecidableEq

def kind : LineForm → Kind
  | .avgCount _ _ => .avgCount
  | .time _ => .time
  | .count _ => .count

variable {form form' : LineForm} {line : String} {vs vs' : List (Field × Value)} {a n f : Field}

/-- A line of averages has a bar, and what stands in front of the first one is a number. -/
theorem bar_of_parse? (h : (avgCount a n).parse? line = some vs) :
    ∃ p behind x, line.toList = p ++ '|' :: behind ∧ Binary64.read? (Text.trim p) = some x := by
  obtain ⟨p, q, rest, x, k, hsplit, hx, -, -⟩ := parse?_avgCount_eq_some_iff.mp h
  have hjoin : ['|'].intercalate (line.toList.splitOn '|') = line.toList :=
    List.intercalate_splitOn '|'
  rw [hsplit, List.intercalate_cons_cons, List.append_assoc] at hjoin
  exact ⟨p, _, x, hjoin.symm, hx⟩

theorem word_of_parse? (h : (time f).parse? line = some vs) : "Time: ".toList <+: line.toList := by
  obtain ⟨text, x, htext, -, -⟩ := parse?_time_eq_some_iff.mp h
  obtain ⟨rest, hline, -⟩ := timeText?_eq_some_iff.mp htext
  exact ⟨rest, hline.symm⟩

/-- A line of a count has nothing but the count and blanks. -/
theorem isIntegerChar_of_parse? (h : (count f).parse? line = some vs) {c : Char}
    (hc : c ∈ line.toList) (hblank : Text.isBlank c = false) : Text.IsIntegerChar c := by
  obtain ⟨k, hk, -⟩ := parse?_count_eq_some_iff.mp h
  exact Text.isIntegerChar_of_readInt64? hk c (Text.mem_trim hc hblank)

theorem not_avgCount_and_count (h : (avgCount a n).parse? line = some vs) :
    (count f).parse? line ≠ some vs' := by
  intro h'
  obtain ⟨p, behind, x, hline, -⟩ := bar_of_parse? h
  have hbar : '|' ∈ line.toList := by rw [hline]; simp
  exact absurd (isIntegerChar_of_parse? h' hbar (by decide)) (by decide)

theorem not_time_and_count {g : Field} (h : (time f).parse? line = some vs) :
    (count g).parse? line ≠ some vs' := by
  intro h'
  have hletter : 'm' ∈ line.toList := (word_of_parse? h).subset (by decide)
  exact absurd (isIntegerChar_of_parse? h' hletter (by decide)) (by decide)

/-- The word of a time has no bar, so it would have to stand in front of the first one, as a part of
the average. -/
theorem not_avgCount_and_time (h : (avgCount a n).parse? line = some vs) :
    (time f).parse? line ≠ some vs' := by
  intro h'
  obtain ⟨p, behind, x, hline, hx⟩ := bar_of_parse? h
  have hword := word_of_parse? h'
  have hp : p ++ ['|'] <+: line.toList := ⟨behind, by rw [hline]; simp⟩
  have hletter : 'm' ∈ p := by
    obtain hle | hle := List.prefix_or_prefix_of_prefix hword hp
    · have : 'm' ∈ p ++ ['|'] := hle.subset (by decide)
      simpa using this
    · have : '|' ∈ "Time: ".toList := hle.subset (by simp)
      exact absurd this (by decide)
  rw [read?_trim_eq_none hletter (by decide) (by decide)] at hx
  cases hx

theorem kind_eq_of_parse? (h : form.parse? line = some vs) (h' : form'.parse? line = some vs') :
    form.kind = form'.kind := by
  cases form with
  | avgCount a n =>
    cases form' with
    | avgCount a' n' => rfl
    | time f' => exact absurd h' (not_avgCount_and_time h)
    | count f' => exact absurd h' (not_avgCount_and_count h)
  | time f =>
    cases form' with
    | avgCount a' n' => exact absurd h (not_avgCount_and_time h')
    | time f' => rfl
    | count f' => exact absurd h' (not_time_and_count h)
  | count f =>
    cases form' with
    | avgCount a' n' => exact absurd h (not_avgCount_and_count h')
    | time f' => exact absurd h (not_time_and_count h')
    | count f' => rfl

end LineForm

namespace Schema

variable {file : TextFile} {required : List Field} {p q : Placement}

/-- Of two kinds on one line that is there, one is malformed. -/
theorem malformed_of_kind_ne (hkind : p.form.kind ≠ q.form.kind) (hoffset : p.offset = q.offset)
    (hlength : p.offset < file.lines.length) :
    p.rule.Malformed file ∨ q.rule.Malformed file := by
  obtain ⟨line, hline⟩ : ∃ line, file.lines[p.offset]? = some line :=
    ⟨_, List.getElem?_eq_getElem hlength⟩
  cases hp : p.form.parse? line with
  | none => exact .inl ⟨line, hline, hp⟩
  | some vs =>
    cases hq : q.form.parse? line with
    | none =>
      rw [hoffset] at hline
      exact .inr ⟨line, hline, hq⟩
    | some vs' => exact absurd (LineForm.kind_eq_of_parse? hp hq) hkind

/-- A malformed line is always noticed, at the latest when it is read. -/
theorem extract_of_malformed_line (s : Schema) (required : List Field) (r : Record)
    (hp : p ∈ s.placements) (hmalformed : p.rule.Malformed file) :
    ∃ first ∈ s.placements, first.offset ≤ p.offset ∧ ∃ line,
      file.lines[first.offset]? = some line ∧ first.form.parse? line = none ∧
      (s.extract file required r).error? =
        some (.malformed file.path first.offset first.form.expected line) := by
  have hordered : s.placements.Pairwise fun a b => a.offset ≤ b.offset :=
    s.ordered.imp of_decide_eq_true
  rw [extract_eq_fill_rules]
  obtain ⟨hsound, -⟩ | ⟨before, first, after, e, hsplit, hbefore, hreports, hfill⟩ :=
    Extraction.fill_rules Placement.rule s.placements file required r
  · exact absurd (.inl hmalformed) (hsound p hp)
  · have hmem : first ∈ s.placements := by rw [hsplit]; simp
    have hle : first.offset ≤ p.offset :=
      offset_le_of_faulty (hsplit ▸ hordered) hbefore (hsplit ▸ hp) (.inl hmalformed)
    rw [hfill]
    cases hreports with
    | malformed hline hparse => exact ⟨first, hmem, hle, _, hline, hparse, rfl⟩
    | missing hend _ =>
      -- the malformed line is there, and so are all lines in front of it
      obtain ⟨line, hline, -⟩ := hmalformed
      have hlt : p.offset < file.lines.length := (List.getElem?_eq_some_iff.mp hline).1
      have hend' : file.lines.length ≤ first.offset := hend
      omega

/-- No line can be read by forms of two kinds. So if settings put two kinds on one line, every file
that has this line is refused for a malformed line, which is this one or one in front of it, whatever
is required. -/
theorem extract_of_shared_line :
    (∀ form form' : LineForm, form.kind ≠ form'.kind → ∀ line : String,
      form.parse? line = none ∨ form'.parse? line = none) ∧
    ∀ l : PhaseLines, ∀ p ∈ placementsOf l, ∀ q ∈ placementsOf l, p.form.kind ≠ q.form.kind →
      p.offset = q.offset → ∀ file : TextFile, p.offset < file.lines.length →
      ∀ (required : List Field) (r : Record), ∃ first ∈ placementsOf l, first.offset ≤ p.offset ∧
        ∃ line, file.lines[first.offset]? = some line ∧
          ((ofPhaseLines l).extract file required r).error? =
            some (.malformed file.path first.offset first.form.expected line) := by
  constructor
  · intro form form' hkind line
    cases h : form.parse? line with
    | none => exact .inl rfl
    | some vs =>
      right
      rw [Option.eq_none_iff_forall_ne_some]
      exact fun vs' h' => hkind (LineForm.kind_eq_of_parse? h h')
  · intro l p hp q hq hkind hoffset file hlength required r
    obtain ⟨bad, hbad, hsame, hmalformed⟩ :
        ∃ bad ∈ placementsOf l, bad.offset = p.offset ∧ bad.rule.Malformed file := by
      obtain h | h := malformed_of_kind_ne hkind hoffset hlength
      · exact ⟨p, hp, rfl, h⟩
      · exact ⟨q, hq, hoffset.symm, h⟩
    obtain ⟨first, hfirst, hle, line, hline, -, herror⟩ := extract_of_malformed_line
      (ofPhaseLines l) required r (mem_placements_ofPhaseLines.mpr hbad) hmalformed
    exact ⟨first, mem_placements_ofPhaseLines.mp hfirst, hsame ▸ hle, line, hline, herror⟩

/-- The time of the first phase is placed on the line of its averages. The line holds averages, so the
time is malformed, although a line behind it is missing and required. -/
theorem extract_of_time_on_row :
    let l : PhaseLines := { time1 := 4 }
    let file : TextFile := ⟨"results/t-50-0", ["", "", "", "", "1.5 | 2"]⟩
    let r := Record.empty ⟨⟨.threshold, 50⟩, 0⟩
    (LineForm.time .time1).parse? "1.5 | 2" = none ∧
    ∃ first ∈ placementsOf l, first.offset ≤ 4 ∧ ∃ line, file.lines[first.offset]? = some line ∧
      ((ofPhaseLines l).extract file [.count3] r).error? =
        some (.malformed file.path first.offset first.form.expected line) := by
  intro l file r
  obtain ⟨hforms, hlines⟩ := extract_of_shared_line
  refine ⟨?_, ?_⟩
  · obtain h | h := hforms (.avgCount .avg1 .count1) (.time .time1) (by decide) "1.5 | 2"
    · exact absurd h (by decide +kernel)
    · exact h
  · exact hlines l ⟨4, .avgCount .avg1 .count1⟩ (by decide) ⟨4, .time .time1⟩ (by decide) (by decide)
      rfl file (by decide) [.count3] r

end Schema

end TrialSummary
