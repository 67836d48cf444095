import TrialSummary.Proofs.Extraction.LoggedNumbers
import TrialSummary.Proofs.Extraction.Truncation

/-!
# What a log leaves in a record

The three fields of a log are taken in a fixed order, wherever their lines are. A field is at fault
if its line is there and says no number, or if the line is not there and the field is required. The
first field at fault ends the extraction and is reported, even if the line of another one stands in
front of it. The fields in front of it that have a line hold their counts then, and nothing else of
the record has changed.

What is stored, and which failure is reported, does not depend on the record to which it is added.
As a results file and a log have no field in common, they can be read in any order.
-/

namespace TrialSummary

namespace Extraction

variable {xs ys : List Reading}

theorem exists_fill_eq (xs : List Reading) :
    ∃ vs failure, (∀ r, fill r xs = ⟨r.setAll vs, failure⟩) ∧
      ∀ fv ∈ vs, ∃ values, .ok values ∈ xs ∧ fv ∈ values := by
  induction xs with
  | nil => exact ⟨[], none, fun _ => rfl, List.forall_mem_nil _⟩
  | cons x xs ih =>
    cases x with
    | error e => exact ⟨[], some e, fun _ => rfl, List.forall_mem_nil _⟩
    | ok values =>
      obtain ⟨vs, failure, hfill, hvs⟩ := ih
      refine ⟨values ++ vs, failure, fun r => ?_, fun fv hfv => ?_⟩
      · rw [fill_ok, hfill, Record.setAll_append]
      · obtain hfirst | hrest := List.mem_append.mp hfv
        · exact ⟨values, List.mem_cons_self, hfirst⟩
        · obtain ⟨ws, hws, hmem⟩ := hvs fv hrest
          exact ⟨ws, List.mem_cons_of_mem _ hws, hmem⟩

theorem error?_fill_eq (xs : List Reading) (r s : Record) :
    (fill r xs).error? = (fill s xs).error? := by
  obtain ⟨vs, failure, hfill, -⟩ := exists_fill_eq xs
  rw [hfill, hfill]

theorem trial_record_fill (xs : List Reading) (r : Record) :
    (fill r xs).record.trial = r.trial := by
  obtain ⟨vs, failure, hfill, -⟩ := exists_fill_eq xs
  rw [hfill]
  exact Record.trial_setAll r vs

/-- Fillings that have no field in common can be done in any order. -/
theorem record_fill_comm (r : Record)
    (h : ∀ vs, .ok vs ∈ xs → ∀ ws, .ok ws ∈ ys → ∀ f ∈ vs.map Prod.fst, f ∉ ws.map Prod.fst) :
    (fill (fill r xs).record ys).record = (fill (fill r ys).record xs).record := by
  obtain ⟨vs, failure, hxs, hvs⟩ := exists_fill_eq xs
  obtain ⟨ws, failure', hys, hws⟩ := exists_fill_eq ys
  rw [hxs r, hys r, hxs, hys]
  apply Record.setAll_comm
  intro f hf hf'
  obtain ⟨fv, hfv, rfl⟩ := List.mem_map.mp hf
  obtain ⟨fw, hfw, hsame⟩ := List.mem_map.mp hf'
  obtain ⟨values, hvalues, hmem⟩ := hvs fv hfv
  obtain ⟨values', hvalues', hmem'⟩ := hws fw hfw
  exact h values hvalues values' hvalues' fv.1 (List.mem_map_of_mem hmem)
    (hsame ▸ List.mem_map_of_mem hmem')

end Extraction

namespace PageCounter

/-- Why a log cannot be used for a field. -/
inductive Fault (c : PageCounter) (file : TextFile) (required : List Field) (f : Field) :
    FormatError → Prop where
  | malformed {offset : Nat} {line : String} (hoffset : c.offsets.offset? f = some offset)
      (hline : file.lines[offset]? = some line)
      (hnumber : ¬∃ m, Text.FirstNumber c.label m line.toList) :
      Fault c file required f (.malformed file.path offset c.expected line)
  | missing {offset : Nat} (hoffset : c.offsets.offset? f = some offset)
      (hend : file.lines.length ≤ offset) (hrequired : f ∈ required) :
      Fault c file required f (.missingLine file.path offset f file.lines.length)

/-- Nothing keeps a field from being read. -/
def Sound (c : PageCounter) (file : TextFile) (required : List Field) (f : Field) : Prop :=
  ∀ e, ¬c.Fault file required f e

/-- The fields that are read in front of a field. -/
def inFront (f : Field) : List Field := fields.takeWhile (· ≠ f)

/-- A field is reached and read if neither it nor a field in front of it is at fault. -/
def Taken (c : PageCounter) (file : TextFile) (required : List Field) (f : Field) : Prop :=
  f ∈ fields ∧ (∀ g ∈ inFront f, c.Sound file required g) ∧ c.Sound file required f

def HasLine (c : PageCounter) (file : TextFile) (f : Field) : Prop :=
  ∃ offset, c.offsets.offset? f = some offset ∧ offset < file.lines.length

variable {c : PageCounter} {file : TextFile} {required : List Field} {f p : Field} {m : Nat}
variable {before after : List Field} {e : FormatError}

theorem reports_rule_iff (hf : f ∈ fields) :
    (c.rule f).Reports file required e ↔ c.Fault file required f e := by
  obtain ⟨offset, hoffset⟩ := c.exists_offset hf
  have hrule : (c.rule f).offset = offset := offset_rule hoffset
  constructor
  · intro h
    cases h with
    | @malformed line hline hparse =>
      rw [hrule] at hline ⊢
      refine .malformed hoffset hline ?_
      rintro ⟨m, hnumber⟩
      have hlogged := logged?_eq_some_iff.mpr ⟨m, hnumber, rfl⟩
      simp [rule, count?, hlogged] at hparse
    | @missing g hend hfirst =>
      obtain rfl : g = f := List.mem_singleton.mp (List.mem_of_find?_eq_some hfirst)
      rw [hrule] at hend ⊢
      exact .missing hoffset hend (List.contains_iff_mem.mp (List.find?_some hfirst))
  · intro h
    cases h with
    | @malformed offset' line hoffset' hline hnumber =>
      rw [← offset_rule hoffset'] at hline ⊢
      refine .malformed hline ?_
      cases hlogged : c.logged? line with
      | none => simp [rule, count?, hlogged]
      | some n =>
        obtain ⟨m, hm, -⟩ := logged?_eq_some_iff.mp hlogged
        exact absurd ⟨m, hm⟩ hnumber
    | @missing offset' hoffset' hend hrequired =>
      rw [← offset_rule hoffset'] at hend ⊢
      refine .missing hend ?_
      simp [rule, hrequired]

theorem not_faulty_rule_iff (hf : f ∈ fields) :
    ¬(c.rule f).Faulty file required ↔ c.Sound file required f := by
  rw [← LineRule.exists_reports_iff, not_exists, Sound]
  exact forall_congr' fun e => not_congr (reports_rule_iff hf)

theorem nodup_fields : fields.Nodup := by decide

theorem inFront_of_split (h : fields = before ++ p :: after) : inFront p = before := by
  have hfirst : p ∉ before := by
    have hnodup := h ▸ nodup_fields
    exact fun hp => (List.nodup_append.mp hnodup).2.2 p hp p List.mem_cons_self rfl
  rw [inFront, h, List.takeWhile_append_of_pos, List.takeWhile_cons_of_neg (by simp),
    List.append_nil]
  intro g hg
  rw [decide_eq_true_eq]
  rintro rfl
  exact hfirst hg

/-- If a field is the first one at fault, those in front of it are taken and no others. -/
theorem taken_iff_of_split (h : fields = before ++ p :: after)
    (hbefore : ∀ g ∈ before, c.Sound file required g) (hp : c.Fault file required p e) :
    c.Taken file required f ↔ f ∈ before := by
  constructor
  · rintro ⟨hf, hfront, hsound⟩
    rw [h] at hf
    obtain hf | hf := List.mem_append.mp hf
    · exact hf
    · obtain rfl | hf := List.mem_cons.mp hf
      · exact absurd hp (hsound e)
      · obtain ⟨between, rest, rfl⟩ := List.append_of_mem hf
        have hsplit : fields = (before ++ p :: between) ++ f :: rest := by simp [h]
        rw [inFront_of_split hsplit] at hfront
        exact absurd hp (hfront p (by simp) e)
  · intro hf
    obtain ⟨front, between, rfl⟩ := List.append_of_mem hf
    have hsplit : fields = front ++ f :: (between ++ p :: after) := by simp [h]
    refine ⟨by rw [hsplit]; simp, ?_, hbefore f hf⟩
    rw [inFront_of_split hsplit]
    exact fun g hg => hbefore g (by simp [hg])

theorem taken_iff_of_sound (h : ∀ g ∈ fields, c.Sound file required g) :
    c.Taken file required f ↔ f ∈ fields :=
  ⟨fun hf => hf.1, fun hf => ⟨hf, fun g hg => h g (List.takeWhile_subset _ hg), h f hf⟩⟩

theorem Taken.exists_logs (h : c.Taken file required f) (hline : c.HasLine file f) :
    ∃ m, c.Logs file f m := by
  obtain ⟨offset, hoffset, hlt⟩ := hline
  have hget := List.getElem?_eq_getElem hlt
  by_contra hnone
  refine h.2.2 _ (.malformed hoffset hget ?_)
  rintro ⟨m, hnumber⟩
  exact hnone ⟨m, offset, _, hoffset, hget, hnumber⟩

theorem Logs.hasLine (h : c.Logs file f m) : c.HasLine file f := by
  obtain ⟨offset, line, hoffset, hline, -⟩ := h
  exact ⟨offset, hoffset, (List.getElem?_eq_some_iff.mp hline).1⟩

section Values

variable {l : LogSettings} {kind : TrialKind} {done : List Field} (r : Record)

/-- The fields with a value are among those that are read, and have a number. -/
theorem logs_of_mem_keys (hsub : done ⊆ fields)
    (h : f ∈ (done.flatMap fun g => ((l.pageCounter kind).rule g).values file).map Prod.fst) :
    f ∈ done ∧ ∃ m, (l.pageCounter kind).Logs file f m := by
  obtain ⟨⟨_, w⟩, hw, rfl⟩ := List.mem_map.mp h
  obtain ⟨g, hg, hvalue⟩ := List.mem_flatMap.mp hw
  obtain ⟨rfl, m, -, -, hlogs, -⟩ := mem_values_rule (hsub hg) hvalue
  exact ⟨hg, m, hlogs⟩

/-- A field that is among those that are read holds the adjusted number of its line. -/
theorem get_setAll_values (hsub : done.Sublist fields) (hf : f ∈ done)
    (hlogs : (l.pageCounter kind).Logs file f m) :
    ∃ n, (r.setAll (done.flatMap fun g => ((l.pageCounter kind).rule g).values file)).get f =
        some (.count n) ∧ n.toInt = m + ((l.pageCounter kind).adjustment f).toInt := by
  refine ⟨_, ?_, toInt_add_adjustment l kind f hlogs.le_maxValue⟩
  obtain ⟨front, rest, rfl⟩ := List.append_of_mem hf
  have hnodup := hsub.nodup nodup_fields
  have hlast : f ∉ rest := (List.nodup_cons.mp (List.nodup_append.mp hnodup).2.1).1
  rw [List.flatMap_append, List.flatMap_cons, values_rule_of_logs hlogs, List.singleton_append,
    Record.get_setAll_of_last, quantity_of_mem_fields hlogs.mem_fields]
  · rfl
  · intro hkey
    have hrest : rest ⊆ fields := fun g hg => hsub.subset (by simp [hg])
    exact hlast (logs_of_mem_keys hrest hkey).1

/-- A field that is not among them, or has no number, is as it was. -/
theorem get_setAll_values_of_not (hsub : done ⊆ fields)
    (h : f ∈ done → ∀ m, ¬(l.pageCounter kind).Logs file f m) :
    (r.setAll (done.flatMap fun g => ((l.pageCounter kind).rule g).values file)).get f =
      r.get f := by
  apply Record.get_setAll_of_notMem
  intro hkey
  obtain ⟨hf, m, hlogs⟩ := logs_of_mem_keys hsub hkey
  exact h hf m hlogs

end Values

theorem Fault.unique {e' : FormatError} (h : c.Fault file required f e)
    (h' : c.Fault file required f e') : e = e' := by
  have hsame {offset offset' : Nat} (hoffset : c.offsets.offset? f = some offset)
      (hoffset' : c.offsets.offset? f = some offset') : offset = offset' :=
    Option.some.inj (hoffset.symm.trans hoffset')
  cases h with
  | malformed hoffset hline _ =>
    cases h' with
    | malformed hoffset' hline' _ =>
      obtain rfl := hsame hoffset hoffset'
      rw [Option.some.inj (hline.symm.trans hline')]
    | missing hoffset' hend _ =>
      obtain rfl := hsame hoffset hoffset'
      exact absurd (List.getElem?_eq_some_iff.mp hline).1 (Nat.not_lt.mpr hend)
  | missing hoffset hend _ =>
    cases h' with
    | malformed hoffset' hline _ =>
      obtain rfl := hsame hoffset hoffset'
      exact absurd (List.getElem?_eq_some_iff.mp hline).1 (Nat.not_lt.mpr hend)
    | missing hoffset' _ _ => rw [hsame hoffset hoffset']

theorem mem_inFront_or_eq (hf : f ∈ fields) (hp : p ∈ fields) :
    f ∈ inFront p ∨ p ∈ inFront f ∨ f = p := by
  have hall : ∀ f ∈ fields, ∀ p ∈ fields, f ∈ inFront p ∨ p ∈ inFront f ∨ f = p := by decide
  exact hall f hf p hp

/-- The values of the fields that are taken are stored, and either all fields are sound or the first
one at fault is reported. -/
theorem exists_taken (c : PageCounter) (file : TextFile) (required : List Field) (r : Record) :
    ∃ done, done.Sublist fields ∧ (∀ f, c.Taken file required f ↔ f ∈ done) ∧
      (c.extract file required r).record = r.setAll (done.flatMap fun f => (c.rule f).values file) ∧
      (((∀ f ∈ fields, c.Sound file required f) ∧ (c.extract file required r).error? = none) ∨
        ∃ p ∈ fields, ∃ e, inFront p = done ∧ c.Fault file required p e ∧
          (c.extract file required r).error? = some e) := by
  rw [extract_eq_fill_rules]
  obtain ⟨hall, hfill⟩ | ⟨before, p, after, e, hsplit, hbefore, hreports, hfill⟩ :=
    Extraction.fill_rules c.rule fields file required r
  · have hsound : ∀ f ∈ fields, c.Sound file required f :=
      fun f hf => (not_faulty_rule_iff hf).mp (hall f hf)
    rw [hfill]
    exact ⟨fields, List.Sublist.refl _, fun f => taken_iff_of_sound hsound, rfl, .inl ⟨hsound, rfl⟩⟩
  · have hsub : before.Sublist fields := by
      rw [hsplit]
      exact List.sublist_append_left _ _
    have hp : p ∈ fields := by rw [hsplit]; simp
    have hfault := (reports_rule_iff hp).mp hreports
    have hsound : ∀ g ∈ before, c.Sound file required g :=
      fun g hg => (not_faulty_rule_iff (hsub.subset hg)).mp (hbefore g hg)
    rw [hfill]
    exact ⟨before, hsub, fun f => taken_iff_of_split hsplit hsound hfault, rfl,
      .inr ⟨p, hp, e, inFront_of_split hsplit, hfault, rfl⟩⟩

theorem error?_extract_eq_none_iff (c : PageCounter) (file : TextFile) (required : List Field)
    (r : Record) :
    (c.extract file required r).error? = none ↔ ∀ f ∈ fields, c.Sound file required f := by
  obtain ⟨done, -, -, -, ⟨hsound, hnone⟩ | ⟨p, hp, e, -, hfault, hsome⟩⟩ :=
    c.exists_taken file required r
  · exact iff_of_true hnone hsound
  · rw [hsome]
    exact iff_of_false (Option.some_ne_none e) fun h => h p hp e hfault

theorem error?_extract_of_first (r : Record) (hf : f ∈ fields)
    (hfront : ∀ g ∈ inFront f, c.Sound file required g) (hfault : c.Fault file required f e) :
    (c.extract file required r).error? = some e := by
  obtain ⟨done, -, htaken, -, ⟨hsound, -⟩ | ⟨p, hp, e', hdone, hfault', hsome⟩⟩ :=
    c.exists_taken file required r
  · exact absurd hfault (hsound f hf e)
  · obtain hbefore | hbehind | rfl := mem_inFront_or_eq hf hp
    · have hsound := ((htaken f).mpr (hdone ▸ hbefore)).2.2
      exact absurd hfault (hsound e)
    · exact absurd hfault' (hfront p hbehind e')
    · rw [hsome, hfault.unique hfault']

end PageCounter

/-- No field has values from a results file and from a log. -/
theorem Schema.disjoint_readings (lines : PhaseLines) (results : TextFile) (c : PageCounter)
    (file : TextFile) (required required' : List Field) :
    ∀ vs, .ok vs ∈ (ofPhaseLines lines).placements.map (Placement.reading results required') →
      ∀ ws, .ok ws ∈ PageCounter.fields.map (c.reading file required) →
        ∀ f ∈ vs.map Prod.fst, f ∉ ws.map Prod.fst := by
  intro vs hvs ws hws f hf hf'
  obtain ⟨p, hp, hvalues⟩ := List.mem_map.mp hvs
  obtain ⟨g, hg, hcount⟩ := List.mem_map.mp hws
  have hplaced := (Placement.keys_sublist_of_reading hvalues).subset hf
  obtain rfl := List.mem_singleton.mp ((PageCounter.keys_sublist_of_reading hcount).subset hf')
  have hdisjoint := (List.nodup_append.mp (nodup_fields lines)).2.2
  exact hdisjoint f (List.mem_flatMap.mpr ⟨p, hp, hplaced⟩) f hg rfl

namespace LogSettings

open PageCounter

/-- What an extraction from a log does. It succeeds exactly if no field is at fault, and otherwise
the first field at fault is reported. A field that is reached and has a line holds the number of
this line with its adjustment; all else in the record is as it was. So requiring more fields keeps
every failure a failure and the record of every success, and reading the results file and the log in
the other order changes neither the record nor what fails. -/
theorem extract_outcome (l : LogSettings) (file : TextFile) (required : List Field) (r : Record) :
    let c := l.pageCounter r.trial.config.kind
    let x := l.extract file required r
    (x.error? = none ↔ ∀ f ∈ fields, c.Sound file required f) ∧
    (∀ f ∈ fields, (∀ g ∈ inFront f, c.Sound file required g) →
      ∀ e, c.Fault file required f e → x.error? = some e) ∧
    (∀ f, c.Taken file required f → c.HasLine file f → ∃ m n, c.Logs file f m ∧
      x.record.get f = some (.count n) ∧ n.toInt = m + (c.adjustment f).toInt) ∧
    (∀ f, ¬(c.Taken file required f ∧ c.HasLine file f) → x.record.get f = r.get f) ∧
    x.record.trial = r.trial ∧
    (∀ required' s, required ⊆ required' → l.extract file required' r = ⟨s, none⟩ →
      x = ⟨s, none⟩) ∧
    ∀ (lines : PhaseLines) (results : TextFile) (required' : List Field),
      let schema := Schema.ofPhaseLines lines
      let y := schema.extract results required' r
      (l.extract file required y.record).error? = x.error? ∧
        (schema.extract results required' x.record).error? = y.error? ∧
        (l.extract file required y.record).record =
          (schema.extract results required' x.record).record := by
  intro c x
  obtain ⟨done, hsub, htaken, hrecord, -⟩ := c.exists_taken file required r
  have hx : x.record = r.setAll (done.flatMap fun f => (c.rule f).values file) := hrecord
  refine ⟨c.error?_extract_eq_none_iff file required r, ?_, ?_, ?_, ?_, ?_, ?_⟩
  · intro f hf hfront e hfault
    exact error?_extract_of_first r hf hfront hfault
  · intro f hf hline
    obtain ⟨m, hlogs⟩ := hf.exists_logs hline
    obtain ⟨n, hn, hsum⟩ := get_setAll_values r hsub ((htaken f).mp hf) hlogs
    exact ⟨m, n, hlogs, hx ▸ hn, hsum⟩
  · intro f hf
    rw [hx]
    refine get_setAll_values_of_not r hsub.subset fun hdone m hlogs => hf ?_
    exact ⟨(htaken f).mpr hdone, hlogs.hasLine⟩
  · rw [hx, Record.trial_setAll]
  · intro required' s hsubset hsuccess
    have hfill : Extraction.fill r (fields.map fun f => (c.rule f).reading file required') =
        ⟨s, none⟩ := hsuccess
    exact Extraction.fill_rules_of_subset c.rule hsubset hfill
  · intro lines results required' schema y
    have htrial : y.record.trial = r.trial := Extraction.trial_record_fill _ r
    have hlog : l.extract file required y.record = c.extract file required y.record := by
      rw [extract, htrial]
    have hdisjoint := Schema.disjoint_readings lines results c file required required'
    rw [hlog]
    exact ⟨Extraction.error?_fill_eq _ _ _, Extraction.error?_fill_eq _ _ _,
      Extraction.record_fill_comm r hdisjoint⟩

/-- The lines are in the other order than the fields. The second field is at fault, so the count of
the first one is stored from the last line, and the third field keeps its value although its line is
the first one and says a number. Another log, which ends in front of the line of the first field, is
read whole, and just so if the second field is required. -/
theorem extract_outcome_of_reversed_lines :
    let l : LogSettings := { threshold := ⟨2, 1, 0⟩ }
    let c := l.pageCounter .threshold
    let file : TextFile := ⟨"log", ["rs_nblocks = 7", "no count", "rs_nblocks = 9"]⟩
    let short : TextFile := ⟨"log", ["rs_nblocks = 7", "rs_nblocks = 8"]⟩
    let r := (Record.empty ⟨⟨.threshold, 50⟩, 0⟩).set .pgreqS3 (.count 4)
    (∀ g ∈ inFront .pgreqR3, c.Sound file [] g) ∧
      c.Fault file [] .pgreqR3 (.malformed "log" 1 c.expected "no count") ∧
      (l.extract file [] r).error? = some (.malformed "log" 1 c.expected "no count") ∧
      c.Taken file [] .pgreq1 ∧ c.Logs file .pgreq1 9 ∧
      (l.extract file [] r).record.get .pgreq1 = some (.count 9) ∧
      ¬c.Taken file [] .pgreqS3 ∧ (l.extract file [] r).record.get .pgreqS3 = some (.count 4) ∧
      ∃ s, l.extract short [.pgreqR3] r = ⟨s, none⟩ ∧ l.extract short [] r = ⟨s, none⟩ := by
  intro l c file short r
  have hsound : c.Sound file [] .pgreq1 := by
    intro e h
    cases h with
    | malformed hoffset hline hnumber =>
      cases hoffset
      cases hline
      have hlogged : c.logged? "rs_nblocks = 9" = some 9 := by decide +kernel
      obtain ⟨m, hm, -⟩ := logged?_eq_some_iff.mp hlogged
      exact hnumber ⟨m, hm⟩
    | missing _ _ hrequired => cases hrequired
  have hfault : c.Fault file [] .pgreqR3 (.malformed "log" 1 c.expected "no count") := by
    refine .malformed rfl rfl ?_
    rintro ⟨m, hnumber⟩
    have hnone : c.logged? "no count" = none := by decide +kernel
    rw [logged?_eq_some_iff.mpr ⟨m, hnumber, rfl⟩] at hnone
    cases hnone
  have hfront : ∀ g ∈ inFront .pgreqR3, c.Sound file [] g := by
    intro g hg
    obtain rfl : g = .pgreq1 := List.mem_singleton.mp hg
    exact hsound
  have htaken : c.Taken file [] .pgreq1 := ⟨by decide, List.forall_mem_nil _, hsound⟩
  have hbehind : ¬c.Taken file [] .pgreqS3 := fun h => h.2.1 .pgreqR3 (by decide) _ hfault
  obtain ⟨-, hfirst, hstored, hkept, -, -, -⟩ := extract_outcome l file [] r
  obtain ⟨-, -, -, -, -, hfewer, -⟩ := extract_outcome l short [] r
  have hcount : (l.extract file [] r).record.get .pgreq1 = some (.count 9) := by decide +kernel
  have hmore : l.extract short [.pgreqR3] r = ⟨(l.extract short [.pgreqR3] r).record, none⟩ := by
    have hnone : (l.extract short [.pgreqR3] r).error? = none := by decide +kernel
    rw [← hnone]
  refine ⟨hfront, hfault, hfirst .pgreqR3 (by decide) hfront _ hfault, htaken, ?_, hcount, hbehind,
    ?_, _, hmore, hfewer [.pgreqR3] _ (by decide) hmore⟩
  · obtain ⟨m, n, hlogs, hn, hsum⟩ := hstored .pgreq1 htaken ⟨2, rfl, by decide⟩
    rw [hcount] at hn
    cases hn
    have hm : (9 : Int) = m + 0 := hsum
    obtain rfl : m = 9 := by omega
    exact hlogs
  · exact hkept .pgreqS3 fun h => hbehind h.1

end LogSettings

end TrialSummary
