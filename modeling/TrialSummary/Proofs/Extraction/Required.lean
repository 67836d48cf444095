import TrialSummary.Extraction.PageRequests
import TrialSummary.Extraction.Results
import TrialSummary.Proofs.Extraction.Filling

/-!
# What required fields decide

The required fields do not change how a line is read. They only decide whether a line that is not
there is a failure. So a file that fills a record under one choice of fields gives the same record
under any other one, or it fails because the line of a field required there is missing.

For a results file more is true, because its placements are in the order of the lines: in front of a
line that is there all other lines are there too, and so a line that does not hold what it should is
the first failure under every choice.
-/

namespace TrialSummary

/-- The failure that the line of one of the required fields is missing. -/
def FormatError.IsMissing (required : List Field) (e : FormatError) : Prop :=
  ∃ path line f length, e = .missingLine path line f length ∧ f ∈ required

namespace Reading

/-- What the line of a place gives if the file ends before it. -/
def OfMissing (required : List Field) (x : Reading) : Prop :=
  x = .ok [] ∨ ∃ e, x = .error e ∧ e.IsMissing required

/-- The readings of one place under two choices of required fields. -/
def Alike (required required' : List Field) (x y : Reading) : Prop :=
  x = y ∨ OfMissing required x ∧ OfMissing required' y

end Reading

namespace TextFile

variable {file : TextFile} {fields : List Field} {offset : Nat}
variable {parse : String → Option (List (Field × Value))} {expected : String}

/-- A line that is there is read without regard to the required fields. -/
theorem reading_eq_of_lt (h : offset < file.lines.length) (required required' : List Field) :
    file.reading required fields offset parse expected =
      file.reading required' fields offset parse expected := by
  simp only [reading, List.getElem?_eq_getElem h]

theorem ofMissing_reading (h : file.lines.length ≤ offset) (required : List Field) :
    Reading.OfMissing required (file.reading required fields offset parse expected) := by
  rw [reading, List.getElem?_eq_none h]
  cases hfind : fields.find? fun f => required.contains f with
  | none => exact .inl rfl
  | some f =>
    have hrequired : f ∈ required := List.contains_iff_mem.mp (List.find?_some hfind)
    exact .inr ⟨_, rfl, _, _, _, _, rfl, hrequired⟩

theorem alike_reading (file : TextFile) (required required' fields : List Field) (offset : Nat)
    (parse : String → Option (List (Field × Value))) (expected : String) :
    Reading.Alike required required' (file.reading required fields offset parse expected)
      (file.reading required' fields offset parse expected) := by
  rcases Nat.lt_or_ge offset file.lines.length with h | h
  · exact .inl (reading_eq_of_lt h required required')
  · exact .inr ⟨ofMissing_reading h required, ofMissing_reading h required'⟩

end TextFile

namespace Extraction

variable {α : Type} {required required' : List Field} {r s : Record} {places : List α}
variable {reading reading' : α → Reading}

/-- A filling that succeeds under one choice of required fields gives the same record under another
one, unless the line of a field required there is missing. -/
theorem toExcept_fill_of_alike
    (halike : ∀ p ∈ places, Reading.Alike required required' (reading p) (reading' p))
    (h : (fill r (places.map reading)).toExcept = .ok s) :
    (fill r (places.map reading')).toExcept = .ok s ∨
      ∃ e, (fill r (places.map reading')).toExcept = .error e ∧ e.IsMissing required' := by
  induction places generalizing r with
  | nil => exact .inl h
  | cons p places ih =>
    have hrest : ∀ p ∈ places, Reading.Alike required required' (reading p) (reading' p) :=
      fun p hp => halike p (List.mem_cons_of_mem _ hp)
    rw [List.map_cons] at h ⊢
    cases hp : reading p with
    | error e =>
      rw [hp] at h
      cases h
    | ok values =>
      rw [hp, fill_ok] at h
      rcases halike p List.mem_cons_self with hsame | ⟨hmissing, hmissing'⟩
      · rw [← hsame, hp, fill_ok]
        exact ih hrest h
      · rcases hmissing' with hnone | ⟨e, he, hfield⟩
        · -- the line is missing under both choices, and then neither of them has values
          rcases hmissing with hvalues | ⟨e, he, -⟩
          · rw [hp] at hvalues
            cases hvalues
            rw [hnone, fill_ok]
            exact ih hrest h
          · rw [hp] at he
            cases he
        · rw [he, fill_error]
          exact .inr ⟨e, rfl, hfield⟩

/-- Behind the end of a file nothing else can fail than that lines are missing. -/
theorem isMissing_of_toExcept_fill {e : FormatError}
    (hmissing : ∀ p ∈ places, Reading.OfMissing required (reading p))
    (h : (fill r (places.map reading)).toExcept = .error e) : e.IsMissing required := by
  induction places generalizing r with
  | nil => cases h
  | cons p places ih =>
    rw [List.map_cons] at h
    rcases hmissing p List.mem_cons_self with hp | ⟨e', hp, hfield⟩
    · rw [hp, fill_ok] at h
      exact ih (fun p hp => hmissing p (List.mem_cons_of_mem _ hp)) h
    · rw [hp, fill_error] at h
      cases h
      exact hfield

end Extraction

theorem PageCounter.alike_reading (c : PageCounter) (file : TextFile)
    (required required' : List Field) (f : Field) :
    Reading.Alike required required' (c.reading file required f) (c.reading file required' f) := by
  rw [reading, reading]
  cases c.offsets.offset? f with
  | none => exact .inl rfl
  | some offset => exact file.alike_reading _ _ _ _ _ _

/-- A log that succeeds under one choice of required fields gives the same record under another one,
unless the line of a field required there is missing. -/
theorem LogSettings.extract_of_ok {l : LogSettings} {file : TextFile} {required : List Field}
    {r s : Record} (h : (l.extract file required r).toExcept = .ok s) (required' : List Field) :
    (l.extract file required' r).toExcept = .ok s ∨
      ∃ e, (l.extract file required' r).toExcept = .error e ∧ e.IsMissing required' :=
  Extraction.toExcept_fill_of_alike
    (fun f _ => (l.pageCounter r.trial.config.kind).alike_reading file required required' f) h

namespace Schema

variable {schema : Schema} {file : TextFile} {required : List Field} {r s : Record}

/-- A results file that succeeds under one choice of required fields gives the same record under
another one, unless the line of a field required there is missing. -/
theorem extract_of_ok (h : (schema.extract file required r).toExcept = .ok s)
    (required' : List Field) :
    (schema.extract file required' r).toExcept = .ok s ∨
      ∃ e, (schema.extract file required' r).toExcept = .error e ∧ e.IsMissing required' :=
  Extraction.toExcept_fill_of_alike (fun _ _ => file.alike_reading _ _ _ _ _ _) h

/-- Placements in the order of the lines: the first failure is the same under every choice of
required fields unless it is that a line is missing. -/
theorem fill_of_malformed {e : FormatError} {places : List Placement}
    (hordered : places.Pairwise fun a b => a.atOrBefore b = true)
    (h : (Extraction.fill r (places.map (Placement.reading file required))).toExcept = .error e)
    (he : ¬e.IsMissing required) (required' : List Field) :
    (Extraction.fill r (places.map (Placement.reading file required'))).toExcept = .error e := by
  induction places generalizing r with
  | nil => cases h
  | cons p places ih =>
    obtain ⟨hfirst, hordered⟩ := List.pairwise_cons.mp hordered
    rcases Nat.lt_or_ge p.offset file.lines.length with hp | hp
    · have hsame : p.reading file required = p.reading file required' :=
        TextFile.reading_eq_of_lt hp required required'
      rw [List.map_cons, hsame] at h
      rw [List.map_cons]
      cases hreading : p.reading file required' with
      | error e' =>
        rw [hreading, Extraction.fill_error] at h
        rw [Extraction.fill_error]
        exact h
      | ok values =>
        rw [hreading, Extraction.fill_ok] at h
        rw [Extraction.fill_ok]
        exact ih hordered h
    · -- the file ends before this line, so it ends before all later ones
      refine absurd (Extraction.isMissing_of_toExcept_fill (fun a ha => ?_) h) he
      refine TextFile.ofMissing_reading ?_ required
      rcases List.mem_cons.mp ha with rfl | ha
      · exact hp
      · have hle : p.offset ≤ a.offset := of_decide_eq_true (hfirst a ha)
        exact Nat.le_trans hp hle

/-- A line that does not hold what it should is reported under every choice of required fields. -/
theorem extract_of_malformed {e : FormatError}
    (h : (schema.extract file required r).toExcept = .error e) (he : ¬e.IsMissing required)
    (required' : List Field) : (schema.extract file required' r).toExcept = .error e :=
  fill_of_malformed schema.ordered h he required'

end Schema

end TrialSummary
