import TrialSummary.Proofs.Text.Numeral
import TrialSummary.Text.Pattern

/-!
# Finding words

Where a search for a word ends, told without the search: what stands in front of a word at the end
of a text, and the run of digits behind the first occurrence of a word that has digits behind it.
-/

namespace TrialSummary.Text

/-- A word cannot be at the start of a text whose own beginning parts from it. -/
theorem after?_append_eq_none {word start : List Char} (rest : List Char)
    (h : ¬word <+: start ∧ ¬start <+: word) : after? word (start ++ rest) = none := by
  have hword : ¬word.isPrefixOf (start ++ rest) := by
    intro hp
    have hstart : start <+: start ++ rest := List.prefix_append start rest
    obtain hle | hle := List.prefix_or_prefix_of_prefix (List.isPrefixOf_iff_prefix.mp hp) hstart
    · exact h.1 hle
    · exact h.2 hle
  rw [after?, if_neg hword]

/-- The last occurrence of ` ms` in a text that ends in it is the one at the end. -/
theorem beforeLast?_milliseconds (cs : List Char) :
    beforeLast? " ms".toList (cs ++ " ms".toList) = some cs := by
  induction cs with
  | nil => decide
  | cons c cs ih => rw [List.cons_append, beforeLast?, ih]

/-- The text `front` stands in front of the first occurrence of a word with a decimal digit behind
it, and the whole run of digits there is `run`. -/
structure FirstRun (word front run cs : List Char) : Prop where
  run_ne_nil : run ≠ []
  isDecimalDigit_run : ∀ c ∈ run, isDecimalDigit c = true
  text_eq : ∃ back, cs = front ++ (word ++ (run ++ back)) ∧ StopsRun isDecimalDigit back
  first : ∀ before c back, cs = before ++ (word ++ c :: back) → isDecimalDigit c = true →
    front.length ≤ before.length

section FirstRun

variable {word front run cs : List Char}

/-- What is found at the start of a text: the whole run of digits behind the word there. -/
theorem digitsBehind?_eq_some_iff :
    digitsBehind? word cs = some run ↔
      run ≠ [] ∧ (∀ c ∈ run, isDecimalDigit c = true) ∧
        ∃ back, cs = word ++ (run ++ back) ∧ StopsRun isDecimalDigit back := by
  constructor
  · intro h
    obtain ⟨rest, hrest, hrun⟩ := Option.bind_eq_some_iff.mp h
    have hcs := after?_eq_some_iff.mp hrest
    simp only [List.isEmpty_iff] at hrun
    split at hrun
    · cases hrun
    · next hne =>
      cases hrun
      refine ⟨hne, List.all_eq_true.mp List.all_takeWhile, rest.dropWhile isDecimalDigit, ?_,
        stopsRun_dropWhile rest⟩
      rw [List.takeWhile_append_dropWhile]
      exact hcs
  · rintro ⟨hne, hrun, back, rfl, hback⟩
    have hempty : run.isEmpty = false := List.isEmpty_eq_false_iff.mpr hne
    simp only [digitsBehind?, after?_append, Option.bind_some, takeWhile_run hrun hback, hempty,
      Bool.false_eq_true, if_false]

/-- Nothing is found at the start of a text exactly if no digit stands behind the word there. -/
theorem digitsBehind?_eq_none_iff :
    digitsBehind? word cs = none ↔
      ∀ c back, cs = word ++ c :: back → isDecimalDigit c = false := by
  constructor
  · rintro h c back rfl
    cases hc : isDecimalDigit c with
    | false => rfl
    | true => simp [digitsBehind?, hc] at h
  · intro h
    cases hfound : digitsBehind? word cs with
    | none => rfl
    | some run =>
      obtain ⟨hne, hrun, back, hcs, -⟩ := digitsBehind?_eq_some_iff.mp hfound
      obtain ⟨c, rest, rfl⟩ := List.exists_cons_of_ne_nil hne
      have := h c (rest ++ back) hcs
      simp [hrun c List.mem_cons_self] at this

theorem firstRun_nil_iff : FirstRun word [] run cs ↔ digitsBehind? word cs = some run := by
  rw [digitsBehind?_eq_some_iff]
  constructor
  · rintro ⟨hne, hrun, hback, -⟩
    exact ⟨hne, hrun, hback⟩
  · rintro ⟨hne, hrun, hback⟩
    exact ⟨hne, hrun, hback, fun _ _ _ _ _ => Nat.zero_le _⟩

/-- If something is found at the start of a text, the first run is there. -/
theorem FirstRun.eq_nil {found : List Char} (h : FirstRun word front run cs)
    (hfound : digitsBehind? word cs = some found) : front = [] := by
  obtain ⟨hne, hdigits, back, heq, -⟩ := digitsBehind?_eq_some_iff.mp hfound
  obtain ⟨c, rest, rfl⟩ := List.exists_cons_of_ne_nil hne
  have := h.first [] c (rest ++ back) heq (hdigits c List.mem_cons_self)
  exact List.length_eq_zero_iff.mp (Nat.le_zero.mp this)

/-- A character in front of a text does not matter unless digits stand behind the word there. -/
theorem firstRun_cons_iff {c : Char} (h : digitsBehind? word (c :: cs) = none) :
    FirstRun word (c :: front) run (c :: cs) ↔ FirstRun word front run cs := by
  constructor
  · rintro ⟨hne, hrun, ⟨back, heq, hback⟩, hfirst⟩
    refine ⟨hne, hrun, ⟨back, by simpa using heq, hback⟩, fun before d rest hcs hd => ?_⟩
    have := hfirst (c :: before) d rest (by rw [hcs, List.cons_append]) hd
    simpa using this
  · rintro ⟨hne, hrun, ⟨back, heq, hback⟩, hfirst⟩
    refine ⟨hne, hrun, ⟨back, by rw [heq, List.cons_append], hback⟩, fun before d rest hcs hd => ?_⟩
    cases before with
    | nil =>
      rw [digitsBehind?_eq_none_iff.mp h d rest hcs] at hd
      cases hd
    | cons b before =>
      obtain ⟨-, htail⟩ := List.cons.inj hcs
      exact Nat.succ_le_succ (hfirst before d rest htail hd)

/-- The search finds exactly the run behind the first occurrence that has one. -/
theorem firstDigitsBehind?_eq_some_iff :
    firstDigitsBehind? word cs = some run ↔ ∃ front, FirstRun word front run cs := by
  induction cs with
  | nil =>
    rw [firstDigitsBehind?, ← firstRun_nil_iff]
    constructor
    · exact fun h => ⟨[], h⟩
    · rintro ⟨front, h⟩
      obtain ⟨back, heq, -⟩ := h.text_eq
      obtain rfl : front = [] := (List.append_eq_nil_iff.mp heq.symm).1
      exact h
  | cons c cs ih =>
    rw [firstDigitsBehind?]
    cases hfound : digitsBehind? word (c :: cs) with
    | some found =>
      simp only [← hfound]
      constructor
      · exact fun h => ⟨[], firstRun_nil_iff.mpr h⟩
      · rintro ⟨front, h⟩
        obtain rfl := h.eq_nil hfound
        exact firstRun_nil_iff.mp h
    | none =>
      simp only [ih]
      constructor
      · rintro ⟨front, h⟩
        exact ⟨c :: front, (firstRun_cons_iff hfound).mpr h⟩
      · rintro ⟨front, h⟩
        cases front with
        | nil => simp [firstRun_nil_iff.mp h] at hfound
        | cons d front =>
          obtain ⟨back, heq, -⟩ := h.text_eq
          obtain ⟨rfl, -⟩ := List.cons.inj heq
          exact ⟨front, (firstRun_cons_iff hfound).mp h⟩

end FirstRun

end TrialSummary.Text
