import Mathlib.Data.List.Find
import Mathlib.Data.List.Infix
import TrialSummary.Proofs.Text.Search

/-!
# The last occurrence of a word

A search for the last occurrence of a word finds what stands in front of it, and it finds something
exactly if the word occurs.

In a pattern a group for any characters, with a word behind it, does the same within a line. The group
cannot hold a line feed, and it prefers to hold as much as it can, so it goes on to the last place in
the line where the word stands behind it.
-/

namespace TrialSummary.Text

variable {word front back cs first : List Char}

/-- The last occurrence of a word in a text stands between `front` and `back`. -/
structure LastOccurrence (word front back cs : List Char) : Prop where
  text_eq : cs = front ++ (word ++ back)
  last : ∀ front' back', cs = front' ++ (word ++ back') → front'.length ≤ front.length

theorem infix_iff : word <:+: cs ↔ ∃ front back, cs = front ++ (word ++ back) := by
  simp only [List.IsInfix, List.append_assoc, eq_comm]

/-- An occurrence behind the first character is one in the rest of the text. -/
theorem lastOccurrence_cons_cons {c d : Char} :
    LastOccurrence word (d :: front) back (c :: cs) ↔ d = c ∧ LastOccurrence word front back cs := by
  constructor
  · rintro ⟨heq, hlast⟩
    obtain ⟨rfl, hcs⟩ := List.cons.inj heq
    refine ⟨rfl, hcs, fun front' back' h => ?_⟩
    exact Nat.le_of_succ_le_succ (hlast (c :: front') back' (by rw [h, List.cons_append]))
  · rintro ⟨rfl, hcs, hlast⟩
    refine ⟨by rw [hcs, List.cons_append], fun front' back' h => ?_⟩
    cases front' with
    | nil => exact Nat.zero_le _
    | cons b front' => exact Nat.succ_le_succ (hlast front' back' (List.cons.inj h).2)

/-- The last occurrence is at the start of a text if the rest of the text has none. -/
theorem lastOccurrence_nil_cons {c : Char} :
    LastOccurrence word [] back (c :: cs) ↔ c :: cs = word ++ back ∧ ¬word <:+: cs := by
  rw [infix_iff]
  constructor
  · rintro ⟨heq, hlast⟩
    refine ⟨heq, fun ⟨front', back', h⟩ => ?_⟩
    have := hlast (c :: front') back' (by rw [h, List.cons_append])
    simp at this
  · rintro ⟨heq, hnone⟩
    refine ⟨heq, fun front' back' h => ?_⟩
    cases front' with
    | nil => exact Nat.le_refl _
    | cons b front' => exact absurd ⟨front', back', (List.cons.inj h).2⟩ hnone

theorem beforeLast?_eq_none_iff : beforeLast? word cs = none ↔ ¬word <:+: cs := by
  induction cs with
  | nil =>
    rw [beforeLast?, List.infix_nil]
    cases word <;> simp
  | cons c cs ih =>
    rw [beforeLast?, List.infix_cons_iff, not_or]
    cases hrest : beforeLast? word cs with
    | some p =>
      have hoccurs : ¬¬word <:+: cs := by rw [← ih, hrest]; simp
      simp [hoccurs]
    | none =>
      have hnone := ih.mp hrest
      simp [hnone]

theorem beforeLast?_eq_some_iff :
    beforeLast? word cs = some front ↔ ∃ back, LastOccurrence word front back cs := by
  induction cs generalizing front with
  | nil =>
    have hnil : (∃ back, LastOccurrence word front back []) ↔ word = [] ∧ front = [] := by
      constructor
      · rintro ⟨back, heq, -⟩
        simp_all [List.append_eq_nil_iff]
      · rintro ⟨rfl, rfl⟩
        exact ⟨[], rfl, fun front' back' h => by simp_all [List.append_eq_nil_iff]⟩
    rw [hnil, beforeLast?]
    cases word <;> simp [eq_comm]
  | cons c cs ih =>
    rw [beforeLast?]
    cases hrest : beforeLast? word cs with
    | some p =>
      obtain ⟨back, hp⟩ := ih.mp hrest
      cases front with
      | nil =>
        have hoccurs : word <:+: cs := infix_iff.mpr ⟨p, back, hp.text_eq⟩
        simp [lastOccurrence_nil_cons, hoccurs]
      | cons d front =>
        simp only [lastOccurrence_cons_cons, exists_and_left, ← ih, hrest, Option.some.injEq,
          List.cons.injEq, eq_comm]
    | none =>
      have hnone := beforeLast?_eq_none_iff.mp hrest
      cases front with
      | nil =>
        have hstart : word.isPrefixOf (c :: cs) = true ↔ ∃ back, c :: cs = word ++ back := by
          simp only [List.isPrefixOf_iff_prefix, List.IsPrefix, @eq_comm _ (c :: cs)]
        simp [lastOccurrence_nil_cons, hnone, ← hstart]
      | cons d front =>
        have hnothing : ¬∃ back, LastOccurrence word front back cs := by rw [← ih, hrest]; simp
        simp [lastOccurrence_cons_cons, hnothing]

/-- A word whose first character does not stand in it again occurs last in front of a text in which it
does not occur. -/
theorem lastOccurrence_append {c : Char} (hword : c ∉ word) (hback : ¬c :: word <:+: back)
    (front : List Char) : LastOccurrence (c :: word) front back (front ++ (c :: word ++ back)) := by
  have hnone (w : List Char) (hw : c ∉ w) : ¬c :: word <:+: w ++ back := by
    induction w with
    | nil => exact hback
    | cons d w ih =>
      obtain ⟨hne, hrest⟩ := List.ne_and_not_mem_of_not_mem_cons hw
      rw [List.cons_append, List.infix_cons_iff, List.cons_prefix_cons, not_or]
      exact ⟨fun h => hne h.1, ih hrest⟩
  induction front with
  | nil => exact lastOccurrence_nil_cons.mpr ⟨rfl, hnone word hword⟩
  | cons d front ih => exact lastOccurrence_cons_cons.mpr ⟨rfl, ih⟩

section Line

/-- The characters of a text in front of its first line feed, or all of them. -/
def firstLine (cs : List Char) : List Char := cs.takeWhile (· ≠ '\n')

/-- What a group for any characters but a line feed can hold at the start of a text, in the order in
which it is preferred: more characters before fewer. -/
def groupChoices (cs : List Char) : List (List Char) := (firstLine cs).inits.reverse

/-- What such a group holds in the preferred match of a pattern that consists of a word at the start
of the text, the group, and a word behind it. -/
def groupBetween? (front back cs : List Char) : Option (List Char) :=
  (after? front cs).bind fun rest =>
    (groupChoices rest).find? fun group => back.isPrefixOf (rest.drop group.length)

/-- The first line has no line feed, and it ends at one or at the end of the text. -/
theorem firstLine_eq_iff :
    firstLine cs = first ↔ '\n' ∉ first ∧ (cs = first ∨ ∃ rest, cs = first ++ '\n' :: rest) := by
  have hsplit (cs : List Char) : firstLine cs ++ cs.dropWhile (· ≠ '\n') = cs :=
    List.takeWhile_append_dropWhile
  constructor
  · rintro rfl
    refine ⟨fun h => ?_, ?_⟩
    · simpa using List.all_eq_true.mp List.all_takeWhile _ h
    · have hstop := stopsRun_dropWhile (p := fun c => decide (c ≠ '\n')) cs
      cases hrest : cs.dropWhile (· ≠ '\n') with
      | nil =>
        have := hsplit cs
        rw [hrest, List.append_nil] at this
        exact .inl this.symm
      | cons c rest =>
        rw [hrest, stopsRun_cons, decide_eq_false_iff_not, not_not] at hstop
        subst hstop
        exact .inr ⟨rest, by rw [← hrest, hsplit]⟩
  · rintro ⟨hfeed, hcs⟩
    have hrun : ∀ c ∈ first, decide (c ≠ '\n') = true := by
      intro c hc
      rw [decide_eq_true_eq]
      rintro rfl
      exact hfeed hc
    rcases hcs with rfl | ⟨rest, rfl⟩
    · have htake := takeWhile_run hrun stopsRun_nil
      rwa [List.append_nil] at htake
    · exact takeWhile_run hrun (stopsRun_cons.mpr (by simp))

theorem firstLine_append {front : List Char} (h : '\n' ∉ front) (cs : List Char) :
    firstLine (front ++ cs) = front ++ firstLine cs := by
  apply List.takeWhile_append_of_pos
  intro c hc
  rw [decide_eq_true_eq]
  rintro rfl
  exact h hc

/-- A word without a line feed does not go on behind the first line. -/
theorem prefix_drop_iff (hword : '\n' ∉ word) {n : Nat} (hn : n ≤ (firstLine cs).length) :
    word <+: cs.drop n ↔ word <+: (firstLine cs).drop n := by
  obtain ⟨-, hcs | ⟨rest, hcs⟩⟩ := firstLine_eq_iff.mp (Eq.refl (firstLine cs))
  · rw [← hcs]
  · have hdrop : cs.drop n = (firstLine cs).drop n ++ '\n' :: rest := by
      conv_lhs => rw [hcs]
      exact List.drop_append_of_le_length hn
    rw [hdrop]
    refine ⟨fun h => ?_, fun h => h.trans (List.prefix_append _ _)⟩
    obtain hle | ⟨behind, hbehind⟩ :=
      List.prefix_or_prefix_of_prefix h (List.prefix_append ((firstLine cs).drop n) ('\n' :: rest))
    · exact hle
    · rw [← hbehind, List.prefix_append_right_inj] at h
      cases behind with
      | nil => rw [← hbehind, List.append_nil]
      | cons c behind =>
        obtain ⟨rfl, -⟩ := List.cons_prefix_cons.mp h
        exact absurd (hbehind ▸ by simp) hword

/-- Of the beginnings of a line with a word behind them, the longest one is in front of its last
occurrence. -/
theorem find?_inits (word cs : List Char) :
    (cs.inits.reverse.find? fun group => word.isPrefixOf (cs.drop group.length)) =
      beforeLast? word cs := by
  induction cs with
  | nil => simp [beforeLast?, List.find?_singleton]
  | cons c cs ih =>
    have hrest : (cs.inits.map (c :: ·)).reverse.find?
        (fun group => word.isPrefixOf ((c :: cs).drop group.length)) =
          (beforeLast? word cs).map (c :: ·) := by
      rw [← List.map_reverse, List.find?_map, ← ih]
      rfl
    rw [List.inits_cons, List.reverse_cons, List.find?_append, hrest, beforeLast?]
    cases beforeLast? word cs with
    | some front => rfl
    | none => simp [List.find?_singleton]

/-- A group that holds as much as it can ends in front of the last occurrence of the word that stands
behind it in the line. -/
theorem groupBetween?_eq (front cs : List Char) (hword : '\n' ∉ word) :
    groupBetween? front word cs =
      (after? front cs).bind fun rest => beforeLast? word (firstLine rest) := by
  rw [groupBetween?]
  congr 1
  funext rest
  rw [← find?_inits, groupChoices]
  apply List.find?_congr
  intro group hgroup
  rw [List.mem_reverse, List.mem_inits] at hgroup
  rw [Bool.eq_iff_iff, List.isPrefixOf_iff_prefix, List.isPrefixOf_iff_prefix,
    prefix_drop_iff hword hgroup.length_le]

end Line

end TrialSummary.Text
