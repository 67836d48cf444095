import TrialSummary.Proofs.Binary64.Repetition
import TrialSummary.Proofs.Report.Batches
import TrialSummary.Proofs.Trial.Record

/-!
# Batches of identical records

Repeating a trial with the same outcome is meant to change nothing about the summary. Each column of
such a batch is a statistic of copies of one value, so the batch is summarized by the values of its
records, whatever numbers they are, except for one case: an even number of times is reduced to half
of the sum of two of them, and from `2 ^ 1023` on that sum overflows. The summary then has an infinite
time that no trial has.
-/

namespace TrialSummary

/-- What a statistic makes of copies of a number. -/
def Statistic.ofCopies (s : Statistic) (n : Nat) (x : Binary64) : Binary64 :=
  if s = .median ∧ n % 2 = 0 ∧ x.TooLargeToDouble then .infinity x.negative else x

theorem Statistic.value?_replicate (s : Statistic) {n : Nat} (hn : 0 < n) {x : Binary64}
    (hx : x.isNaN = false) : s.value? (List.replicate n x) = some (s.ofCopies n x) := by
  cases s with
  | mean => exact Binary64.mean?_replicate hn hx
  | median =>
    rw [Statistic.value?, Binary64.median?_replicate hn, Binary64.midpoint_self, ofCopies]
    rcases Nat.mod_two_eq_zero_or_one n with hparity | hparity <;> simp [hparity]

/-- A number is not restored from copies if there is an even number of them and their sum is
infinite. -/
theorem Statistic.ofCopies_eq_self_iff {s : Statistic} {n : Nat} {x : Binary64} :
    s.ofCopies n x = x ↔ (n % 2 = 0 → s = .median → ¬x.TooLargeToDouble) := by
  rw [ofCopies]
  split
  · next h =>
    refine iff_of_false ?_ fun hall => hall h.2.1 h.1 h.2.2
    intro hx
    have hfinite := h.2.2.1
    rw [← hx] at hfinite
    cases hfinite
  · next h => exact iff_of_true rfl fun heven hs hx => h ⟨hs, heven, hx⟩

namespace Batch

variable {q : Query} {b : Batch} {value : Field → Value}

/-- The records of a batch have given values for the columns of a query. -/
def Repeats (b : Batch) (q : Query) (value : Field → Value) : Prop :=
  ∀ r ∈ b.records, ∀ c ∈ q.columns, r.get c.field = some (value c.field)

theorem summarize_of_copies (hrecords : b.records ≠ []) (hvalue : b.Repeats q value)
    (hnumber : ∀ c ∈ q.columns, (value c.field).toBinary64.isNaN = false) :
    summarize q b = .ok ⟨b.config, q.columns.map fun c =>
      c.statistic.ofCopies b.records.length (value c.field).toBinary64⟩ := by
  refine summarize_eq_ok_iff.mpr ⟨hrecords, rfl, ?_⟩
  rw [List.forall₂_map_right_iff, List.forall₂_same]
  intro c hc
  refine ⟨List.replicate b.records.length (value c.field), ?_, ?_⟩
  · rw [List.map_replicate, List.eq_replicate_iff, List.length_map]
    refine ⟨rfl, fun v hv => ?_⟩
    obtain ⟨r, hr, rfl⟩ := List.mem_map.mp hv
    exact hvalue r hr c hc
  · rw [List.map_replicate]
    exact c.statistic.value?_replicate (List.length_pos_iff.mpr hrecords) (hnumber c hc)

/-- A batch of trials in which the same was measured. -/
def ofMeasurements (m : Measurements) (config : Configuration) (dbs : List UInt32) : Batch :=
  ⟨config, dbs.map fun db => m.record ⟨config, db⟩⟩

theorem repeats_ofMeasurements (m : Measurements) (config : Configuration) (dbs : List UInt32)
    (q : Query) : (ofMeasurements m config dbs).Repeats q m.value := by
  intro r hr c _
  obtain ⟨db, -, rfl⟩ := List.mem_map.mp hr
  exact m.get_record _ _

/-- Identical records are summarized by their values, unless their number is even and a time is too
large to be doubled. The time of the summary is infinite then. -/
theorem summarize_of_identical (q : Query) (b : Batch) (value : Field → Value)
    (hrecords : b.records ≠ []) (hvalue : b.Repeats q value)
    (hnumber : ∀ c ∈ q.columns, (value c.field).toBinary64.isNaN = false) :
    summarize q b = .ok ⟨b.config, q.columns.map fun c =>
        c.statistic.ofCopies b.records.length (value c.field).toBinary64⟩ ∧
      (summarize q b = .ok ⟨b.config, q.columns.map fun c => (value c.field).toBinary64⟩ ↔
        (b.records.length % 2 = 0 → ∀ c ∈ q.columns, c.statistic = .median →
          ¬(value c.field).toBinary64.TooLargeToDouble)) := by
  have hsummary := summarize_of_copies hrecords hvalue hnumber
  refine ⟨hsummary, ?_⟩
  rw [hsummary, Except.ok.injEq, Summary.mk.injEq, List.map_inj_left]
  simp only [true_and, Statistic.ofCopies_eq_self_iff]
  exact ⟨fun h heven c hc => h c hc heven, fun h c hc heven => h heven c hc⟩

/-- `2 ^ 1023` measured three times. -/
theorem summarize_of_three_large_times :
    let large : Binary64 := .finite false ⟨2046 * 2 ^ 52, by decide⟩
    let m : Measurements := fun f => (Value.measure large).convert f.quantity
    let b := ofMeasurements m ⟨.threshold, 50⟩ [0, 1, 2]
    summarize .one b = .ok ⟨b.config, Query.one.columns.map fun c => (m.value c.field).toBinary64⟩ ∧
      (m.value .time1).toBinary64 = large := by
  intro large m b
  have hnumber : ∀ c ∈ Query.one.columns, (m.value c.field).toBinary64.isNaN = false := by
    decide +kernel
  have hodd : b.records.length % 2 = 0 → ∀ c ∈ Query.one.columns, c.statistic = .median →
      ¬(m.value c.field).toBinary64.TooLargeToDouble :=
    fun h => absurd h (by decide)
  have hsummary := summarize_of_identical .one b m.value (List.cons_ne_nil _ _)
    (repeats_ofMeasurements m _ _ _) hnumber
  exact ⟨hsummary.2.mpr hodd, rfl⟩

/-- `2 ^ 1023` measured twice is summarized by an infinite time. -/
theorem summarize_of_two_large_times :
    let large : Binary64 := .finite false ⟨2046 * 2 ^ 52, by decide⟩
    let m : Measurements := fun f => (Value.measure large).convert f.quantity
    let b := ofMeasurements m ⟨.threshold, 50⟩ [0, 1]
    (∃ s, summarize .one b = .ok s ∧ s.values.head? = some (.infinity false)) ∧
      (m.value .time1).toBinary64 = large ∧
      summarize .one b ≠
        .ok ⟨b.config, Query.one.columns.map fun c => (m.value c.field).toBinary64⟩ := by
  intro large m b
  have hnumber : ∀ c ∈ Query.one.columns, (m.value c.field).toBinary64.isNaN = false := by
    decide +kernel
  have hlarge : large.TooLargeToDouble :=
    (Binary64.tooLargeToDouble_finite_iff _ _).mpr (by decide +kernel)
  have htime : Statistic.median.ofCopies b.records.length large = .infinity false :=
    if_pos ⟨rfl, by decide, hlarge⟩
  have hsummary := summarize_of_copies (List.cons_ne_nil _ _)
    (repeats_ofMeasurements m ⟨.threshold, 50⟩ [0, 1] .one) hnumber
  refine ⟨⟨_, hsummary, congrArg some htime⟩, rfl, fun h => ?_⟩
  rw [hsummary, Except.ok.injEq, Summary.mk.injEq] at h
  have hhead : some (Statistic.median.ofCopies b.records.length large) = some large :=
    congrArg List.head? h.2
  rw [htime] at hhead
  exact Binary64.noConfusion (Option.some.inj hhead)

end Batch

end TrialSummary
