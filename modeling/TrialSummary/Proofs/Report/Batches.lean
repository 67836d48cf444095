import Mathlib.Data.List.Induction
import TrialSummary.Proofs.Binary64.Statistic
import TrialSummary.Proofs.Traversal
import TrialSummary.Report.Summary

/-!
# Batches of records

Inserting records one after the other partitions them: there is one batch for each configuration
that occurs, in the order of the first occurrences, and it has exactly the records of that
configuration in their order. No batch is empty, and so a batch can be summarized exactly if each
record has a value for each column.
-/

namespace TrialSummary

section FirstAppearances

variable {α : Type} [DecidableEq α]

/-- A further element is kept if it did not occur before. -/
theorem eraseDups_concat (xs : List α) (x : α) :
    (xs ++ [x]).eraseDups = if x ∈ xs then xs.eraseDups else xs.eraseDups ++ [x] := by
  rw [List.eraseDups_append]
  by_cases hx : x ∈ xs <;> simp [List.removeAll, hx, List.eraseDups_cons]

theorem nodup_eraseDups (xs : List α) : xs.eraseDups.Nodup := by
  induction xs using List.reverseRec with
  | nil => simp
  | append_singleton xs x ih =>
    rw [eraseDups_concat]
    split
    · exact ih
    · next hx =>
      refine List.nodup_append.mpr ⟨ih, by simp, ?_⟩
      rintro y hy z hz rfl
      obtain rfl := List.mem_singleton.mp hz
      exact hx (List.mem_eraseDups.mp hy)

/-- Of copies of a further element one is kept if it did not occur before. -/
theorem eraseDups_append_replicate (xs : List α) (x : α) (n : Nat) :
    (xs ++ List.replicate (n + 1) x).eraseDups =
      if x ∈ xs then xs.eraseDups else xs.eraseDups ++ [x] := by
  induction n with
  | zero => exact eraseDups_concat xs x
  | succ n ih =>
    have hmem : x ∈ xs ++ List.replicate (n + 1) x := by simp
    rw [List.replicate_succ', ← List.append_assoc, eraseDups_concat, if_pos hmem, ih]

/-- Repeating each element in place changes nothing about the first appearances. -/
theorem eraseDups_flatMap_replicate {γ : Type} (key : γ → α) (n : γ → Nat) {xs : List γ}
    (hn : ∀ x ∈ xs, n x ≠ 0) :
    (xs.flatMap fun x => List.replicate (n x) (key x)).eraseDups = (xs.map key).eraseDups := by
  induction xs using List.reverseRec with
  | nil => rfl
  | append_singleton xs x ih =>
    have hbefore : ∀ y ∈ xs, n y ≠ 0 := fun y hy => hn y (List.mem_append_left _ hy)
    have hmem :
        key x ∈ (xs.flatMap fun y => List.replicate (n y) (key y)) ↔ key x ∈ xs.map key := by
      rw [← List.mem_eraseDups, ih hbefore, List.mem_eraseDups]
    obtain ⟨m, hm⟩ := Nat.exists_eq_succ_of_ne_zero (hn x (by simp))
    rw [List.flatMap_append, List.flatMap_singleton, hm, eraseDups_append_replicate, ih hbefore,
      List.map_append, List.map_singleton, eraseDups_concat]
    simp only [hmem]

theorem eraseDups_of_nodup {xs : List α} (h : xs.Nodup) : xs.eraseDups = xs := by
  induction xs using List.reverseRec with
  | nil => rfl
  | append_singleton xs x ih =>
    obtain ⟨hbefore, -, hdisjoint⟩ := List.nodup_append.mp h
    have hx : x ∉ xs := fun hmem => hdisjoint x hmem x (List.mem_singleton_self x) rfl
    rw [eraseDups_concat, if_neg hx, ih hbefore]

end FirstAppearances

section Parts

variable {α β γ : Type} [DecidableEq β] {key : α → β}

/-- Of parts with different owners, the elements that belong to one owner are one part. -/
theorem filter_flatMap_part {part : γ → List α} {owner : γ → β} {ps : List γ}
    (hdistinct : (ps.map owner).Nodup) (howner : ∀ p ∈ ps, ∀ x ∈ part p, key x = owner p)
    {p : γ} (hp : p ∈ ps) :
    (ps.flatMap part).filter (fun x => decide (key x = owner p)) = part p := by
  induction ps with
  | nil => cases hp
  | cons q ps ih =>
    obtain ⟨hq, hps⟩ := List.nodup_cons.mp hdistinct
    have hrest : ∀ p ∈ ps, ∀ x ∈ part p, key x = owner p :=
      fun p hp => howner p (List.mem_cons_of_mem _ hp)
    rw [List.flatMap_cons, List.filter_append]
    rcases List.mem_cons.mp hp with rfl | hp
    · have hown : (part p).filter (fun x => decide (key x = owner p)) = part p := by
        rw [List.filter_eq_self]
        exact fun x hx => decide_eq_true (howner p List.mem_cons_self x hx)
      have hothers : (ps.flatMap part).filter (fun x => decide (key x = owner p)) = [] := by
        rw [List.filter_eq_nil_iff]
        intro x hx heq
        obtain ⟨q, hq', hx⟩ := List.mem_flatMap.mp hx
        rw [← of_decide_eq_true heq, hrest q hq' x hx] at hq
        exact hq (List.mem_map_of_mem hq')
      rw [hown, hothers, List.append_nil]
    · have hfirst : (part q).filter (fun x => decide (key x = owner p)) = [] := by
        rw [List.filter_eq_nil_iff]
        intro x hx heq
        rw [← howner q List.mem_cons_self x hx, of_decide_eq_true heq] at hq
        exact hq (List.mem_map_of_mem hp)
      rw [hfirst, ih hps hrest hp, List.nil_append]

/-- Taking the elements of a list key by key rearranges it. -/
theorem perm_flatMap_filter {ks : List β} (hdistinct : ks.Nodup) {xs : List α}
    (hkeys : ∀ x ∈ xs, key x ∈ ks) :
    (ks.flatMap fun k => xs.filter fun x => decide (key x = k)).Perm xs := by
  induction ks generalizing xs with
  | nil =>
    obtain rfl : xs = [] := by
      rw [List.eq_nil_iff_forall_not_mem]
      exact fun x hx => List.not_mem_nil (hkeys x hx)
    exact .nil
  | cons k ks ih =>
    obtain ⟨hk, hks⟩ := List.nodup_cons.mp hdistinct
    have hsplit := List.filter_append_perm (fun x => decide (key x = k)) xs
    -- the other keys take their elements from those that the first one leaves
    have hleft : (ks.flatMap fun l => xs.filter fun x => decide (key x = l)) =
        ks.flatMap fun l => (xs.filter fun x => !decide (key x = k)).filter
          fun x => decide (key x = l) := by
      refine List.flatMap_congr fun l hl => ?_
      rw [List.filter_filter]
      refine List.filter_congr fun x _ => ?_
      by_cases hx : key x = l
      · have hne : l ≠ k := fun heq => hk (heq ▸ hl)
        simp [hx, hne]
      · simp [hx]
    have hrest : ∀ x ∈ xs.filter (fun x => !decide (key x = k)), key x ∈ ks := by
      intro x hx
      obtain ⟨hmem, hne⟩ := List.mem_filter.mp hx
      exact (List.mem_cons.mp (hkeys x hmem)).resolve_left (by simpa using hne)
    rw [List.flatMap_cons, hleft]
    exact ((ih hks hrest).append_left _).trans hsplit

end Parts

namespace Batch

abbrev key (r : Record) : Configuration := r.trial.config

theorem insert_map (r : Record) {cs : List Configuration} (hnodup : cs.Nodup)
    (g : Configuration → List Record) (hg : key r ∉ cs → g (key r) = []) :
    insert r (cs.map fun c => ⟨c, g c⟩) =
      (if key r ∈ cs then cs else cs ++ [key r]).map fun c =>
        ⟨c, if c = key r then g c ++ [r] else g c⟩ := by
  induction cs with
  | nil => simp [insert, hg]
  | cons c cs ih =>
    obtain ⟨hc, hcs⟩ := List.nodup_cons.mp hnodup
    by_cases h : c = key r
    · subst h
      -- the configuration occurs only here, so the other batches stay
      have htail : (cs.map fun c => (⟨c, if c = key r then g c ++ [r] else g c⟩ : Batch)) =
          cs.map fun c => ⟨c, g c⟩ := by
        refine List.map_congr_left fun c hmem => ?_
        have hne : c ≠ key r := fun heq => hc (heq ▸ hmem)
        rw [if_neg hne]
      rw [List.map_cons, insert, if_pos rfl, if_pos List.mem_cons_self, List.map_cons, htail,
        if_pos rfl]
    · have htail := ih hcs fun hmem => hg (by simp [Ne.symm h, hmem])
      rw [List.map_cons, insert, if_neg h, htail]
      have hmem : key r ∈ c :: cs ↔ key r ∈ cs := by simp [Ne.symm h]
      simp only [hmem]
      split <;> simp [h]

/-- The batches of records are the configurations that occur, each with its records. -/
theorem ofRecords_eq (rs : List Record) :
    ofRecords rs =
      ((rs.map key).eraseDups).map fun c => ⟨c, rs.filter fun r => decide (key r = c)⟩ := by
  induction rs using List.reverseRec with
  | nil => rfl
  | append_singleton rs r ih =>
    have hfold : ofRecords (rs ++ [r]) = insert r (ofRecords rs) := by simp [ofRecords]
    have hnone : key r ∉ (rs.map key).eraseDups →
        rs.filter (fun s => decide (key s = key r)) = [] := by
      intro h
      refine List.filter_eq_nil_iff.mpr fun s hs heq => h ?_
      rw [List.mem_eraseDups, ← of_decide_eq_true heq]
      exact List.mem_map_of_mem hs
    rw [hfold, ih, insert_map r (nodup_eraseDups _) _ hnone, List.map_append, List.map_singleton,
      eraseDups_concat]
    simp only [List.mem_eraseDups]
    refine List.map_congr_left fun c _ => ?_
    rw [List.filter_append]
    by_cases h : c = key r
    · simp [h]
    · simp [h, Ne.symm h]

theorem records_ne_nil_of_mem_ofRecords {rs : List Record} {b : Batch} (h : b ∈ ofRecords rs) :
    b.records ≠ [] := by
  rw [ofRecords_eq] at h
  obtain ⟨c, hc, rfl⟩ := List.mem_map.mp h
  obtain ⟨r, hr, rfl⟩ := List.mem_map.mp (List.mem_eraseDups.mp hc)
  exact List.ne_nil_of_mem (List.mem_filter.mpr ⟨hr, decide_eq_true rfl⟩)

theorem mem_of_mem_ofRecords {rs : List Record} {b : Batch} {r : Record} (h : b ∈ ofRecords rs)
    (hr : r ∈ b.records) : r ∈ rs := by
  rw [ofRecords_eq] at h
  obtain ⟨c, -, rfl⟩ := List.mem_map.mp h
  exact (List.mem_filter.mp hr).1

end Batch

/-- The value of a statistic, if there is one. -/
def Statistic.value? : Statistic → List Binary64 → Option Binary64
  | .median => Binary64.median?
  | .mean => Binary64.mean?

theorem Statistic.isSome_value?_iff (s : Statistic) {xs : List Binary64} :
    (s.value? xs).isSome ↔ xs ≠ [] := by
  cases s with
  | median => exact Binary64.isSome_median?_iff
  | mean => exact Binary64.isSome_mean?_iff

/-- Each record has a value for the field of a column, and the statistic of all of them is `x`. -/
def Column.Reduces (c : Column) (rs : List Record) (x : Binary64) : Prop :=
  ∃ vs : List Value, rs.map (fun r => r.get c.field) = vs.map some ∧
    c.statistic.value? (vs.map Value.toBinary64) = some x

namespace Batch

variable {q : Query} {rs : List Record} {f : Field}

theorem fieldValues_eq_ok_iff {xs : List Binary64} :
    fieldValues rs f = .ok xs ↔
      ∃ vs : List Value, rs.map (fun r => r.get f) = vs.map some ∧
        xs = vs.map Value.toBinary64 := by
  rw [fieldValues, mapM_eq_ok_iff]
  constructor
  · intro h
    induction h with
    | nil => exact ⟨[], rfl, rfl⟩
    | @cons r x rs xs hr _ ih =>
      obtain ⟨vs, hvs, rfl⟩ := ih
      cases hget : r.get f with
      | none => simp [hget] at hr
      | some v =>
        simp only [hget, Except.ok.injEq] at hr
        exact ⟨v :: vs, by simp [hget, hvs], by simp [hr]⟩
  · rintro ⟨vs, hvs, rfl⟩
    induction rs generalizing vs with
    | nil =>
      obtain rfl := List.map_eq_nil_iff.mp hvs.symm
      exact .nil
    | cons r rs ih =>
      cases vs with
      | nil => simp at hvs
      | cons v vs =>
        obtain ⟨hr, hrest⟩ := List.cons.inj hvs
        exact .cons (by simp [hr]) (ih vs hrest)

theorem exists_values (h : ∀ r ∈ rs, (r.get f).isSome) :
    ∃ vs : List Value, rs.map (fun r => r.get f) = vs.map some := by
  simp only [map_eq_map_some_iff, exists_forall₂_iff]
  exact fun r hr => Option.isSome_iff_exists.mp (h r hr)

theorem exists_value? (hrs : rs ≠ []) {vs : List Value}
    (hvs : rs.map (fun r => r.get f) = vs.map some) (s : Statistic) :
    ∃ x, s.value? (vs.map Value.toBinary64) = some x := by
  have hlength : rs.length = vs.length := by simpa using congrArg List.length hvs
  have hne : vs.map Value.toBinary64 ≠ [] := by
    intro hnil
    rw [List.map_eq_nil_iff.mp hnil] at hlength
    exact hrs (List.length_eq_zero_iff.mp hlength)
  exact Option.isSome_iff_exists.mp (s.isSome_value?_iff.mpr hne)

/-- A column of records is reduced without falling back on NaN. -/
theorem map_reduce_eq_ok_iff (hrs : rs ≠ []) {c : Column} {x : Binary64} :
    (fieldValues rs c.field).map (reduce c.statistic) = .ok x ↔ c.Reduces rs x := by
  have hreduce (xs : List Binary64) :
      reduce c.statistic xs = (c.statistic.value? xs).getD (.nan false) := by
    cases c.statistic <;> rfl
  rw [map_eq_ok_iff]
  constructor
  · rintro ⟨xs, hxs, rfl⟩
    obtain ⟨vs, hvs, rfl⟩ := fieldValues_eq_ok_iff.mp hxs
    obtain ⟨x, hx⟩ := exists_value? hrs hvs c.statistic
    exact ⟨vs, hvs, by rw [hreduce, hx, Option.getD_some]⟩
  · rintro ⟨vs, hvs, hx⟩
    exact ⟨_, fieldValues_eq_ok_iff.mpr ⟨vs, hvs, rfl⟩, by rw [hreduce, hx, Option.getD_some]⟩

/-- The summary of a batch with records has the statistic of each column. -/
theorem summarize_eq_ok_iff {b : Batch} {s : Summary} :
    summarize q b = .ok s ↔
      b.records ≠ [] ∧ s.config = b.config ∧
        List.Forall₂ (fun c x => c.Reduces b.records x) q.columns s.values := by
  rw [summarize]
  by_cases hrecords : b.records = []
  · simp [hrecords]
  · have hempty : b.records.isEmpty = false := by simpa using hrecords
    simp only [hempty, Bool.false_eq_true, if_false, map_eq_ok_iff, mapM_eq_ok_iff]
    constructor
    · rintro ⟨values, hvalues, rfl⟩
      exact ⟨hrecords, rfl, hvalues.imp fun _ _ h => (map_reduce_eq_ok_iff hrecords).mp h⟩
    · rintro ⟨-, hconfig, hvalues⟩
      refine ⟨s.values, hvalues.imp fun _ _ h => (map_reduce_eq_ok_iff hrecords).mpr h, ?_⟩
      rw [← hconfig]

theorem exists_summarize {b : Batch} (hrecords : b.records ≠ [])
    (h : ∀ c ∈ q.columns, ∀ r ∈ b.records, (r.get c.field).isSome) :
    ∃ s, summarize q b = .ok s := by
  have hcolumn : ∀ c ∈ q.columns, ∃ x, c.Reduces b.records x := by
    intro c hc
    obtain ⟨vs, hvs⟩ := exists_values (h c hc)
    obtain ⟨x, hx⟩ := exists_value? hrecords hvs c.statistic
    exact ⟨x, vs, hvs, hx⟩
  obtain ⟨values, hvalues⟩ := exists_forall₂_iff.mpr hcolumn
  exact ⟨⟨b.config, values⟩, summarize_eq_ok_iff.mpr ⟨hrecords, rfl, hvalues⟩⟩

end Batch

end TrialSummary
