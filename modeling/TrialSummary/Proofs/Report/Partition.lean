import TrialSummary.Proofs.Report.Batches

/-!
# The partition into batches

Two facts determine the batches of some records: their configurations are those of the records, each
once and in the order in which they first appear, and each batch has exactly the records of its
configuration, in their order. The rest follows from these. In particular no record is lost or taken
twice, and the records of the batches, which now stand batch by batch, are put into the same batches
again.
-/

namespace TrialSummary.Batch

/-- What the batches of a list of records are, however they are found. -/
structure PartitionOf (rs : List Record) (bs : List Batch) : Prop where
  configs_eq : bs.map Batch.config = (rs.map key).eraseDups
  records_eq : ∀ b ∈ bs, b.records = rs.filter fun r => decide (key r = b.config)

theorem partitionOf_ofRecords (rs : List Record) : PartitionOf rs (ofRecords rs) where
  configs_eq := by
    rw [ofRecords_eq, List.map_map]
    exact List.map_id' _
  records_eq := by
    intro b hb
    rw [ofRecords_eq] at hb
    obtain ⟨c, -, rfl⟩ := List.mem_map.mp hb
    rfl

namespace PartitionOf

variable {rs : List Record} {bs : List Batch}

theorem eq_ofRecords (h : PartitionOf rs bs) : bs = ofRecords rs := by
  rw [ofRecords_eq, ← h.configs_eq, List.map_map]
  have hself : ∀ b ∈ bs,
      b = (⟨b.config, rs.filter fun r => decide (key r = b.config)⟩ : Batch) := by
    intro b hb
    rw [← h.records_eq b hb]
  exact (List.map_id' bs).symm.trans (List.map_congr_left hself)

theorem nodup_configs (h : PartitionOf rs bs) : (bs.map Batch.config).Nodup := by
  rw [h.configs_eq]
  exact nodup_eraseDups _

theorem key_eq (h : PartitionOf rs bs) {b : Batch} (hb : b ∈ bs) :
    ∀ r ∈ b.records, key r = b.config := by
  intro r hr
  rw [h.records_eq b hb] at hr
  exact of_decide_eq_true (List.mem_filter.mp hr).2

theorem records_ne_nil (h : PartitionOf rs bs) {b : Batch} (hb : b ∈ bs) : b.records ≠ [] := by
  rw [h.eq_ofRecords] at hb
  exact records_ne_nil_of_mem_ofRecords hb

/-- The batches together have every record as often as the list. -/
theorem perm (h : PartitionOf rs bs) : (bs.flatMap Batch.records).Perm rs := by
  have hkeys : ∀ r ∈ rs, key r ∈ bs.map Batch.config := by
    intro r hr
    rw [h.configs_eq, List.mem_eraseDups]
    exact List.mem_map_of_mem hr
  have hparts : bs.flatMap Batch.records =
      (bs.map Batch.config).flatMap fun c => rs.filter fun r => decide (key r = c) := by
    rw [List.flatMap_map]
    exact List.flatMap_congr h.records_eq
  rw [hparts]
  exact perm_flatMap_filter h.nodup_configs hkeys

/-- Batches are a partition of their own records as well. -/
theorem flatMap_records (h : PartitionOf rs bs) : PartitionOf (bs.flatMap Batch.records) bs where
  configs_eq := by
    have hkeys : (bs.flatMap Batch.records).map key =
        bs.flatMap fun b => List.replicate b.records.length b.config := by
      rw [List.map_flatMap]
      refine List.flatMap_congr fun b hb => ?_
      rw [List.eq_replicate_iff, List.length_map]
      exact ⟨rfl, List.forall_mem_map.mpr (h.key_eq hb)⟩
    have hlength : ∀ b ∈ bs, b.records.length ≠ 0 :=
      fun b hb hzero => h.records_ne_nil hb (List.length_eq_zero_iff.mp hzero)
    rw [hkeys, eraseDups_flatMap_replicate _ _ hlength, eraseDups_of_nodup h.nodup_configs]
  records_eq := by
    intro b hb
    exact (filter_flatMap_part h.nodup_configs (fun b hb => h.key_eq hb) hb).symm

end PartitionOf

/-- The batches of records: none is empty, all records of one have its configuration and no two have
the same, the configurations are those of the records in the order in which they first appear, and
each has exactly the records of its configuration, in their order. Together they have the records
and no others, each as often as it is there, and batching these gives the same batches. -/
theorem ofRecords_partition (rs : List Record) :
    (∀ b ∈ ofRecords rs, b.records ≠ [] ∧ ∀ r ∈ b.records, r.trial.config = b.config) ∧
    ((ofRecords rs).map Batch.config).Nodup ∧
    (ofRecords rs).map Batch.config = (rs.map fun r => r.trial.config).eraseDups ∧
    (∀ b ∈ ofRecords rs, b.records = rs.filter fun r => decide (r.trial.config = b.config)) ∧
    ((ofRecords rs).flatMap Batch.records).Perm rs ∧
    ofRecords ((ofRecords rs).flatMap Batch.records) = ofRecords rs := by
  have h := partitionOf_ofRecords rs
  refine ⟨fun b hb => ⟨h.records_ne_nil hb, h.key_eq hb⟩, h.nodup_configs, h.configs_eq,
    h.records_eq, h.perm, ?_⟩
  exact h.flatMap_records.eq_ofRecords.symm

/-- A configuration that comes back joins its batch. -/
example :
    let t : Configuration := ⟨.threshold, 10⟩
    let p : Configuration := ⟨.probabilistic, 10⟩
    let batches := ofRecords [.empty ⟨t, 0⟩, .empty ⟨p, 0⟩, .empty ⟨t, 1⟩]
    batches.map (fun b => b.records.map Record.trial) = [[⟨t, 0⟩, ⟨t, 1⟩], [⟨p, 0⟩]] := by
  decide

end TrialSummary.Batch
