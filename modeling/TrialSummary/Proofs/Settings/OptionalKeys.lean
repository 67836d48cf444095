import TrialSummary.Proofs.Settings.Kept
import TrialSummary.Run.SettingsFile

/-!
# Keys that may be left out

Keys can be taken out of a document that can be read, and what remains can be read too, with one
exception: the line offsets of a log have no defaults of their own, and a table of them must have
all three. What is taken out has its default then, and what remains is as it was.
-/

namespace TrialSummary

/-- All three line offsets are there. -/
def OffsetsComplete (v : Toml.Value) : Prop :=
  ∀ x ∈ ScanLines.all, v.names x.path = true

instance (v : Toml.Value) : Decidable (OffsetsComplete v) :=
  inferInstanceAs (Decidable (∀ x ∈ ScanLines.all, v.names x.path = true))

/-- The tables of line offsets among the settings of the logs are complete. -/
def LogComplete (v : Toml.Value) : Prop :=
  ∀ e ∈ v.entries, e.1 = "threshold" ∨ e.1 = "probabilistic" → OffsetsComplete e.2

instance (v : Toml.Value) : Decidable (LogComplete v) :=
  inferInstanceAs (Decidable (∀ e ∈ v.entries, e.1 = "threshold" ∨ e.1 = "probabilistic" →
    OffsetsComplete e.2))

namespace Decoder

variable {α β : Type} {key : String} {members : List (Member α)} {start : α}
  {es : Toml.Entries} {condition : Toml.Value → Prop}

/-- What a decoder can read it can still read after keys were taken out, provided that what remains
meets a condition. -/
def Survives (d : Decoder α) (condition : Toml.Value → Prop) : Prop :=
  ∀ removed v a, d v = .ok a →
    ((∃ a', d (v.without removed) = .ok a') ↔ condition (v.without removed))

/-- What fits a member still fits it after keys were taken out, provided that what remains meets a
condition. -/
def Member.Survives (m : Member α) (condition : Toml.Value → Prop) : Prop :=
  ∀ removed v, m.Accepts v → (m.Accepts (v.without removed) ↔ condition (v.without removed))

theorem Flat.survives {d : Decoder α} (hflat : d.Flat) : d.Survives fun _ => True := by
  intro removed v a h
  rw [hflat.without_eq h]
  exact iff_of_true ⟨a, h⟩ trivial

theorem survives_member {d : Decoder β} {store : β → α → α} (hd : d.Survives condition) :
    (member key d store).Survives condition := by
  intro removed v h
  have : Nonempty α := h.nonempty
  obtain ⟨b, hb⟩ := accepts_member.mp h
  exact accepts_member.trans (hd removed v b hb)

/-- A group can still be read exactly if each of its members can still be read. -/
theorem survives_group (name : String) (start : α) (conditionOf : String → Toml.Value → Prop)
    (hmembers : ∀ m ∈ members, m.Uniform ∧ m.Survives (conditionOf m.key))
    (hother : ∀ key v, (∀ m ∈ members, m.key ≠ key) → conditionOf key v) :
    (group name members start).Survives fun v => ∀ e ∈ v.entries, conditionOf e.1 e.2 := by
  intro removed v a h
  rcases v.exists_eq_table_or with ⟨origin, es, rfl⟩ | hne
  · have huniform : ∀ m ∈ members, m.Uniform := fun m hm => (hmembers m hm).1
    have hread := (exists_ofEntries_iff huniform start).mp ⟨a, h⟩
    refine (exists_ofEntries_iff huniform start).trans (forall₂_congr fun e he => ?_)
    obtain ⟨key, w'⟩ := e
    obtain ⟨-, w, hw, rfl⟩ := Toml.Entries.mem_without.mp he
    cases hfind : members.find? fun m => m.key == key with
    | none =>
      have hkey : ∀ m ∈ members, m.key ≠ key := by simpa using List.find?_eq_none.mp hfind
      exact iff_of_true (by simp) (hother key _ hkey)
    | some m =>
      obtain ⟨hm, rfl⟩ := key_of_find? hfind
      simpa using (hmembers m hm).2 _ w (hread _ hw m hfind)
  · rw [Toml.Value.without_eq_self hne]
    exact iff_of_true ⟨a, h⟩ (by simp [Toml.Value.entries_of_ne_table hne])

/-- A group whose members can always still be read can always still be read. -/
theorem survives_group_of_members (name : String) (start : α)
    (hmembers : ∀ m ∈ members, m.Uniform ∧ m.Survives fun _ => True) :
    (group name members start).Survives fun _ => True := by
  intro removed v a h
  have hgroup := survives_group name start (fun _ _ => True) hmembers (fun _ _ _ => trivial)
  simpa using hgroup removed v a h

theorem survives_input : input.Survives fun _ => True := by
  refine survives_group_of_members _ _ ?_
  simp [survives_member, flat_path.survives, flat_string.survives]

theorem survives_rates : rates.Survives fun _ => True := by
  refine survives_group_of_members _ _ ?_
  simp [survives_member, flat_unsigned32.survives]

theorem survives_sweep : sweep.Survives fun _ => True := by
  refine survives_group_of_members _ _ ?_
  simp [survives_member, (flat_list kind).survives, survives_rates,
    flat_unsigned32.survives]

theorem survives_primary : primary.Survives fun _ => True := by
  refine survives_group_of_members _ _ ?_
  simp [survives_member, flat_offset.survives]

theorem survives_partialOffsets : partialOffsets.Survives fun _ => True := by
  refine survives_group_of_members _ _ ?_
  simp [offsetMembers, survives_member, flat_offset.survives]

/-- A line offset is missing exactly if a table does not name it. -/
theorem Part.isSome_eq_names {get : α → Option Nat} {group : α}
    (hpart : Part members key given get) (hstart : get start = none)
    (h : ofEntries members start es = .ok group) :
    (get group).isSome = Toml.Entries.names [key] es := by
  obtain ⟨hnone, hsome⟩ := hpart.get_ofEntries h
  rw [Toml.Entries.names_cons]
  cases hlast : Toml.Entries.last? key es with
  | none => simp [hnone hlast, hstart]
  | some v =>
    obtain ⟨n, -, hn⟩ := map_eq_ok_iff.mp (hsome v hlast)
    simp [← hn]

theorem exists_logOffsets_iff {v : Toml.Value} {p : PartialOffsets}
    (hp : partialOffsets v = .ok p) :
    (∃ o, logOffsets v = .ok o) ↔ p.pgreq1.isSome ∧ p.pgreqR3.isSome ∧ p.pgreqS3.isSome := by
  simp only [logOffsets_eq_ok_iff, hp, Except.ok.injEq]
  constructor
  · rintro ⟨o, rfl⟩
    simp
  · obtain ⟨a, b, c⟩ := p
    rintro ⟨ha, hb, hc⟩
    obtain ⟨a, rfl⟩ := Option.isSome_iff_exists.mp ha
    obtain ⟨b, rfl⟩ := Option.isSome_iff_exists.mp hb
    obtain ⟨c, rfl⟩ := Option.isSome_iff_exists.mp hc
    exact ⟨⟨a, b, c⟩, rfl⟩

theorem survives_logOffsets : logOffsets.Survives OffsetsComplete := by
  intro removed v o h
  rcases v.exists_eq_table_or with ⟨origin, es, rfl⟩ | hne
  · -- What is left of the offsets can be read; the question is whether one is missing.
    obtain ⟨p, hp⟩ := (survives_partialOffsets removed _ _ (logOffsets_eq_ok_iff.mp h)).mpr trivial
    have h1 := part_pgreq1.isSome_eq_names rfl hp
    have hR := part_pgreqR3.isSome_eq_names rfl hp
    have hS := part_pgreqS3.isSome_eq_names rfl hp
    rw [exists_logOffsets_iff hp, h1, hR, hS]
    simp [OffsetsComplete, ScanLines.all, Toml.Value.names]
  · rw [Toml.Value.without_eq_self hne]
    exact iff_of_true ⟨o, h⟩ fun x _ => Toml.Value.names_of_ne_table hne x.path

theorem survives_log : log.Survives LogComplete := by
  refine survives_group _ _
    (fun key v => key = "threshold" ∨ key = "probabilistic" → OffsetsComplete v) ?_ ?_
  · simp [survives_member, flat_string.survives, flat_boolean.survives,
      survives_logOffsets]
  · rintro key v hother (rfl | rfl) <;> simp at hother

theorem survives_document :
    document.Survives fun v => ∀ e ∈ v.entries, e.1 = "log" → LogComplete e.2 := by
  refine survives_group _ _ (fun key v => key = "log" → LogComplete v) ?_ ?_
  · simp [groups, survives_member, survives_input, survives_sweep,
      survives_primary, survives_log]
  · rintro key v hother rfl
    simp [groups] at hother

end Decoder

namespace Settings

/-- The tables of line offsets that a document has are complete. -/
def OffsetTablesComplete (es : Toml.Entries) : Prop :=
  ∀ e ∈ es, e.1 = "log" → LogComplete e.2

instance (es : Toml.Entries) : Decidable (OffsetTablesComplete es) :=
  inferInstanceAs (Decidable (∀ e ∈ es, e.1 = "log" → LogComplete e.2))

/-- Keys can be taken out of a document. What remains can be read again exactly if no table of line
offsets has lost one of them but is still there. If it can be read, every setting that is still
named is what it was, and every other one has its default. -/
theorem ofDocument_without {es : Toml.Entries} {s : Settings} (h : ofDocument es = .ok s)
    (removed : List String → Bool) :
    ((∃ s', ofDocument (es.without removed) = .ok s') ↔
      OffsetTablesComplete (es.without removed)) ∧
    ∀ s', ofDocument (es.without removed) = .ok s' → ∀ x ∈ all,
      x.content s' = if (es.without removed).names x.path then x.content s else x.content {} :=
  ⟨Decoder.survives_document removed (.table .header es) s h,
    fun s' h' x hx => Decoder.keeps_document x hx removed (.table .header es) s s' h h'⟩

/-- Without its first rate and without a table of line offsets, a document still has its other
settings. -/
theorem ofDocument_without_first_rate :
    let es : Toml.Entries :=
      [("sweep", .table .header
          [("rates", .table .braces [("start", .integer 20), ("end", .integer 30)]),
            ("trials", .integer 3)]),
        ("log", .table .header
          [("threshold", .table .braces
              [("pgreq1", .integer 9), ("pgreqr3", .integer 8), ("pgreqs3", .integer 7)]),
            ("probabilistic_counter", .string "seen")])]
    let removed (path : List String) : Bool :=
      path ∈ [["sweep", "rates", "start"], ["log", "threshold"]]
    ofDocument es =
      .ok { sweep := { rates := ⟨20, 30, 10⟩, trials := 3 }
            log := { probabilisticCounter := "seen", threshold := ⟨9, 8, 7⟩ } } ∧
    ofDocument (es.without removed) =
      .ok { sweep := { rates := ⟨10, 30, 10⟩, trials := 3 }
            log := { probabilisticCounter := "seen" } } := by
  intro es removed
  have h : ofDocument es =
      .ok { sweep := { rates := ⟨20, 30, 10⟩, trials := 3 }
            log := { probabilisticCounter := "seen", threshold := ⟨9, 8, 7⟩ } } := by
    decide +kernel
  obtain ⟨hread, hcontent⟩ := ofDocument_without h removed
  obtain ⟨s', hs'⟩ := hread.mpr (by decide +kernel)
  refine ⟨h, hs'.trans (congrArg Except.ok (ext_all fun x hx => ?_))⟩
  rw [hcontent s' hs' x hx]
  revert x
  decide +kernel

/-- The first line offset cannot be taken out of its table: what remains of a document that sets
nothing but the defaults cannot be read. -/
theorem ofDocument_without_first_offset :
    let es : Toml.Entries :=
      [("log", .table .header
        [("threshold", .table .braces
          [("pgreq1", .integer 0), ("pgreqr3", .integer 4), ("pgreqs3", .integer 6)])])]
    let removed (path : List String) : Bool := path == ["log", "threshold", "pgreq1"]
    ofDocument es = .ok {} ∧
      ofDocument (es.without removed) = .error (.missingOffset .pgreq1) ∧
      ofText "[log]\nthreshold = \x7b pgreqr3 = 4, pgreqs3 = 6 \x7d\n" =
        .error (.data (.missingOffset .pgreq1)) := by
  decide +kernel

end Settings

end TrialSummary
