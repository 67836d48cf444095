import TrialSummary.Proofs.Settings.Groups

/-!
# Settings that remain

Settings are what the keys of a document say, key by key, and the default where a key is not there.
So after keys were taken out of a document, each setting that is still named is what it was, and the
others have their defaults. This goes from the groups inside to those around them: a group keeps
what its parts keep, and a value other than a table has nothing that could be taken out.

It says nothing about documents that can no longer be read, which a table of line offsets is as soon
as one of them is taken out.
-/

namespace TrialSummary

/-- The value of a single setting, of any of the five types. -/
inductive Setting.Content where
  | text (s : String)
  | kinds (ks : List TrialKind)
  | number (n : UInt32)
  | line (n : Nat)
  | flag (b : Bool)
  deriving DecidableEq

/-- A single setting of a group: the path of its key and what the group has for it. -/
structure Setting (α : Type) where
  path : List String
  content : α → Setting.Content

/-- A setting of a part of a group as one of the whole group. -/
def Setting.under {α β : Type} (key : String) (get : α → β) (x : Setting β) : Setting α :=
  ⟨key :: x.path, fun group => x.content (get group)⟩

def InputSettings.all : List (Setting InputSettings) :=
  [⟨["results_dir"], fun s => .text s.resultsDir⟩, ⟨["log_suffix"], fun s => .text s.logSuffix⟩]

def RateGrid.all : List (Setting RateGrid) :=
  [⟨["start"], fun r => .number r.first⟩, ⟨["end"], fun r => .number r.last⟩,
    ⟨["step"], fun r => .number r.step⟩]

def SweepSettings.all : List (Setting SweepSettings) :=
  [⟨["types"], fun s => .kinds s.kinds⟩] ++
    RateGrid.all.map (.under "rates" SweepSettings.rates) ++
    [⟨["trials"], fun s => .number s.trials⟩]

def PhaseLines.all : List (Setting PhaseLines) :=
  [⟨["phase1_row"], fun l => .line l.row1⟩, ⟨["phase1_time"], fun l => .line l.time1⟩,
    ⟨["phase2_row"], fun l => .line l.row2⟩, ⟨["phase2_time"], fun l => .line l.time2⟩,
    ⟨["phase3_count"], fun l => .line l.count3⟩, ⟨["phase3_time"], fun l => .line l.time3⟩]

def ScanLines.all : List (Setting ScanLines) :=
  [⟨["pgreq1"], fun o => .line o.pgreq1⟩, ⟨["pgreqr3"], fun o => .line o.pgreqR3⟩,
    ⟨["pgreqs3"], fun o => .line o.pgreqS3⟩]

def LogSettings.all : List (Setting LogSettings) :=
  [⟨["threshold_counter"], fun l => .text l.thresholdCounter⟩,
    ⟨["probabilistic_counter"], fun l => .text l.probabilisticCounter⟩] ++
    ScanLines.all.map (.under "threshold" LogSettings.threshold) ++
    ScanLines.all.map (.under "probabilistic" LogSettings.probabilistic) ++
    [⟨["adjust_probabilistic_rs"], fun l => .flag l.adjustProbabilisticRS⟩]

def Settings.all : List (Setting Settings) :=
  InputSettings.all.map (.under "input" Settings.input) ++
    SweepSettings.all.map (.under "sweep" Settings.sweep) ++
    PhaseLines.all.map (.under "primary" Settings.primary) ++
    LogSettings.all.map (.under "log" Settings.log)

theorem Settings.ext_all {s t : Settings} (h : ∀ x ∈ Settings.all, x.content s = x.content t) :
    s = t := by
  obtain ⟨⟨_, _⟩, ⟨_, ⟨_, _, _⟩, _⟩, ⟨_, _, _, _, _, _⟩, ⟨_, _, ⟨_, _, _⟩, ⟨_, _, _⟩, _⟩⟩ := s
  obtain ⟨⟨_, _⟩, ⟨_, ⟨_, _, _⟩, _⟩, ⟨_, _, _, _, _, _⟩, ⟨_, _, ⟨_, _, _⟩, ⟨_, _, _⟩, _⟩⟩ := t
  simpa [Settings.all, InputSettings.all, SweepSettings.all, RateGrid.all, PhaseLines.all,
    LogSettings.all, ScanLines.all, Setting.under, and_assoc] using h

namespace Decoder

variable {α β γ : Type} {name key : String} {members : List (Member α)} {start : α}

/-- A setting of what a decoder reads after keys were taken out: it is what it was if it is still
named, and otherwise as at the start. -/
def Keeps (d : Decoder α) (start : α) (x : Setting α) : Prop :=
  ∀ removed v a a', d v = .ok a → d (v.without removed) = .ok a' →
    x.content a' = if (v.without removed).names x.path then x.content a else x.content start

/-- A decoder that reads no tables. -/
def Flat (d : Decoder α) : Prop := ∀ origin es a, d (.table origin es) ≠ .ok a

/-- Taking keys out does not matter to a decoder that reads no tables. -/
theorem Flat.without_eq {d : Decoder α} (hflat : d.Flat) {v : Toml.Value} {a : α} (h : d v = .ok a)
    (removed : List String → Bool) : v.without removed = v := by
  refine Toml.Value.without_eq_self (fun origin es hv => ?_) removed
  rw [hv] at h
  exact hflat origin es a h

theorem Flat.keeps {d : Decoder α} (hflat : d.Flat) (start : α) (content : α → Setting.Content) :
    d.Keeps start ⟨[], content⟩ := by
  intro removed v a a' h h'
  rw [hflat.without_eq h, h] at h'
  cases h'
  simp

theorem Part.keeps {d : Decoder β} {get : α → β} (hpart : Part members key d get)
    {x : Setting β} (hd : d.Keeps (get start) x) :
    (group name members start).Keeps start (x.under key get) := by
  intro removed v a a' h h'
  rcases v.exists_eq_table_or with ⟨origin, es, rfl⟩ | hne
  · obtain ⟨-, hsome⟩ := hpart.get_ofEntries h
    obtain ⟨hnone', hsome'⟩ := hpart.get_ofEntries h'
    rw [Toml.Entries.last?_without] at hnone' hsome'
    rw [Toml.Value.without_table, Setting.under, Toml.Value.names, Toml.Entries.names_cons,
      Toml.Entries.last?_without]
    by_cases hremoved : removed [key]
    · simp [hremoved, hnone' (by simp [hremoved])]
    · cases hlast : Toml.Entries.last? key es with
      | none => simp [hremoved, hnone' (by simp [hlast])]
      | some w =>
        have hw := hd (fun path => removed (key :: path)) w _ _ (hsome w hlast)
          (hsome' _ (by simp [hremoved, hlast]))
        simpa [hremoved, hlast] using hw
  · rw [Toml.Value.without_eq_self hne, h] at h'
    cases h'
    rw [Toml.Value.without_eq_self hne, Toml.Value.names_of_ne_table hne, if_pos rfl]

/-- A group keeps the settings that are values of its keys themselves. -/
theorem Part.keeps_flat {d : Decoder β} (get : α → β) (content : β → Setting.Content)
    (hflat : d.Flat) (hpart : Part members key d get) :
    (group name members start).Keeps start ⟨[key], fun group => content (get group)⟩ :=
  hpart.keeps (hflat.keeps (get start) content)

/-- A group keeps the settings that its parts keep. -/
theorem Part.keeps_all {d : Decoder β} (get : α → β) (hpart : Part members key d get)
    {xs : List (Setting β)} (h : ∀ x ∈ xs, d.Keeps (get start) x) :
    ∀ x ∈ xs.map (Setting.under key get), (group name members start).Keeps start x := by
  intro x hx
  obtain ⟨y, hy, rfl⟩ := List.mem_map.mp hx
  exact hpart.keeps (h y hy)

theorem flat_string : string.Flat := fun _ _ _ h => by cases h

theorem flat_path : path.Flat := fun _ _ _ h => by cases h

theorem flat_unsigned32 : unsigned32.Flat := fun _ _ _ h => by cases h

theorem flat_offset : offset.Flat := fun _ _ _ h => by cases h

theorem flat_boolean : boolean.Flat := fun _ _ _ h => by cases h

theorem flat_list (item : Decoder α) : (list item).Flat := fun _ _ _ h => by cases h

theorem keeps_input : ∀ x ∈ InputSettings.all, input.Keeps {} x := by
  simp only [InputSettings.all, List.forall_mem_cons]
  exact ⟨Part.keeps_flat InputSettings.resultsDir .text flat_path (by constructor <;> simp),
    Part.keeps_flat InputSettings.logSuffix .text flat_string (by constructor <;> simp),
    List.forall_mem_nil _⟩

theorem keeps_rates : ∀ x ∈ RateGrid.all, rates.Keeps {} x := by
  simp only [RateGrid.all, List.forall_mem_cons]
  exact ⟨Part.keeps_flat RateGrid.first .number flat_unsigned32 (by constructor <;> simp),
    Part.keeps_flat RateGrid.last .number flat_unsigned32 (by constructor <;> simp),
    Part.keeps_flat RateGrid.step .number flat_unsigned32 (by constructor <;> simp),
    List.forall_mem_nil _⟩

theorem keeps_sweep : ∀ x ∈ SweepSettings.all, sweep.Keeps {} x := by
  simp only [SweepSettings.all, List.forall_mem_append, List.forall_mem_singleton, and_assoc]
  exact ⟨Part.keeps_flat SweepSettings.kinds .kinds (flat_list kind) (by constructor <;> simp),
    Part.keeps_all SweepSettings.rates (by constructor <;> simp) keeps_rates,
    Part.keeps_flat SweepSettings.trials .number flat_unsigned32 (by constructor <;> simp)⟩

theorem keeps_primary : ∀ x ∈ PhaseLines.all, primary.Keeps {} x := by
  simp only [PhaseLines.all, List.forall_mem_cons]
  exact ⟨Part.keeps_flat PhaseLines.row1 .line flat_offset (by constructor <;> simp),
    Part.keeps_flat PhaseLines.time1 .line flat_offset (by constructor <;> simp),
    Part.keeps_flat PhaseLines.row2 .line flat_offset (by constructor <;> simp),
    Part.keeps_flat PhaseLines.time2 .line flat_offset (by constructor <;> simp),
    Part.keeps_flat PhaseLines.count3 .line flat_offset (by constructor <;> simp),
    Part.keeps_flat PhaseLines.time3 .line flat_offset (by constructor <;> simp),
    List.forall_mem_nil _⟩

def offsetMembers : List (Member PartialOffsets) :=
  [member Field.pgreq1.name offset fun n g => { g with pgreq1 := some n },
    member Field.pgreqR3.name offset fun n g => { g with pgreqR3 := some n },
    member Field.pgreqS3.name offset fun n g => { g with pgreqS3 := some n }]

/-- The line offsets that a value gives, of which some may be missing. -/
def partialOffsets : Decoder PartialOffsets := group "LogOffsets" offsetMembers {}

/-- Line offsets can be read if none of them is missing. -/
theorem logOffsets_eq_ok_iff {v : Toml.Value} {o : ScanLines} :
    logOffsets v = .ok o ↔
      partialOffsets v = .ok ⟨some o.pgreq1, some o.pgreqR3, some o.pgreqS3⟩ := by
  have hbind : logOffsets v = .ok o ↔ ∃ p, partialOffsets v = .ok p ∧
      p = ⟨some o.pgreq1, some o.pgreqR3, some o.pgreqS3⟩ := by
    refine bind_eq_ok_iff.trans (exists_congr fun p => and_congr_right fun _ => ?_)
    obtain ⟨a, b, c⟩ := p
    obtain ⟨a', b', c'⟩ := o
    cases a <;> cases b <;> cases c <;> simp
  simp [hbind]

/-- What a value of a table of line offsets gives. -/
def given : Decoder (Option Nat) := fun v => (offset v).map some

theorem flat_given : given.Flat := fun _ _ _ h => by cases h

@[simp] theorem denotes_given {store : Nat → α → α} {get : α → Option Nat}
    (h : ∀ n group, get (store n group) = some n) :
    (member key offset store).Denotes given get := by
  intro v group group' hstore
  obtain ⟨n, hn, rfl⟩ := store_member_eq_ok_iff.mp hstore
  rw [h]
  exact map_eq_ok_iff.mpr ⟨n, hn, rfl⟩

theorem part_pgreq1 : Part offsetMembers "pgreq1" given PartialOffsets.pgreq1 := by
  constructor <;> simp [offsetMembers, Field.name]

theorem part_pgreqR3 : Part offsetMembers "pgreqr3" given PartialOffsets.pgreqR3 := by
  constructor <;> simp [offsetMembers, Field.name]

theorem part_pgreqS3 : Part offsetMembers "pgreqs3" given PartialOffsets.pgreqS3 := by
  constructor <;> simp [offsetMembers, Field.name]

/-- Line offsets keep each of the three. None of them is ever left out, so the start does not
matter. -/
theorem Part.keeps_offset {get : PartialOffsets → Option Nat} {line : ScanLines → Nat}
    (hpart : Part offsetMembers key given get) (hstart : get {} = none)
    (hline : ∀ o : ScanLines, get ⟨some o.pgreq1, some o.pgreqR3, some o.pgreqS3⟩ = some (line o))
    (start : ScanLines) : logOffsets.Keeps start ⟨[key], fun o => .line (line o)⟩ := by
  intro removed v o o' h h'
  have hkeeps : partialOffsets.Keeps {} ⟨[key], fun p => .line ((get p).getD (line start))⟩ :=
    Part.keeps_flat get (fun n => .line (n.getD (line start))) flat_given hpart
  have hkept := hkeeps removed v _ _ (logOffsets_eq_ok_iff.mp h) (logOffsets_eq_ok_iff.mp h')
  simpa [hline, hstart] using hkept

theorem keeps_logOffsets (start : ScanLines) : ∀ x ∈ ScanLines.all, logOffsets.Keeps start x := by
  simp only [ScanLines.all, List.forall_mem_cons]
  exact ⟨part_pgreq1.keeps_offset rfl (fun _ => rfl) start,
    part_pgreqR3.keeps_offset rfl (fun _ => rfl) start,
    part_pgreqS3.keeps_offset rfl (fun _ => rfl) start,
    List.forall_mem_nil _⟩

theorem keeps_log : ∀ x ∈ LogSettings.all, log.Keeps {} x := by
  simp only [LogSettings.all, List.forall_mem_append, List.forall_mem_cons, and_assoc]
  exact ⟨Part.keeps_flat LogSettings.thresholdCounter .text flat_string (by constructor <;> simp),
    Part.keeps_flat LogSettings.probabilisticCounter .text flat_string (by constructor <;> simp),
    List.forall_mem_nil _,
    Part.keeps_all LogSettings.threshold (by constructor <;> simp) (keeps_logOffsets _),
    Part.keeps_all LogSettings.probabilistic (by constructor <;> simp) (keeps_logOffsets _),
    Part.keeps_flat LogSettings.adjustProbabilisticRS .flag flat_boolean
      (by constructor <;> simp),
    List.forall_mem_nil _⟩

def document : Decoder Settings := group "BenchConfig" groups {}

theorem keeps_document : ∀ x ∈ Settings.all, document.Keeps {} x := by
  simp only [Settings.all, List.forall_mem_append, and_assoc]
  exact ⟨Part.keeps_all Settings.input (by constructor <;> simp [groups]) keeps_input,
    Part.keeps_all Settings.sweep (by constructor <;> simp [groups]) keeps_sweep,
    Part.keeps_all Settings.primary (by constructor <;> simp [groups]) keeps_primary,
    Part.keeps_all Settings.log (by constructor <;> simp [groups]) keeps_log⟩

end Decoder

end TrialSummary
