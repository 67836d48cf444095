import TrialSummary.Proofs.Toml.Removal
import TrialSummary.Proofs.Traversal
import TrialSummary.Settings.Decode

/-!
# Reading groups of settings

The entries of a table are stored one after the other, and each of them changes the part of the
group that belongs to its key. So a table can be read exactly if each of its values fits the member
with its key, and what a part of the group is afterwards depends on the value of one key alone: it
is what this value denotes, or what it was at the start if there is no value.
-/

namespace TrialSummary.Decoder

variable {α β γ : Type} {members : List (Member α)} {key : String} {es : Toml.Entries}

/-- A value fits a member if it can be stored in some group. -/
def Member.Accepts (m : Member α) (v : Toml.Value) : Prop :=
  ∃ group group', m.store v group = .ok group'

/-- Whether a value can be stored does not depend on the group. -/
def Member.Uniform (m : Member α) : Prop :=
  ∀ v, m.Accepts v → ∀ group, ∃ group', m.store v group = .ok group'

theorem Member.Accepts.nonempty {m : Member α} {v : Toml.Value} (h : m.Accepts v) : Nonempty α :=
  let ⟨group, _⟩ := h
  ⟨group⟩

theorem store_member_eq_ok_iff {d : Decoder β} {store : β → α → α} {v : Toml.Value}
    {group group' : α} :
    (member key d store).store v group = .ok group' ↔ ∃ b, d v = .ok b ∧ store b group = group' :=
  map_eq_ok_iff

theorem accepts_member [Nonempty α] {d : Decoder β} {store : β → α → α} {v : Toml.Value} :
    (member key d store).Accepts v ↔ ∃ b, d v = .ok b := by
  constructor
  · rintro ⟨group, group', h⟩
    obtain ⟨b, hb, -⟩ := store_member_eq_ok_iff.mp h
    exact ⟨b, hb⟩
  · rintro ⟨b, hb⟩
    obtain ⟨group⟩ := ‹Nonempty α›
    exact ⟨group, _, store_member_eq_ok_iff.mpr ⟨b, hb, rfl⟩⟩

@[simp] theorem uniform_member (d : Decoder β) (store : β → α → α) :
    (member key d store).Uniform := by
  rintro v ⟨group, group', h⟩ other
  obtain ⟨b, hb, -⟩ := store_member_eq_ok_iff.mp h
  exact ⟨_, store_member_eq_ok_iff.mpr ⟨b, hb, rfl⟩⟩

/-- Store the value of a key, unless no member has it. -/
def storeEntry (members : List (Member α)) (group : α) (e : String × Toml.Value) :
    Except DataFault α :=
  match members.find? fun m => m.key == e.1 with
  | some m => m.store e.2 group
  | none => .ok group

theorem ofEntries_cons (group : α) (e : String × Toml.Value) (es : Toml.Entries) :
    ofEntries members group (e :: es) =
      storeEntry members group e >>= fun group => ofEntries members group es :=
  List.foldlM_cons

theorem key_of_find? {m : Member α} (h : members.find? (fun m => m.key == key) = some m) :
    m ∈ members ∧ m.key = key := by
  have hkey := List.find?_some h
  exact ⟨List.mem_of_find?_eq_some h, eq_of_beq hkey⟩

/-- A table can be read exactly if each value fits the member with its key, if there is one. -/
theorem exists_ofEntries_iff (huniform : ∀ m ∈ members, m.Uniform) (start : α) :
    (∃ group, ofEntries members start es = .ok group) ↔
      ∀ e ∈ es, ∀ m, members.find? (fun m => m.key == e.1) = some m → m.Accepts e.2 := by
  induction es generalizing start with
  | nil => exact iff_of_true ⟨start, rfl⟩ (by simp)
  | cons e es ih =>
    rw [List.forall_mem_cons, ofEntries_cons, storeEntry]
    simp only [bind_eq_ok_iff]
    cases hfind : members.find? fun m => m.key == e.1 with
    | none =>
      constructor
      · rintro ⟨group, _, -, h⟩
        exact ⟨by simp, (ih _).mp ⟨group, h⟩⟩
      · rintro ⟨-, h⟩
        obtain ⟨group, hgroup⟩ := (ih start).mpr h
        exact ⟨group, start, rfl, hgroup⟩
    | some m =>
      constructor
      · rintro ⟨group, middle, hm, h⟩
        refine ⟨?_, (ih _).mp ⟨group, h⟩⟩
        rintro _ ⟨⟩
        exact ⟨start, middle, hm⟩
      · rintro ⟨haccepts, h⟩
        obtain ⟨hmember, -⟩ := key_of_find? hfind
        obtain ⟨middle, hm⟩ := huniform m hmember e.2 (haccepts m rfl) start
        obtain ⟨group, hgroup⟩ := (ih middle).mpr h
        exact ⟨group, middle, hm, hgroup⟩

/-- Storing a value makes a part of the group what a decoder reads from it. -/
def Member.Denotes (m : Member α) (d : Decoder β) (get : α → β) : Prop :=
  ∀ v group group', m.store v group = .ok group' → d v = .ok (get group')

/-- Storing a value leaves a part of the group as it is. -/
def Member.Spares (m : Member α) (get : α → β) : Prop :=
  ∀ v group group', m.store v group = .ok group' → get group' = get group

@[simp] theorem key_member (d : Decoder β) (store : β → α → α) : (member key d store).key = key :=
  rfl

@[simp] theorem denotes_member {d : Decoder β} {store : β → α → α} {get : α → β}
    (h : ∀ b group, get (store b group) = b) : (member key d store).Denotes d get := by
  intro v group group' hstore
  obtain ⟨b, hb, rfl⟩ := store_member_eq_ok_iff.mp hstore
  rw [h, hb]

@[simp] theorem spares_member {d : Decoder β} {store : β → α → α} {get : α → γ}
    (h : ∀ b group, get (store b group) = get group) : (member key d store).Spares get := by
  intro v group group' hstore
  obtain ⟨b, -, rfl⟩ := store_member_eq_ok_iff.mp hstore
  exact h b group

/-- A part of a group: the members with a certain key store in it what a decoder reads, and the
others leave it as it is. -/
structure Part (members : List (Member α)) (key : String) (d : Decoder β) (get : α → β) : Prop where
  exists_key : ∃ m ∈ members, m.key = key
  denotes : ∀ m ∈ members, m.key = key → m.Denotes d get
  spares : ∀ m ∈ members, m.key ≠ key → m.Spares get

namespace Part

variable {d : Decoder β} {get : α → β}

theorem get_storeEntry_of_ne (hpart : Part members key d get) {e : String × Toml.Value}
    {group group' : α} (h : storeEntry members group e = .ok group') (hkey : e.1 ≠ key) :
    get group' = get group := by
  rw [storeEntry] at h
  split at h
  · next m hfind =>
    obtain ⟨hmember, hm⟩ := key_of_find? hfind
    exact hpart.spares m hmember (by rwa [hm]) _ _ _ h
  · cases h
    rfl

theorem get_storeEntry (hpart : Part members key d get) {v : Toml.Value} {group group' : α}
    (h : storeEntry members group (key, v) = .ok group') : d v = .ok (get group') := by
  rw [storeEntry] at h
  split at h
  · next m hfind =>
    obtain ⟨hmember, hm⟩ := key_of_find? hfind
    exact hpart.denotes m hmember hm _ _ _ h
  · next hfind =>
    obtain ⟨m, hmember, hm⟩ := hpart.exists_key
    simpa [hm] using List.find?_eq_none.mp hfind m hmember

/-- A part of the group that a table is read into is what the value of its key denotes, or what it
was at the start. -/
theorem get_ofEntries (hpart : Part members key d get) {start group : α}
    (h : ofEntries members start es = .ok group) :
    (es.last? key = none → get group = get start) ∧
      ∀ v, es.last? key = some v → d v = .ok (get group) := by
  induction es generalizing start with
  | nil =>
    cases h
    exact ⟨fun _ => rfl, fun v hv => by cases hv⟩
  | cons e es ih =>
    obtain ⟨key', v⟩ := e
    rw [ofEntries_cons] at h
    obtain ⟨middle, hmiddle, hrest⟩ := bind_eq_ok_iff.mp h
    obtain ⟨hnone, hsome⟩ := ih hrest
    by_cases hkey : key' = key
    · subst hkey
      cases hlast : Toml.Entries.last? key' es with
      | none => simp [Toml.Entries.last?, hlast, hnone hlast, hpart.get_storeEntry hmiddle]
      | some w => simp [Toml.Entries.last?, hlast, hsome w hlast]
    · have hsame : get middle = get start := hpart.get_storeEntry_of_ne hmiddle hkey
      simpa [Toml.Entries.last?, hkey, ← hsame] using And.intro hnone hsome

end Part

end TrialSummary.Decoder
