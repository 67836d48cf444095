import TrialSummary.Toml.Value

/-!
# Taking keys out of documents

Keys are taken out of the tables of a document by their paths, at any depth. A path goes through
tables only: it has no names for the items of an array. What remains of a table is found under the
keys that remain, with what remains of their values.

A document names a path if it gives a value to it, or gives a value other than a table to a key on
the way, which then stands for everything below.
-/

namespace TrialSummary.Toml

mutual

/-- What remains of a value without the keys at removed paths. -/
def Value.without (removed : List String → Bool) : Value → Value
  | .table origin es => .table origin (Entries.without removed es)
  | v => v

/-- What remains of a table without the keys at removed paths. -/
def Entries.without (removed : List String → Bool) : Entries → Entries
  | [] => []
  | (key, v) :: es =>
    if removed [key] then Entries.without removed es
    else (key, v.without fun path => removed (key :: path)) :: Entries.without removed es

end

theorem Value.exists_eq_table_or (v : Value) :
    (∃ origin es, v = .table origin es) ∨ ∀ origin es, v ≠ .table origin es := by
  cases v with
  | table origin es => exact .inl ⟨origin, es, rfl⟩
  | _ => exact .inr fun _ _ h => by cases h

/-- Values other than tables have no keys to take out. -/
theorem Value.without_eq_self {v : Value} (h : ∀ origin es, v ≠ .table origin es)
    (removed : List String → Bool) : v.without removed = v := by
  cases v with
  | table origin es => exact absurd rfl (h origin es)
  | _ => rfl

def Value.entries : Value → Entries
  | .table _ es => es
  | _ => []

theorem Value.entries_of_ne_table {v : Value} (h : ∀ origin es, v ≠ .table origin es) :
    v.entries = [] := by
  cases v with
  | table origin es => exact absurd rfl (h origin es)
  | _ => rfl

@[simp] theorem Value.without_table (removed : List String → Bool) (origin : TableOrigin)
    (es : Entries) : (Value.table origin es).without removed = .table origin (es.without removed) :=
  rfl

namespace Entries

variable {removed : List String → Bool} {key : String} {v : Value} {es : Entries}

/-- The entries that remain are those of the keys that remain. -/
theorem mem_without :
    (key, v) ∈ es.without removed ↔
      removed [key] = false ∧
        ∃ w, (key, w) ∈ es ∧ v = w.without fun path => removed (key :: path) := by
  induction es with
  | nil => simp [without]
  | cons e es ih =>
    obtain ⟨key', w⟩ := e
    rw [without]
    split
    · next hremoved =>
      rw [ih]
      refine and_congr_right fun hkey => ?_
      have hne : key ≠ key' := by
        rintro rfl
        simp [hremoved] at hkey
      simp [hne]
    · next hremoved =>
      rw [List.mem_cons, ih]
      constructor
      · rintro (heq | ⟨hkey, w', hmem, rfl⟩)
        · cases heq
          exact ⟨by simpa using hremoved, w, List.mem_cons_self, rfl⟩
        · exact ⟨hkey, w', List.mem_cons_of_mem _ hmem, rfl⟩
      · rintro ⟨hkey, w', hmem, rfl⟩
        rcases List.mem_cons.mp hmem with heq | hmem
        · cases heq
          exact .inl rfl
        · exact .inr ⟨hkey, w', hmem, rfl⟩

/-- The value of a key. If a key had several of them, the last one would count. -/
def last? (key : String) : Entries → Option Value
  | [] => none
  | e :: es => (last? key es).or (if e.1 = key then some e.2 else none)

theorem last?_without :
    (es.without removed).last? key =
      if removed [key] then none
      else (es.last? key).map (Value.without fun path => removed (key :: path)) := by
  induction es with
  | nil => simp [without, last?]
  | cons e es ih =>
    obtain ⟨key', w⟩ := e
    rw [without, last?]
    by_cases hkey : key' = key
    · subst hkey
      by_cases hremoved : removed [key'] <;> simp [hremoved, ih, last?]
    · by_cases hremoved : removed [key'] <;> simp [hremoved, ih, last?, hkey]

/-- Whether the entries give a value to what stands at a path. -/
def names : List String → Entries → Bool
  | [], _ => true
  | key :: path, es =>
    match es.last? key with
    | none => false
    | some (.table _ inner) => names path inner
    | some _ => true

end Entries

/-- Whether a value gives one to what stands at a path below it. -/
def Value.names (path : List String) : Value → Bool
  | .table _ es => Entries.names path es
  | _ => true

@[simp] theorem Value.names_nil (v : Value) : v.names [] = true := by
  cases v <;> rfl

theorem Value.names_of_ne_table {v : Value} (h : ∀ origin es, v ≠ .table origin es)
    (path : List String) : v.names path = true := by
  cases v with
  | table origin es => exact absurd rfl (h origin es)
  | _ => rfl

theorem Entries.names_cons (key : String) (path : List String) (es : Entries) :
    es.names (key :: path) = ((es.last? key).map (Value.names path)).getD false := by
  rw [names]
  cases es.last? key with
  | none => rfl
  | some v => cases v <;> rfl

end TrialSummary.Toml
