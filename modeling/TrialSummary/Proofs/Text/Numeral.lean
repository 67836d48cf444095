import Mathlib.Algebra.Group.Nat.Defs
import TrialSummary.Text.Blank
import TrialSummary.Text.Numeral

/-!
# Reading what has been written

An integer reads back from its numeral, and blanks around a text without blanks are all that
trimming takes away. A run of characters ends where a text does not go on with one of their kind;
the runs of digits in a number are cut out with that rule.
-/

namespace TrialSummary.Text

/-- A text does not go on with a character of the given kind. -/
def StopsRun (p : Char → Bool) (rest : List Char) : Prop := ∀ c, rest.head? = some c → p c = false

section Run

variable {p : Char → Bool} {run rest : List Char}

@[simp] theorem stopsRun_nil : StopsRun p [] := by
  intro c h
  simp at h

@[simp] theorem stopsRun_cons {c : Char} : StopsRun p (c :: rest) ↔ p c = false := by
  simp [StopsRun]

theorem StopsRun.takeWhile_eq_nil (h : StopsRun p rest) : rest.takeWhile p = [] := by
  cases rest with
  | nil => rfl
  | cons c cs => simp [stopsRun_cons.mp h]

theorem StopsRun.dropWhile_eq_self (h : StopsRun p rest) : rest.dropWhile p = rest := by
  cases rest with
  | nil => rfl
  | cons c cs => simp [stopsRun_cons.mp h]

theorem takeWhile_run (hrun : ∀ c ∈ run, p c = true) (h : StopsRun p rest) :
    (run ++ rest).takeWhile p = run := by
  rw [List.takeWhile_append_of_pos hrun, h.takeWhile_eq_nil, List.append_nil]

theorem dropWhile_run (hrun : ∀ c ∈ run, p c = true) (h : StopsRun p rest) :
    (run ++ rest).dropWhile p = rest := by
  rw [List.dropWhile_append_of_pos hrun, h.dropWhile_eq_self]

theorem stopsRun_dropWhile (cs : List Char) : StopsRun p (cs.dropWhile p) := by
  intro c hc
  have := List.head?_dropWhile_not p cs
  rwa [hc] at this

/-- What ends two runs of one kind shows where they end. -/
theorem run_append_eq_iff {run' rest' : List Char} (hrun : ∀ c ∈ run, p c = true)
    (hrun' : ∀ c ∈ run', p c = true) (h : StopsRun p rest) (h' : StopsRun p rest') :
    run ++ rest = run' ++ rest' ↔ run = run' ∧ rest = rest' := by
  constructor
  · intro heq
    have htake := congrArg (List.takeWhile p) heq
    have hdrop := congrArg (List.dropWhile p) heq
    rw [takeWhile_run hrun h, takeWhile_run hrun' h'] at htake
    rw [dropWhile_run hrun h, dropWhile_run hrun' h'] at hdrop
    exact ⟨htake, hdrop⟩
  · rintro ⟨rfl, rfl⟩
    rfl

end Run

section Trim

variable {front text back : List Char}

theorem trim_blanks_around (hfront : ∀ c ∈ front, isBlank c = true)
    (hback : ∀ c ∈ back, isBlank c = true) (htext : ∀ c ∈ text, isBlank c = false) :
    trim (front ++ text ++ back) = text := by
  have hreverse : ∀ c ∈ back.reverse, isBlank c = true := by simpa using hback
  have hend : StopsRun isBlank text.reverse := by
    intro c hc
    exact htext c (List.mem_reverse.mp (List.mem_of_head? hc))
  cases text with
  | nil =>
    have hall : ∀ c ∈ front ++ [] ++ back, isBlank c = true := by
      intro c hc
      simp only [List.append_nil, List.mem_append] at hc
      exact hc.elim (hfront c) (hback c)
    have hdrop := dropWhile_run hall stopsRun_nil
    rw [List.append_nil] at hdrop
    rw [trim, trimStart, hdrop]
    rfl
  | cons c cs =>
    have hstart : StopsRun isBlank (c :: cs ++ back) := stopsRun_cons.mpr (htext c (by simp))
    rw [trim, trimStart, List.append_assoc, dropWhile_run hfront hstart, trimEnd,
      List.reverse_append, dropWhile_run hreverse hend, List.reverse_reverse]

end Trim

theorem isBlank_eq_false {c : Char} (hlow : 0x21 ≤ c.toNat) (hhigh : c.toNat ≤ 0x7e) :
    isBlank c = false := by
  rw [Bool.eq_false_iff]
  intro h
  obtain ⟨r, hr, hle, hge⟩ := CodePoints.contains_iff.mp h
  simp only [blanks, List.mem_cons, List.not_mem_nil, or_false] at hr
  rcases hr with rfl | rfl | rfl | rfl | rfl | rfl | rfl | rfl | rfl | rfl <;>
    simp only at hle hge <;> omega

theorem toNat_of_isDigit {c : Char} (h : c.isDigit = true) : 48 ≤ c.toNat ∧ c.toNat ≤ 57 := by
  simpa [Char.isDigit, UInt32.le_iff_toNat_le] using h

theorem isDigit_toDigits (n : Nat) : ∀ c ∈ Nat.toDigits 10 n, c.isDigit = true :=
  fun _ hc => Nat.isDigit_of_mem_toDigits (by decide) (by decide) hc

theorem digitsValue_append (as bs : List Char) :
    digitsValue (as ++ bs) = digitsValue as * 10 ^ bs.length + digitsValue bs := by
  rw [digitsValue, Nat.ofDigitChars_append, Nat.ofDigitChars_eq_ofDigitChars_zero, Nat.mul_comm]
  rfl

theorem digitsValue_singleton (d : Char) : digitsValue [d] = d.toNat - 48 := by
  simp [digitsValue, Nat.ofDigitChars]

theorem digitsValue_lt {ds : List Char} (h : ∀ d ∈ ds, d.isDigit = true) :
    digitsValue ds < 10 ^ ds.length := by
  induction ds with
  | nil => simp
  | cons d ds ih =>
    have hrange := toNat_of_isDigit (h d List.mem_cons_self)
    have hrest := ih fun c hc => h c (List.mem_cons_of_mem _ hc)
    have hfirst : (d.toNat - 48) * 10 ^ ds.length ≤ 9 * 10 ^ ds.length :=
      Nat.mul_le_mul_right _ (by omega)
    rw [← List.singleton_append, digitsValue_append, digitsValue_singleton, List.singleton_append,
      List.length_cons, Nat.pow_succ]
    omega

theorem toDigits_injective : Function.Injective (Nat.toDigits 10) := by
  intro m n h
  calc
    m = digitsValue (Nat.toDigits 10 m) := (digitsValue_toDigits m).symm
    _ = digitsValue (Nat.toDigits 10 n) := by rw [h]
    _ = n := digitsValue_toDigits n

theorem digitChar_toNat_sub {c : Char} (h : c.isDigit = true) :
    Nat.digitChar (c.toNat - 48) = c := by
  have hrange := toNat_of_isDigit h
  apply Char.toNat_inj.mp
  rw [Nat.toNat_digitChar_of_lt_ten (by omega)]
  omega

/-- Digits behind the numeral of a positive number make the numeral of another number. -/
theorem exists_toDigits_append {n : Nat} (hn : 0 < n) {ds : List Char}
    (hds : ∀ d ∈ ds, d.isDigit = true) : ∃ m, Nat.toDigits 10 n ++ ds = Nat.toDigits 10 m := by
  induction ds generalizing n with
  | nil => exact ⟨n, List.append_nil _⟩
  | cons d ds ih =>
    have hd := hds d List.mem_cons_self
    have hrange := toNat_of_isDigit hd
    have hlt : d.toNat - 48 < 10 := by omega
    have happend := Nat.toDigits_append_toDigits (by decide : 1 < 10) hn hlt
    rw [Nat.toDigits_of_lt_base hlt, digitChar_toNat_sub hd] at happend
    obtain ⟨m, hm⟩ := ih (n := 10 * n + (d.toNat - 48)) (by omega)
      (fun c hc => hds c (List.mem_cons_of_mem _ hc))
    refine ⟨m, ?_⟩
    calc
      Nat.toDigits 10 n ++ d :: ds = (Nat.toDigits 10 n ++ [d]) ++ ds := by simp
      _ = Nat.toDigits 10 (10 * n + (d.toNat - 48)) ++ ds := by rw [happend]
      _ = Nat.toDigits 10 m := hm

@[simp] theorem digitsValue_zeros (n : Nat) : digitsValue (List.replicate n '0') = 0 := by
  simp [digitsValue]

theorem splitSign_of_isDigit {c : Char} {cs : List Char} (h : c.isDigit = true) :
    splitSign (c :: cs) = (false, c :: cs) := by
  have hrange := toNat_of_isDigit h
  unfold splitSign
  split
  · next heq => simp_all
  · next heq => simp_all
  · rfl

theorem splitSign_of_digits {cs : List Char} (h : ∀ c ∈ cs, c.isDigit = true) :
    splitSign cs = (false, cs) := by
  cases cs with
  | nil => rfl
  | cons c cs => exact splitSign_of_isDigit (h c (by simp))

theorem readNat?_of_digits {cs : List Char} (hne : cs ≠ []) (h : ∀ c ∈ cs, c.isDigit = true) :
    readNat? cs = some (digitsValue cs) := by
  have hall : cs.all Char.isDigit = true := List.all_eq_true.mpr h
  simp [readNat?, hne, hall]

theorem readInt?_of_digits {cs : List Char} (hne : cs ≠ []) (h : ∀ c ∈ cs, c.isDigit = true) :
    readInt? cs = some (digitsValue cs : Int) := by
  simp [readInt?, splitSign_of_digits h, readNat?_of_digits hne h]

theorem readInt64?_of_digits {cs : List Char} (hne : cs ≠ []) (h : ∀ c ∈ cs, c.isDigit = true)
    (hmax : (digitsValue cs : Int) ≤ Int64.maxValue.toInt) :
    readInt64? cs = some (Int64.ofInt (digitsValue cs)) := by
  have hmin : Int64.minValue.toInt ≤ (digitsValue cs : Int) :=
    Int.le_trans (by decide) (Int.natCast_nonneg _)
  simp only [readInt64?, readInt?_of_digits hne h, Option.bind_some, if_pos (And.intro hmin hmax)]

/-- What is read without a sign in front is digits with a value in range. -/
theorem digits_of_readInt64? {cs : List Char} {n : Int64} (hsign : splitSign cs = (false, cs))
    (h : readInt64? cs = some n) :
    (∀ c ∈ cs, c.isDigit = true) ∧ (digitsValue cs : Int) ≤ Int64.maxValue.toInt ∧
      n = Int64.ofInt (digitsValue cs) := by
  obtain ⟨z, hz, hn⟩ := Option.bind_eq_some_iff.mp h
  simp only [readInt?, hsign, Bool.false_eq_true, if_false] at hz
  obtain ⟨m, hm, rfl⟩ := Option.map_eq_some_iff.mp hz
  rw [readNat?] at hm
  split at hm
  · next hdigits =>
    obtain ⟨-, hall⟩ := Bool.and_eq_true_iff.mp hdigits
    cases hm
    split at hn
    · next hrange =>
      cases hn
      exact ⟨List.all_eq_true.mp hall, hrange.2, rfl⟩
    · cases hn
  · cases hm

@[simp] theorem readInt?_writeInt (z : Int) : readInt? (writeInt z) = some z := by
  have hread := readNat?_of_digits Nat.toDigits_ne_nil (isDigit_toDigits z.natAbs)
  by_cases hz : z < 0
  · have hneg : -(z.natAbs : Int) = z := by omega
    simp only [writeInt, if_pos hz, readInt?, splitSign, hread, digitsValue_toDigits]
    exact congrArg some hneg
  · have hpos : (z.natAbs : Int) = z := by omega
    simp only [writeInt, if_neg hz, readInt?, splitSign_of_digits (isDigit_toDigits _), hread,
      digitsValue_toDigits]
    exact congrArg some hpos

/-- An integer has nothing but digits behind its sign. -/
theorem readInt64?_eq_none_of_mem {c : Char} {cs : List Char} (hc : c ∈ cs)
    (hdigit : c.isDigit = false) (hplus : c ≠ '+') (hminus : c ≠ '-') : readInt64? cs = none := by
  have hbody : c ∈ (splitSign cs).2 := by
    unfold splitSign
    split
    · exact List.mem_of_ne_of_mem hplus hc
    · exact List.mem_of_ne_of_mem hminus hc
    · exact hc
  have hall : (splitSign cs).2.all Char.isDigit = false := by
    rw [List.all_eq_false]
    exact ⟨c, hbody, by simp [hdigit]⟩
  have hread : readInt? cs = none := by
    simp [readInt?, readNat?, hall]
  rw [readInt64?, hread, Option.bind_none]

@[simp] theorem readInt64?_writeInt (n : Int64) : readInt64? (writeInt n.toInt) = some n := by
  have hrange : Int64.minValue.toInt ≤ n.toInt ∧ n.toInt ≤ Int64.maxValue.toInt :=
    ⟨n.minValue_le_toInt, n.toInt_le⟩
  simp only [readInt64?, readInt?_writeInt, Option.bind_some, if_pos hrange, Int64.ofInt_toInt]

end TrialSummary.Text
