import TrialSummary.Proofs.Text.Numeral
import TrialSummary.Trial.Identity

/-!
# Texts of trials

The text of a trial can be read in one way only, because the dash that ends a number is no digit.
This stays true if something is written behind the text, except that digits behind it make another
trial number. How many digits there can be follows from the range of trial numbers.
-/

namespace TrialSummary

theorem TrialKind.toList_token_append_eq_iff {k l : TrialKind} {x y : List Char} :
    k.token.toList ++ x = l.token.toList ++ y ↔ k = l ∧ x = y := by
  cases k <;> cases l <;> simp [token]

theorem isDigit_numberText (n : UInt32) : ∀ c ∈ (numberText n).toList, c.isDigit = true := by
  rw [numberText, Nat.toList_repr]
  exact Text.isDigit_toDigits n.toNat

theorem numberText_injective : Function.Injective numberText := by
  intro m n h
  have hdigits := congrArg String.toList h
  rw [numberText, numberText, Nat.toList_repr, Nat.toList_repr] at hdigits
  exact UInt32.toNat_inj.mp (Text.toDigits_injective hdigits)

theorem length_numberText_le (n : UInt32) : (numberText n).toList.length ≤ 10 := by
  have hlt := n.toNat_lt
  rw [numberText, Nat.toList_repr, Nat.length_toDigits_le_iff (by decide) (by decide)]
  omega

theorem length_numberText_pos (n : UInt32) : 0 < (numberText n).toList.length := by
  rw [numberText, Nat.toList_repr]
  exact Nat.length_toDigits_pos

/-- A one with at most nine digits behind it is the text of a number. -/
theorem exists_numberText_append {ds : List Char} (hds : ∀ d ∈ ds, d.isDigit = true)
    (hlength : ds.length ≤ 9) :
    ∃ n, (numberText n).toList = (numberText 1).toList ++ ds := by
  obtain ⟨m, hm⟩ := Text.exists_toDigits_append Nat.one_pos hds
  have hvalue : m = 10 ^ ds.length + Text.digitsValue ds := by
    calc
      m = Text.digitsValue (Nat.toDigits 10 1 ++ ds) := by rw [hm, Text.digitsValue_toDigits]
      _ = 10 ^ ds.length + Text.digitsValue ds := by
        rw [Text.digitsValue_append, Text.digitsValue_toDigits, Nat.one_mul]
  have hrest := Text.digitsValue_lt hds
  have hpow : 10 ^ ds.length ≤ 10 ^ 9 := Nat.pow_le_pow_right (by decide) hlength
  have hrange : m < UInt32.size := by
    rw [UInt32.size]
    omega
  refine ⟨UInt32.ofNat m, ?_⟩
  rw [numberText, numberText, Nat.toList_repr, Nat.toList_repr, UInt32.toNat_ofNat_of_lt' hrange]
  exact hm.symm

namespace TrialId

variable {t u : TrialId} {x y : List Char}

theorem toList_text (t : TrialId) :
    t.text.toList = t.config.kind.token.toList ++
      '-' :: ((numberText t.config.rate).toList ++ '-' :: (numberText t.db).toList) := by
  simp [text]

/-- With something behind them, the texts of trials agree only if the configurations do. What stands
behind can only go on with the trial number. -/
theorem toList_text_append_eq_iff :
    t.text.toList ++ x = u.text.toList ++ y ↔
      t.config = u.config ∧ (numberText t.db).toList ++ x = (numberText u.db).toList ++ y := by
  obtain ⟨⟨kind, rate⟩, db⟩ := t
  obtain ⟨⟨kind', rate'⟩, db'⟩ := u
  have hdash : ∀ rest, Text.StopsRun Char.isDigit ('-' :: rest) :=
    fun rest => Text.stopsRun_cons.mpr (by decide)
  simp only [toList_text, List.append_assoc, List.cons_append,
    TrialKind.toList_token_append_eq_iff, List.cons.injEq, true_and,
    Text.run_append_eq_iff (isDigit_numberText rate) (isDigit_numberText rate') (hdash _) (hdash _),
    String.toList_inj, numberText_injective.eq_iff, Configuration.mk.injEq, and_assoc]

theorem text_injective : Function.Injective text := by
  intro t u h
  have hlists : t.text.toList ++ [] = u.text.toList ++ [] := by rw [h]
  obtain ⟨hconfig, hdb⟩ := toList_text_append_eq_iff.mp hlists
  rw [List.append_nil, List.append_nil, String.toList_inj, numberText_injective.eq_iff] at hdb
  cases t
  cases u
  simp_all

end TrialId

end TrialSummary
