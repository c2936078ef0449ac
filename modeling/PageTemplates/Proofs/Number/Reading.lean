import Mathlib.Data.List.TakeDrop
import Mathlib.Data.List.TakeWhile
import PageTemplates.Number.Reading

/-!
Integers that are written in decimal digits read back, those of 64 bits with a sign as integers, and the
greater ones as floating-point numbers.
-/

namespace PageTemplates

namespace Text

theorem isDigit_of_mem_ofNat {n : Nat} {c : Char} (hc : c ∈ ofNat n) : c.isDigit = true :=
  Nat.isDigit_of_mem_toDigits (by decide) (by decide) hc

theorem exists_digit_ofNat (n : Nat) : ∃ c rest, ofNat n = c :: rest ∧ c.isDigit = true := by
  cases hdigits : ofNat n with
  | nil => exact absurd hdigits Nat.toDigits_ne_nil
  | cons c rest =>
      have hc : c ∈ ofNat n := hdigits ▸ List.mem_cons_self
      exact ⟨c, rest, rfl, isDigit_of_mem_ofNat hc⟩

theorem mem_ofInt {n : Int} {c : Char} (hc : c ∈ ofInt n) : c = '-' ∨ c.isDigit = true := by
  unfold ofInt at hc
  split at hc
  · exact (List.mem_cons.mp hc).imp_right isDigit_of_mem_ofNat
  · exact .inr (isDigit_of_mem_ofNat hc)

/-- After the sign come the digits. -/
theorem dropWhile_ofInt (n : Int) : (ofInt n).dropWhile (· == '-') = ofNat n.natAbs := by
  have hdigits : (ofNat n.natAbs).dropWhile (· == '-') = ofNat n.natAbs := by
    obtain ⟨c, rest, hdigits, hc⟩ := exists_digit_ofNat n.natAbs
    have hdash : c ≠ '-' := by
      rintro rfl
      cases hc
    rw [hdigits, List.dropWhile_cons_of_neg (by simpa using hdash)]
  unfold ofInt
  split
  · rw [List.dropWhile_cons_of_pos (by decide), hdigits]
  · exact hdigits

end Text

namespace Numeral

theorem digits?_ofNat (n : Nat) : digits? (Text.ofNat n) = some n := by
  have hdigits : (Text.ofNat n).all Char.isDigit = true :=
    List.all_eq_true.mpr fun _ => Text.isDigit_of_mem_ofNat
  have hvalue : (Text.ofNat n).foldl (fun n c => 10 * n + (c.toNat - '0'.toNat)) 0 = n :=
    Nat.ofDigitChars_toDigits (by decide) (by decide)
  rw [digits?, if_pos ⟨Nat.toDigits_ne_nil, hdigits⟩, hvalue]

theorem sign_ofNat (n : Nat) : sign (Text.ofNat n) = (false, Text.ofNat n) := by
  obtain ⟨c, rest, hdigits, hc⟩ := Text.exists_digit_ofNat n
  rw [hdigits]
  unfold sign
  split
  · next heq =>
    rw [(List.cons.inj heq).1] at hc
    cases hc
  · next heq =>
    rw [(List.cons.inj heq).1] at hc
    cases hc
  · rfl

theorem int?_ofInt (n : Int) : int? (Text.ofInt n) = some n := by
  unfold Text.ofInt
  split
  · next hn =>
    have hsign : (-(n.natAbs : Int)) = n := by omega
    simp only [int?, sign, digits?_ofNat]
    exact congrArg some hsign
  · next hn =>
    have hsign : (n.natAbs : Int) = n := by omega
    simp only [int?, sign_ofNat, digits?_ofNat]
    exact congrArg some hsign

theorem int64?_ofInt {n : Int} (hlow : -int64End ≤ n) (hhigh : n < int64End) :
    int64? (Text.ofInt n) = some n := by
  rw [int64?, int?_ofInt, Option.filter_some, if_pos]
  rw [Bool.and_eq_true, decide_eq_true_eq, decide_eq_true_eq]
  exact ⟨hlow, hhigh⟩

theorem int64?_ofInt_of_le {n : Int} (hlow : int64End ≤ n) : int64? (Text.ofInt n) = none := by
  have hnot : ¬ n < int64End := Int.not_lt.mpr hlow
  rw [int64?, int?_ofInt, Option.filter_some, if_neg]
  simp [hnot]

/-- Digits are a decimal without a fraction and without an exponent. -/
theorem decimal?_ofNat (n : Nat) : decimal? (Text.ofNat n) = Binary64.ofDecimal? false n 0 := by
  have hspan : ∀ p : Char → Bool, (∀ c ∈ Text.ofNat n, p c = true) →
      (Text.ofNat n).span p = (Text.ofNat n, []) := by
    intro p hp
    rw [List.span_eq_takeWhile_dropWhile, List.takeWhile_eq_self_iff.mpr hp,
      List.dropWhile_eq_nil_iff.mpr hp]
  have hdigit : ∀ mark : Char, mark.isDigit = false → ∀ c ∈ Text.ofNat n, (c != mark) = true := by
    intro mark hmark c hc
    rw [bne_iff_ne]
    rintro rfl
    rw [Text.isDigit_of_mem_ofNat hc] at hmark
    cases hmark
  have hmantissa := hspan (fun c => c != 'e' && c != 'E') fun c hc => by
    rw [hdigit 'e' rfl c hc, hdigit 'E' rfl c hc]
    rfl
  have hwhole := hspan (· != '.') (hdigit '.' rfl)
  simp only [decimal?, sign_ofNat, hmantissa, hwhole, List.drop_nil, List.append_nil, digits?_ofNat,
    if_true]
  rfl

end Numeral

namespace Binary64

/-- A whole number of at most twenty digits is rounded as the integer that it is. -/
theorem ofDecimal?_zero_power {n : Nat} (hn : n < pow10 20) : ofDecimal? false n 0 = ofInt? n := by
  have hlength : (Text.ofNat n).length ≤ 20 :=
    (Nat.length_toDigits_le_iff (by decide) (by decide)).mpr hn
  have hsign : decide ((n : Int) < 0) = false := decide_eq_false (Int.not_lt.mpr (Int.natCast_nonneg n))
  have hsmall : ¬ ((Text.ofNat n).length : Int) + 0 < -330 := by omega
  have hlarge : ¬ 310 < ((Text.ofNat n).length : Int) + 0 := by omega
  rw [ofInt?, hsign, Int.natAbs_natCast]
  by_cases hzero : n = 0
  · rw [ofDecimal?, if_pos (.inl hzero), ofRatio?, if_pos hzero]
  · rw [ofDecimal?, if_neg (not_or.mpr ⟨hzero, hsmall⟩), if_neg hlarge, if_pos (by decide)]
    exact congrArg (ofRatio? false · 1) (Nat.mul_one n)

end Binary64
end PageTemplates
