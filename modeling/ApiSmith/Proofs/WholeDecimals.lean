import ApiSmith.Proofs.Cutting
import ApiSmith.Proofs.Decoding
import ApiSmith.Proofs.Integers
import Mathlib.Algebra.Order.Field.Power
import Mathlib.Data.Nat.Cast.Field
import Mathlib.Data.Rat.Cast.Order
import Mathlib.Tactic.FieldSimp
import Mathlib.Tactic.Linarith
import Mathlib.Tactic.NormNum
import Mathlib.Tactic.Positivity

/-!
# Whole decimals are written exactly

A finite decimal is written as an integer exactly if the number it denotes is whole, and then as
this number: neither the length of its coefficient nor its exponent matters. Read again as a
decimal, the integer denotes the same number (`whole_decimal_written_exactly`).

A decimal has many forms of one number, so everything here is said of the rational number that a
form denotes. Two decimals are the same for the comparison of values exactly if these agree
(`same_finite_iff`).
-/

namespace ApiSmith.Number

open Text

namespace Decimal

def sign (negative : Bool) : ℚ := if negative then -1 else 1

/-- The rational number that a finite decimal denotes. -/
def rational (negative : Bool) (coefficient : ℕ) (exponent : ℤ) : ℚ :=
  sign negative * (coefficient * 10 ^ exponent)

theorem sign_mul_natCast (negative : Bool) (n : ℕ) :
    sign negative * n = ((if negative then -(n : ℤ) else n : ℤ) : ℚ) := by
  cases negative <;> simp [sign]

/-! ## Which forms denote whole numbers -/

theorem lt_ten_pow_length (n : ℕ) : n < 10 ^ (natText n).length :=
  (Nat.length_toDigits_le_iff (by decide) Nat.length_toDigits_pos).mp le_rfl

theorem le_length_of_ten_pow_dvd {c k : ℕ} (hc : c ≠ 0) (h : 10 ^ k ∣ c) :
    k ≤ (natText c).length := by
  have hle : 10 ^ k ≤ c := Nat.le_of_dvd (Nat.pos_of_ne_zero hc) h
  have hlt : 10 ^ k < 10 ^ (natText c).length := hle.trans_lt (lt_ten_pow_length c)
  exact ((Nat.pow_lt_pow_iff_right (by decide)).mp hlt).le

theorem isIntegral_iff {c : ℕ} {e : ℤ} :
    isIntegral c e = true ↔ 0 ≤ e ∨ 10 ^ (-e).toNat ∣ c := by
  simp only [isIntegral, Bool.or_eq_true, Bool.and_eq_true, decide_eq_true_eq, beq_iff_eq,
    or_assoc, Nat.pow_eq]
  constructor
  · rintro (h | rfl | ⟨-, h⟩)
    · exact .inl h
    · exact .inr (dvd_zero _)
    · exact .inr (Nat.dvd_of_mod_eq_zero h)
  · rintro (h | h)
    · exact .inl h
    · by_cases hc : c = 0
      · exact .inr (.inl hc)
      · have hlen := le_length_of_ten_pow_dvd hc h
        exact .inr (.inr ⟨by omega, Nat.mod_eq_zero_of_dvd h⟩)

theorem ten_zpow_of_nonneg {e : ℤ} (h : 0 ≤ e) : (10 : ℚ) ^ e = (10 ^ e.toNat : ℕ) := by
  obtain ⟨k, rfl⟩ := Int.eq_ofNat_of_zero_le h
  simp

theorem ten_zpow_of_neg {e : ℤ} (h : e < 0) : (10 : ℚ) ^ e = ((10 ^ (-e).toNat : ℕ) : ℚ)⁻¹ := by
  obtain ⟨k, hk⟩ := Int.eq_ofNat_of_zero_le (show 0 ≤ -e by omega)
  obtain rfl : e = -(k : ℤ) := by omega
  simp

theorem rational_of_isIntegral {negative : Bool} {c : ℕ} {e : ℤ} (h : isIntegral c e = true) :
    rational negative c e = wholeNumber negative c e := by
  rw [rational, wholeNumber, ← sign_mul_natCast]
  congr 1
  by_cases hc : c = 0
  · simp [hc]
  by_cases he : 0 ≤ e
  · rw [ten_zpow_of_nonneg he]
    simp [hc, he]
  · have hdvd : 10 ^ (-e).toNat ∣ c := (isIntegral_iff.mp h).resolve_left he
    rw [ten_zpow_of_neg (by omega), ← div_eq_mul_inv]
    simp only [beq_iff_eq, hc, he, if_false, Nat.pow_eq]
    exact (Nat.cast_div hdvd (by positivity)).symm

theorem isIntegral_of_rational_eq {negative : Bool} {c : ℕ} {e n : ℤ}
    (h : rational negative c e = n) : isIntegral c e = true := by
  by_cases he : 0 ≤ e
  · exact isIntegral_iff.mpr (.inl he)
  · have habs : |rational negative c e| = c / (10 ^ (-e).toNat : ℕ) := by
      have hsign : |sign negative| = 1 := by cases negative <;> simp [sign]
      rw [rational, abs_mul, hsign, one_mul, ten_zpow_of_neg (by omega), ← div_eq_mul_inv,
        abs_of_nonneg (by positivity)]
    have hmul : (c : ℚ) = (n.natAbs * 10 ^ (-e).toNat : ℕ) := by
      have hn : |(n : ℚ)| = n.natAbs := by rw [← Int.cast_abs, Int.abs_eq_natAbs, Int.cast_natCast]
      rw [h, hn, eq_div_iff (by positivity)] at habs
      rw [← habs, Nat.cast_mul]
    exact isIntegral_iff.mpr (.inr ⟨n.natAbs, by rw [Nat.cast_inj.mp hmul, Nat.mul_comm]⟩)

theorem rational_eq_intCast_iff {negative : Bool} {c : ℕ} {e n : ℤ} :
    rational negative c e = n ↔ isIntegral c e = true ∧ wholeNumber negative c e = n := by
  constructor
  · intro h
    have hint := isIntegral_of_rational_eq h
    exact ⟨hint, Int.cast_injective ((rational_of_isIntegral hint).symm.trans h)⟩
  · rintro ⟨hint, rfl⟩
    exact rational_of_isIntegral hint

theorem rational_intCast (n : ℤ) : rational (n < 0) n.natAbs 0 = n := by
  rw [rational, zpow_zero, mul_one, sign_mul_natCast]
  congr 1
  by_cases h : n < 0 <;> simp only [h, decide_true, decide_false, if_true, if_false,
    Bool.false_eq_true] <;> omega

end Decimal

/-! ## Sameness of decimals -/

theorem Ratio.den_scaled_pos (n : ℕ) (e : ℤ) : 0 < (Ratio.scaled n 10 e).den := by
  unfold Ratio.scaled
  split
  · exact Nat.one_pos
  · exact Nat.pow_pos (by decide)

theorem Ratio.scaled_div (n : ℕ) (e : ℤ) :
    ((Ratio.scaled n 10 e).num / (Ratio.scaled n 10 e).den : ℚ) = n * 10 ^ e := by
  unfold Ratio.scaled
  by_cases he : 0 ≤ e
  · rw [if_pos he, Decimal.ten_zpow_of_nonneg he]
    simp
  · rw [if_neg he, Decimal.ten_zpow_of_neg (by omega), div_eq_mul_inv]
    simp

end ApiSmith.Number

namespace ApiSmith

open Number Text

theorem Quantity.same_ratio_iff {s₁ s₂ : Bool} {n₁ n₂ d₁ d₂ : ℕ} (h₁ : 0 < d₁) (h₂ : 0 < d₂) :
    (Quantity.ratio s₁ n₁ d₁).same (.ratio s₂ n₂ d₂) = true ↔
      Decimal.sign s₁ * (n₁ / d₁ : ℚ) = Decimal.sign s₂ * (n₂ / d₂ : ℚ) := by
  have hd₁ : (d₁ : ℚ) ≠ 0 := by positivity
  have hd₂ : (d₂ : ℚ) ≠ 0 := by positivity
  have hcross : n₁ * d₂ = n₂ * d₁ ↔ (n₁ / d₁ : ℚ) = n₂ / d₂ := by
    rw [div_eq_div_iff hd₁ hd₂]
    exact_mod_cast Iff.rfl
  have hzero : n₁ = 0 ↔ (n₁ / d₁ : ℚ) = 0 := by simp [hd₁]
  have hx : (0 : ℚ) ≤ n₁ / d₁ := by positivity
  have hy : (0 : ℚ) ≤ n₂ / d₂ := by positivity
  simp only [Quantity.same, Bool.and_eq_true, Bool.or_eq_true, beq_iff_eq, hcross, hzero]
  generalize (n₁ / d₁ : ℚ) = x at *
  generalize (n₂ / d₂ : ℚ) = y at *
  -- with unlike signs only zero is on both sides
  cases s₁ <;> cases s₂ <;> simp only [Decimal.sign, reduceCtorEq, if_true, if_false, false_or,
    true_or, true_and, Bool.false_eq_true, one_mul, neg_mul, neg_inj]
  all_goals
    constructor
    · rintro ⟨rfl, rfl⟩
      simp
    · intro h
      constructor <;> linarith

/-- Two finite decimals are the same value exactly if they denote one number. -/
theorem Value.same_finite_iff {s₁ s₂ : Bool} {c₁ c₂ : ℕ} {e₁ e₂ : ℤ} :
    (Value.decimal (.finite s₁ c₁ e₁)).same (.decimal (.finite s₂ c₂ e₂)) = true ↔
      Decimal.rational s₁ c₁ e₁ = Decimal.rational s₂ c₂ e₂ := by
  have hsame : (Value.decimal (.finite s₁ c₁ e₁)).same (.decimal (.finite s₂ c₂ e₂)) =
      (Quantity.scaled s₁ c₁ 10 e₁).same (.scaled s₂ c₂ 10 e₂) := by
    simp [Value.same, Value.sameNumber, Value.quantity?]
  rw [hsame, Quantity.scaled, Quantity.scaled,
    Quantity.same_ratio_iff (Ratio.den_scaled_pos ..) (Ratio.den_scaled_pos ..),
    Ratio.scaled_div, Ratio.scaled_div]
  rfl

/-! ## An integer read as a decimal -/

namespace Number.Decimal

theorem plainChar?_of_isAsciiDigit {c : Char} (h : isAsciiDigit c = true) :
    plainChar? c = some c := by
  simp only [isAsciiDigit, Bool.and_eq_true, decide_eq_true_eq] at h
  have hupper : isAsciiUpper c = false := by simp [isAsciiUpper]; omega
  have hzero : c.toNat ≠ 0 := by omega
  have hsmall : c.toNat < 128 := by omega
  simp [plainChar?, plainChar?.lowerAscii, hzero, hsmall, hupper]

theorem ne_of_mem_natText {n : ℕ} {d : Char} (hd : isAsciiDigit d = false) :
    ∀ c ∈ natText n, c ≠ d := by
  rintro c hc rfl
  rw [isAsciiDigit_of_mem_natText hc] at hd
  cases hd

theorem digits?_natText (n : ℕ) : digits? (natText n) = some n := by
  have hne : (natText n).isEmpty = false := by simpa using natText_ne_nil n
  have hall : (natText n).all isAsciiDigit = true :=
    List.all_eq_true.mpr fun _ => isAsciiDigit_of_mem_natText
  rw [digits?, hne, hall, asciiNat, ofDigits_natText]
  rfl

theorem finite?_zero {negative : Bool} {n : ℕ} (h : (natText n).length ≤ digitLimit) :
    finite? negative n 0 = some (.finite negative n 0) := by
  have hleast : minExponent ≤ 0 := by decide
  have hgreatest : (4300 : ℤ) ≤ maxExponent := by decide
  have htop : (if n == 0 then (0 : ℤ) else 0 + (natText n).length - 1) ≤ maxExponent := by
    simp only [digitLimit] at h
    split <;> omega
  simp only [finite?, hleast, htop, decide_true, Bool.and_self, if_true]

theorem readFinite?_natText {negative : Bool} {n : ℕ} (h : (natText n).length ≤ digitLimit) :
    readFinite? negative (natText n) = some (.finite negative n 0) := by
  have hmantissa : (natText n).takeWhile (fun c => c != 'e') = natText n :=
    List.takeWhile_eq_self_iff.mpr fun c hc => by
      simpa using ne_of_mem_natText (by decide) c hc
  have hcut : cutAtChar '.' (natText n) = (natText n, none) :=
    cutAtChar_of_not_mem fun hdot => ne_of_mem_natText (by decide) '.' hdot rfl
  simp [readFinite?, hmantissa, hcut, digits?_natText, finite?_zero h]

theorem readUnsigned?_natText {negative : Bool} {n : ℕ} (h : (natText n).length ≤ digitLimit) :
    readUnsigned? negative (natText n) = some (.finite negative n 0) := by
  have hne : ∀ {d : Char}, isAsciiDigit d = false → ∀ rest, natText n ≠ d :: rest :=
    fun hd rest heq => ne_of_mem_natText hd _ (heq ▸ List.mem_cons_self) rfl
  unfold readUnsigned?
  split
  · next heq => exact absurd heq (hne (by decide) _)
  · next heq => exact absurd heq (hne (by decide) _)
  · next rest heq => exact absurd heq (hne (by decide) _)
  · next rest heq => exact absurd heq (hne (by decide) _)
  · exact readFinite?_natText h

theorem plain_natText (n : ℕ) :
    ((natText n).filter (· != '_')).mapM plainChar? = some (natText n) := by
  have hfilter : (natText n).filter (· != '_') = natText n :=
    List.filter_eq_self.mpr fun c hc => by
      simpa using ne_of_mem_natText (by decide) c hc
  rw [hfilter]
  exact mapM_eq_some_iff.mpr (List.forall₂_same.mpr fun c hc =>
    plainChar?_of_isAsciiDigit (isAsciiDigit_of_mem_natText hc))

theorem read?_intText {n : ℤ} (h : (natText n.natAbs).length ≤ digitLimit) :
    read? (intText n) = some (.finite (n < 0) n.natAbs 0) := by
  cases n with
  | ofNat n =>
    have hread : readUnsigned? false (natText n) = some (.finite false n 0) :=
      readUnsigned?_natText h
    rw [intText, read?, trim_natText, plain_natText, Option.bind_eq_bind, Option.bind_some]
    split
    · next rest heq => exact absurd rfl (ne_of_mem_natText (by decide) _ (heq ▸ List.mem_cons_self))
    · next rest heq => exact absurd rfl (ne_of_mem_natText (by decide) _ (heq ▸ List.mem_cons_self))
    · have hsign : ¬ Int.ofNat n < 0 := Int.not_lt.mpr (Int.natCast_nonneg n)
      rw [hread, decide_eq_false hsign]
      rfl
  | negSucc n =>
    have hread : readUnsigned? true (natText (n + 1)) = some (.finite true (n + 1) 0) :=
      readUnsigned?_natText h
    have hplain : (('-' :: natText (n + 1)).filter (· != '_')).mapM plainChar? =
        some ('-' :: natText (n + 1)) := by
      have hminus : plainChar? '-' = some '-' := by decide
      rw [List.filter_cons_of_pos (by decide), List.mapM_cons, plain_natText, hminus]
      rfl
    rw [intText, read?, trim_minus_natText, hplain]
    simpa using hread

end Number.Decimal

/-! ## Written and read again -/

variable {zone : Time.Zone}

theorem encode_finite_eq_int_iff {negative : Bool} {c : ℕ} {e n : ℤ} :
    encode zone (.decimal (.finite negative c e)) = .ok (.int n) ↔
      Decimal.rational negative c e = n := by
  rw [Decimal.rational_eq_intCast_iff, encode, encodeDecimal]
  cases Decimal.isIntegral c e <;> simp

theorem encode_finite_of_not_whole {negative : Bool} {c : ℕ} {e : ℤ}
    (h : ∀ n : ℤ, Decimal.rational negative c e ≠ n) :
    ∃ x, encode zone (.decimal (.finite negative c e)) = .ok (.float x) := by
  have hint : Decimal.isIntegral c e = false :=
    Bool.eq_false_iff.mpr fun hint => h _ (Decimal.rational_of_isIntegral hint)
  exact ⟨_, by rw [encode, encodeDecimal, hint]; rfl⟩

theorem reads_int_as_decimal (table : TypeTable) {n : ℤ}
    (h : (natText n.natAbs).length ≤ digitLimit) :
    Reads table .decimal (.int n) (.decimal (.finite (n < 0) n.natAbs 0)) :=
  reads_decimal.mpr ⟨intText n, _, rfl, Decimal.read?_intText h, rfl⟩

/-- A finite decimal is written as an integer exactly if it denotes this integer, as a double if it
denotes none. An integer of at most `digitLimit` digits is read as a decimal of the same number. -/
theorem whole_decimal_written_exactly (zone : Time.Zone) (negative : Bool) (c : ℕ) (e : ℤ) :
    (∀ n : ℤ, encode zone (.decimal (.finite negative c e)) = .ok (.int n) ↔
      Decimal.rational negative c e = n) ∧
    ((∃ x, encode zone (.decimal (.finite negative c e)) = .ok (.float x)) ↔
      ∀ n : ℤ, Decimal.rational negative c e ≠ n) ∧
    ∀ (table : TypeTable) (n : ℤ), Decimal.rational negative c e = n →
      (natText n.natAbs).length ≤ digitLimit →
      ∃ negative' c', Reads table .decimal (.int n) (.decimal (.finite negative' c' 0)) ∧
        Decimal.rational negative' c' 0 = Decimal.rational negative c e ∧
        (Value.decimal (.finite negative' c' 0)).same (.decimal (.finite negative c e)) = true := by
  refine ⟨fun n => encode_finite_eq_int_iff, ⟨?_, encode_finite_of_not_whole⟩, ?_⟩
  · rintro ⟨x, hx⟩ n hn
    rw [encode_finite_eq_int_iff.mpr hn] at hx
    cases hx
  · intro table n hn hdigits
    have hnumber : Decimal.rational (n < 0) n.natAbs 0 = Decimal.rational negative c e := by
      rw [Decimal.rational_intCast, hn]
    exact ⟨_, _, reads_int_as_decimal table hdigits, hnumber, Value.same_finite_iff.mpr hnumber⟩

/-- Thirty digits with a zero after the point, and a sign. -/
theorem whole_decimal_written_exactly_of_thirty_digits :
    Decimal.rational true 123456789012345678901234567890 (-1) =
      (-12345678901234567890123456789 : ℤ) ∧
    (natText (-12345678901234567890123456789 : ℤ).natAbs).length ≤ digitLimit ∧
    encode .utc (.decimal (.finite true 123456789012345678901234567890 (-1))) =
      .ok (.int (-12345678901234567890123456789)) ∧
    ∃ negative' c',
      Reads [] .decimal (.int (-12345678901234567890123456789))
        (.decimal (.finite negative' c' 0)) ∧
      (Value.decimal (.finite negative' c' 0)).same
        (.decimal (.finite true 123456789012345678901234567890 (-1))) = true := by
  have hnumber : Decimal.rational true 123456789012345678901234567890 (-1) =
      (-12345678901234567890123456789 : ℤ) := by
    norm_num [Decimal.rational, Decimal.sign]
  have hdigits : (natText (-12345678901234567890123456789 : ℤ).natAbs).length ≤ digitLimit := by
    decide +kernel
  obtain ⟨hwritten, -, hread⟩ :=
    whole_decimal_written_exactly .utc true 123456789012345678901234567890 (-1)
  obtain ⟨negative', c', hreads, -, hsame⟩ := hread [] _ hnumber hdigits
  exact ⟨hnumber, hdigits, (hwritten _).mpr hnumber, negative', c', hreads, hsame⟩

end ApiSmith
