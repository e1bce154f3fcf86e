import ApiSmith.Text.Base64

/-!
# Base64 read back

Reading the Base64 text of octets strictly gives the octets (`decode_encode`). A character of the
alphabet stands for its six bits, so four characters carry the three octets of a group from one
group to the next; the padding of a last group fills its four places exactly.
-/

namespace ApiSmith.Text.Base64

theorem value_digit {n : Nat} (h : n < 64) : value? (digit n) = some n ∧ digit n ≠ '=' := by
  have all : ∀ i : Fin 64, value? (digit i) = some i.val ∧ digit i ≠ '=' := by decide
  exact all ⟨n, h⟩

/-! ## One character -/

section Steps

variable {n : Nat} (h : n < 64) (bits : Nat) (rest : List Char)

include h

theorem readFrom_first :
    readFrom true ⟨0, bits, 0, false⟩ (digit n :: rest) =
      readFrom true ⟨1, n, 0, false⟩ rest := by
  obtain ⟨hv, hne⟩ := value_digit h
  simp [readFrom, hv, hne]

theorem readFrom_second :
    readFrom true ⟨1, bits, 0, false⟩ (digit n :: rest) =
      (readFrom true ⟨2, n % 16, 0, false⟩ rest).map (UInt8.ofNat (bits * 4 + n / 16) :: ·) := by
  obtain ⟨hv, hne⟩ := value_digit h
  simp [readFrom, hv, hne]

theorem readFrom_third :
    readFrom true ⟨2, bits, 0, false⟩ (digit n :: rest) =
      (readFrom true ⟨3, n % 4, 0, false⟩ rest).map (UInt8.ofNat (bits * 16 + n / 4) :: ·) := by
  obtain ⟨hv, hne⟩ := value_digit h
  simp [readFrom, hv, hne]

theorem readFrom_fourth :
    readFrom true ⟨3, bits, 0, false⟩ (digit n :: rest) =
      (readFrom true ⟨0, 0, 0, false⟩ rest).map (UInt8.ofNat (bits * 64 + n) :: ·) := by
  obtain ⟨hv, hne⟩ := value_digit h
  simp [readFrom, hv, hne]

end Steps

/-! ## Groups -/

theorem ofNat_parts {a : UInt8} {n : Nat} (h : n = a.toNat) : UInt8.ofNat n = a := by
  rw [h, UInt8.ofNat_toNat]

theorem readFrom_encode (octets : List UInt8) :
    readFrom true ⟨0, 0, 0, false⟩ (encode octets) = some octets := by
  fun_induction encode octets with
  | case1 => rfl
  | case2 a =>
    have ha := a.toNat_lt
    rw [readFrom_first (by omega), readFrom_second (by omega),
      ofNat_parts (a := a) (by omega)]
    simp [readFrom]
  | case3 a b =>
    have ha := a.toNat_lt
    have hb := b.toNat_lt
    rw [readFrom_first (by omega), readFrom_second (by omega), readFrom_third (by omega),
      ofNat_parts (a := a) (by omega), ofNat_parts (a := b) (by omega)]
    simp [readFrom]
  | case4 a b c rest ih =>
    have ha := a.toNat_lt
    have hb := b.toNat_lt
    have hc := c.toNat_lt
    rw [readFrom_first (by omega), readFrom_second (by omega), readFrom_third (by omega),
      readFrom_fourth (by omega), ih, ofNat_parts (a := a) (by omega),
      ofNat_parts (a := b) (by omega), ofNat_parts (a := c) (by omega)]
    rfl

theorem head_encode_ne (octets : List UInt8) : (encode octets).head? ≠ some '=' := by
  have first (n : Nat) (h : n < 64) : some (digit n) ≠ some '=' := by
    simpa using (value_digit h).2
  fun_cases encode octets with
  | case1 => simp
  | case2 a => exact first _ (by have := a.toNat_lt; omega)
  | case3 a b => exact first _ (by have := a.toNat_lt; omega)
  | case4 a b c rest => exact first _ (by have := a.toNat_lt; omega)

/-- Octets that are written and read strictly are the same. -/
theorem decode_encode (octets : List UInt8) : decode? true (encode octets) = some octets := by
  have hhead : ((encode octets).head? == some '=') = false := by
    simpa using head_encode_ne octets
  rw [decode?, hhead]
  exact readFrom_encode octets

end ApiSmith.Text.Base64
