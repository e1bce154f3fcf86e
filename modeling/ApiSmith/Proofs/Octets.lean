import Mathlib.Data.List.Basic
import ApiSmith.Text.Encoding

/-!
# Octets of texts

The octets of a text in UTF-8 are read as that text (`utf8Text?_utf8Octets`). A character is written
as a leading octet and up to three that follow it, each with six bits (`exists_octets`), and the
bounds of the second octet keep the forms apart that would write a character in too many octets, a
surrogate, or a number beyond the last character. A character that there is keeps these bounds.
-/

namespace ApiSmith.Text

/-! ## Rows of octets -/

theorem toList_loop (bytes : ByteArray) (i : Nat) (done : List UInt8) :
    ByteArray.toList.loop bytes i done = done.reverse ++ bytes.data.toList.drop i := by
  fun_induction ByteArray.toList.loop bytes i done with
  | case1 i done hi ih =>
    have hlength : i < bytes.data.toList.length := by simpa using hi
    rw [ih, List.drop_eq_getElem_cons hlength]
    simp [ByteArray.get!, hi]
  | case2 i done hi =>
    rw [List.drop_eq_nil_of_le (by simpa using Nat.le_of_not_lt hi), List.append_nil]

theorem utf8Octets_eq (s : String) : utf8Octets s = s.toList.flatMap String.utf8EncodeChar := by
  have hbytes : s.toUTF8 = (s.toList.flatMap String.utf8EncodeChar).toByteArray :=
    String.utf8Encode_toList.symm
  rw [utf8Octets, hbytes, ByteArray.toList, toList_loop, List.toList_data_toByteArray]
  rfl

/-! ## Single characters -/

theorem utf8Lead?_two {k : Nat} (hlow : 2 ≤ k) (hhigh : k < 32) :
    utf8Lead? (k + 192) = some (0x80, 0xBF, 1, k) := by
  have hlead : (decide (0xC2 ≤ k + 192) && decide (k + 192 ≤ 0xDF)) = true := by
    rw [Bool.and_eq_true, decide_eq_true_eq, decide_eq_true_eq]
    omega
  rw [utf8Lead?, if_pos hlead, Nat.add_sub_cancel]

theorem utf8Lead?_three : ∀ k < 16, utf8Lead? (k + 224) =
    some (if k = 0 then 0xA0 else 0x80, if k = 13 then 0x9F else 0xBF, 2, k) := by
  decide

theorem utf8Lead?_four : ∀ k < 5, utf8Lead? (k + 240) =
    some (if k = 0 then 0x90 else 0x80, if k = 4 then 0x8F else 0xBF, 3, k) := by
  decide

theorem utf8Step_of_lead {b low high n bits t : Nat} (hb : 0x80 ≤ b)
    (lead : utf8Lead? b = some (low, high, n, bits)) (hlow : low ≤ t) (hhigh : t ≤ high)
    (rest : List Nat) :
    utf8Step b (t :: rest) = utf8Tails (n - 1) 2 (bits * 64 + (t - 0x80)) rest := by
  rw [utf8Step, if_neg (Nat.not_lt_of_le hb), lead]
  simp [hlow, hhigh]

theorem utf8Tails_succ {d : Nat} (h : d < 64) (n taken bits : Nat) (rest : List Nat) :
    utf8Tails (n + 1) taken bits ((d + 128) :: rest) =
      utf8Tails n (taken + 1) (bits * 64 + d) rest := by
  have htail : isTail (d + 128) = true := by
    rw [isTail, Bool.and_eq_true, decide_eq_true_eq, decide_eq_true_eq]
    omega
  rw [utf8Tails, if_pos htail, Nat.add_sub_cancel]

theorem utf8Step_two {n : Nat} (hlow : 0x80 ≤ n) (hhigh : n < 0x800) (rest : List Nat) :
    utf8Step (n / 64 + 192) ((n % 64 + 128) :: rest) = .char (Char.ofNat n) 2 := by
  have hbits : n / 64 * 64 + (n % 64 + 128 - 128) = n := by omega
  rw [utf8Step_of_lead (by omega) (utf8Lead?_two (by omega) (by omega)) (by omega) (by omega),
    hbits, utf8Tails]

theorem utf8Step_three {n : Nat} (hlow : 0x800 ≤ n) (hhigh : n < 0x10000)
    (hvalid : n < 0xD800 ∨ 0xDFFF < n) (rest : List Nat) :
    utf8Step (n / 4096 + 224) ((n / 64 % 64 + 128) :: (n % 64 + 128) :: rest) =
      .char (Char.ofNat n) 3 := by
  have hbits : (n / 4096 * 64 + (n / 64 % 64 + 128 - 128)) * 64 + n % 64 = n := by omega
  rw [utf8Step_of_lead (by omega) (utf8Lead?_three (n / 4096) (by omega))
    (by split <;> omega) (by split <;> omega), utf8Tails_succ (by omega), hbits, utf8Tails]

theorem utf8Step_four {n : Nat} (hlow : 0x10000 ≤ n) (hhigh : n < 0x110000) (rest : List Nat) :
    utf8Step (n / 262144 + 240)
      ((n / 4096 % 64 + 128) :: (n / 64 % 64 + 128) :: (n % 64 + 128) :: rest) =
        .char (Char.ofNat n) 4 := by
  have hbits : ((n / 262144 * 64 + (n / 4096 % 64 + 128 - 128)) * 64 + n / 64 % 64) * 64 +
      n % 64 = n := by omega
  rw [utf8Step_of_lead (by omega) (utf8Lead?_four (n / 262144) (by omega))
    (by split <;> omega) (by split <;> omega), utf8Tails_succ (by omega),
    utf8Tails_succ (by omega), hbits, utf8Tails]

/-- The octets of a character are read as the character. -/
theorem exists_octets (c : Char) : ∃ b tails,
    (String.utf8EncodeChar c).map UInt8.toNat = b :: tails ∧
      ∀ rest, utf8Step b (tails ++ rest) = .char c (tails.length + 1) := by
  have hvalid : c.toNat < 0xD800 ∨ 0xDFFF < c.toNat ∧ c.toNat < 0x110000 := c.valid
  have hown : Char.ofNat c.toNat = c := Char.ofNat_toNat c
  have hval : c.val.toNat = c.toNat := rfl
  generalize c.toNat = n at hvalid hown hval
  rw [String.utf8EncodeChar, hval, ← hown]
  split_ifs with hone htwo hthree
  · refine ⟨n, [], ?_, fun rest => ?_⟩
    · simp only [List.map_cons, List.map_nil, UInt8.toNat_ofNat', List.cons.injEq, and_true]
      omega
    · rw [utf8Step, if_pos (by omega)]
      rfl
  · refine ⟨n / 64 + 192, [n % 64 + 128], ?_, utf8Step_two (by omega) (by omega)⟩
    simp only [List.map_cons, List.map_nil, UInt8.toNat_ofNat', List.cons.injEq, and_true]
    omega
  · refine ⟨n / 4096 + 224, [n / 64 % 64 + 128, n % 64 + 128], ?_,
      utf8Step_three (by omega) (by omega) (by omega)⟩
    simp only [List.map_cons, List.map_nil, UInt8.toNat_ofNat', List.cons.injEq, and_true]
    omega
  · refine ⟨n / 262144 + 240, [n / 4096 % 64 + 128, n / 64 % 64 + 128, n % 64 + 128], ?_,
      utf8Step_four (by omega) (by omega)⟩
    simp only [List.map_cons, List.map_nil, UInt8.toNat_ofNat', List.cons.injEq, and_true]
    omega

/-! ## Texts -/

theorem utf8From_append (bad : Option Char) (read rest : List Nat) :
    utf8From bad read.length (read ++ rest) = utf8From bad 0 rest := by
  induction read with
  | nil => rfl
  | cons b read ih => exact ih

theorem utf8From_octets (bad : Option Char) (cs : List Char) :
    utf8From bad 0 ((cs.flatMap String.utf8EncodeChar).map UInt8.toNat) = some cs := by
  induction cs with
  | nil => rfl
  | cons c rest ih =>
    obtain ⟨b, tails, hoctets, hstep⟩ := exists_octets c
    rw [List.flatMap_cons, List.map_append, hoctets, List.cons_append, utf8From, hstep]
    simp only [Nat.add_sub_cancel]
    rw [utf8From_append, ih]
    rfl

theorem utf8Text?_utf8Octets (s : String) : utf8Text? (utf8Octets s) = some s.toList := by
  rw [utf8Text?, utf8Octets_eq, utf8From_octets]

end ApiSmith.Text
