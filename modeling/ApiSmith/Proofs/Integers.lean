import ApiSmith.Number.Integer
import Mathlib.Data.List.DropRight

/-!
# Integers written and read

The decimal text of an integer is read as this integer (`readInt?_intText`). A reader takes only so
many digits, so the text must not have more. Blanks, underscores and other digits than those of
ASCII, which a reader also takes, do not occur in such a text. `mem_of_readInt?` is what a reader takes
at most.
-/

namespace ApiSmith.Text

theorem trimBy_eq_self {p : Char → Bool} {cs : List Char} (head : ∀ c ∈ cs.head?, p c = false)
    (last : ∀ c ∈ cs.getLast?, p c = false) : trimBy p cs = cs := by
  have hkeep : ∀ {cs : List Char}, (∀ c ∈ cs.head?, p c = false) → cs.dropWhile p = cs := by
    intro cs h
    cases cs with
    | nil => rfl
    | cons c rest => rw [List.dropWhile_cons_of_neg (by simp [h c rfl])]
  rw [trimBy, hkeep head, hkeep (by simpa using last), List.reverse_reverse]

theorem exists_around_trimBy (p : Char → Bool) (cs : List Char) :
    ∃ a b, cs = a ++ trimBy p cs ++ b ∧ (∀ c ∈ a, p c = true) ∧ ∀ c ∈ b, p c = true := by
  refine ⟨cs.takeWhile p, (cs.dropWhile p).rtakeWhile p, ?_, fun c => List.mem_takeWhile_imp,
    fun c => List.mem_rtakeWhile_imp⟩
  have htrim : trimBy p cs = (cs.dropWhile p).rdropWhile p := rfl
  rw [htrim, List.append_assoc, List.rdropWhile_append_rtakeWhile,
    List.takeWhile_append_dropWhile]

theorem mem_of_mem_trimBy {p : Char → Bool} {c : Char} {cs : List Char} (h : c ∈ trimBy p cs) :
    c ∈ cs := by
  obtain ⟨a, b, hcs, -, -⟩ := exists_around_trimBy p cs
  rw [hcs]
  exact List.mem_append_left _ (List.mem_append_right _ h)

theorem isBlank_of_isAsciiDigit {c : Char} (h : isAsciiDigit c = true) : isBlank c = false := by
  simp only [isAsciiDigit, Bool.and_eq_true, decide_eq_true_eq] at h
  unfold isBlank
  rw [if_pos (by omega)]
  simp
  omega

theorem decimalValue?_of_isAsciiDigit {c : Char} (h : isAsciiDigit c = true) :
    decimalValue? c = some (c.toNat - 48) := by
  have hlt : c.toNat < 128 := by
    simp only [isAsciiDigit, Bool.and_eq_true, decide_eq_true_eq] at h
    omega
  rw [decimalValue?, if_pos hlt, if_pos h]

end ApiSmith.Text

namespace ApiSmith.Number

open Text

theorem isAsciiDigit_of_mem_natText {n : Nat} {c : Char} (h : c ∈ natText n) :
    isAsciiDigit c = true := by
  have hdigit := Nat.isDigit_of_mem_toDigits (by decide) (by decide) h
  simp only [Char.isDigit, Bool.and_eq_true, decide_eq_true_eq] at hdigit
  simp only [isAsciiDigit, Bool.and_eq_true, decide_eq_true_eq]
  exact hdigit

theorem natText_ne_nil (n : Nat) : natText n ≠ [] := Nat.toDigits_ne_nil

theorem groupedDigits?_of_digits {cs : List Char} (h : ∀ c ∈ cs, isAsciiDigit c = true)
    (ne : cs ≠ []) : groupedDigits? cs = some (cs.map fun c => c.toNat - 48) := by
  fun_induction groupedDigits? cs with
  | case1 => exact absurd rfl ne
  | case2 c => simp [decimalValue?_of_isAsciiDigit (h c (by simp))]
  | case3 c rest ih => exact absurd (h '_' (by simp)) (by decide)
  | case4 c rest hne hunder ih =>
    have hrest := ih (fun d hd => h d (List.mem_cons_of_mem _ hd)) hne
    simp [decimalValue?_of_isAsciiDigit (h c List.mem_cons_self), hrest]

theorem ofDigits_natText (n : Nat) :
    ofDigits 10 ((natText n).map fun c => c.toNat - 48) = n := by
  have hread : Nat.ofDigitChars 10 (natText n) 0 = n :=
    Nat.ofDigitChars_toDigits (by decide) (by decide)
  rw [Nat.ofDigitChars] at hread
  rw [ofDigits, List.foldl_map]
  simp only [Nat.mul_comm] at hread
  exact hread

theorem readNat?_natText {n : Nat} (h : (natText n).length ≤ digitLimit) :
    readNat? (natText n) = some n := by
  simp only [readNat?, groupedDigits?_of_digits (fun c => isAsciiDigit_of_mem_natText)
    (natText_ne_nil n), Option.bind_eq_bind, Option.bind_some, List.length_map, if_pos h,
    ofDigits_natText]

theorem trim_natText (n : Nat) : trim (natText n) = natText n :=
  trimBy_eq_self
    (fun _ hc => isBlank_of_isAsciiDigit (isAsciiDigit_of_mem_natText (List.mem_of_mem_head? hc)))
    (fun _ hc =>
      isBlank_of_isAsciiDigit (isAsciiDigit_of_mem_natText (List.mem_of_mem_getLast? hc)))

theorem trim_minus_natText (n : Nat) : trim ('-' :: natText n) = '-' :: natText n := by
  refine trimBy_eq_self (by rintro c ⟨⟩; decide) fun c hc => ?_
  rw [List.getLast?_cons, List.getLast?_eq_some_getLast (natText_ne_nil n)] at hc
  cases hc
  exact isBlank_of_isAsciiDigit (isAsciiDigit_of_mem_natText (List.getLast_mem _))

/-- The text of an integer is read as this integer, if it has not too many digits. -/
theorem readInt?_intText {n : Int} (h : (natText n.natAbs).length ≤ digitLimit) :
    readInt? (intText n) = some n := by
  cases n with
  | ofNat n =>
    have hdigit : ∀ c rest, natText n = c :: rest → isAsciiDigit c = true := fun c rest hc =>
      isAsciiDigit_of_mem_natText (hc ▸ List.mem_cons_self)
    have hread : readNat? (natText n) = some n := readNat?_natText h
    rw [intText, readInt?, trim_natText]
    split
    · next rest hminus => cases hdigit '-' rest hminus
    · next rest hplus => cases hdigit '+' rest hplus
    · rw [hread]
      rfl
  | negSucc n =>
    have hread : readNat? (natText (n + 1)) = some (n + 1) := readNat?_natText h
    rw [intText, readInt?, trim_minus_natText]
    simp only [hread]
    rfl

/-! ## What is read -/

theorem mem_of_groupedDigits? {cs : List Char} {ds : List Nat} (h : groupedDigits? cs = some ds)
    {c : Char} (hc : c ∈ cs) : isDecimal c = true ∨ c = '_' := by
  have hdigit : ∀ {d : Char} {n : Nat}, decimalValue? d = some n → isDecimal d = true := by
    intro d n hd
    rw [← decimalValue?_isSome, hd]
    rfl
  fun_induction groupedDigits? cs generalizing ds with
  | case1 => cases hc
  | case2 d =>
    obtain ⟨n, hn, -⟩ := Option.map_eq_some_iff.mp h
    rw [List.mem_singleton.mp hc]
    exact .inl (hdigit hn)
  | case3 d rest ih =>
    simp only [Option.bind_eq_bind, Option.bind_eq_some_iff] at h
    obtain ⟨n, hn, more, hmore, -⟩ := h
    rcases List.mem_cons.mp hc with rfl | hc
    · exact .inl (hdigit hn)
    · rcases List.mem_cons.mp hc with rfl | hc
      · exact .inr rfl
      · exact ih hmore hc
  | case4 d rest hne hunder ih =>
    simp only [Option.bind_eq_bind, Option.bind_eq_some_iff] at h
    obtain ⟨n, hn, more, hmore, -⟩ := h
    rcases List.mem_cons.mp hc with rfl | hc
    · exact .inl (hdigit hn)
    · exact ih hmore hc

theorem mem_of_readNat? {cs : List Char} {n : Nat} (h : readNat? cs = some n) {c : Char}
    (hc : c ∈ cs) : isDecimal c = true ∨ c = '_' := by
  simp only [readNat?, Option.bind_eq_bind, Option.bind_eq_some_iff] at h
  obtain ⟨ds, hds, -⟩ := h
  exact mem_of_groupedDigits? hds hc

theorem mem_of_readInt? {cs : List Char} {n : Int} (h : readInt? cs = some n) {c : Char}
    (hc : c ∈ cs) : isDecimal c = true ∨ c = '_' ∨ c = '-' ∨ c = '+' ∨ isBlank c = true := by
  obtain ⟨a, b, hcs, ha, hb⟩ := exists_around_trimBy isBlank cs
  have hinside : c ∈ trim cs → isDecimal c = true ∨ c = '_' ∨ c = '-' ∨ c = '+' := by
    intro hc
    unfold readInt? at h
    split at h
    · next rest htrim =>
      obtain ⟨m, hm, -⟩ := Option.map_eq_some_iff.mp h
      obtain ⟨k, hk, -⟩ := Option.bind_eq_some_iff.mp hm
      rw [htrim] at hc
      rcases List.mem_cons.mp hc with rfl | hc
      · exact .inr (.inr (.inl rfl))
      · have hdigit := mem_of_readNat? hk hc
        tauto
    · next rest htrim =>
      obtain ⟨m, hm, -⟩ := Option.map_eq_some_iff.mp h
      rw [htrim] at hc
      rcases List.mem_cons.mp hc with rfl | hc
      · exact .inr (.inr (.inr rfl))
      · have hdigit := mem_of_readNat? hm hc
        tauto
    · obtain ⟨m, hm, -⟩ := Option.map_eq_some_iff.mp h
      have hdigit := mem_of_readNat? hm hc
      tauto
  rw [hcs, List.mem_append, List.mem_append] at hc
  rcases hc with (hc | hc) | hc
  · have hblank := ha c hc
    tauto
  · have hread := hinside hc
    tauto
  · have hblank := hb c hc
    tauto

end ApiSmith.Number
