import Mathlib.Algebra.Group.Nat.Defs
import ApiSmith.Proofs.Integers
import ApiSmith.Proofs.QueryDates
import ApiSmith.Time.Reading

/-!
# Moments written and read

A moment with an offset is written to the second, and what is written is read as the moment without
its microseconds (`formatted_moment_reads_again`). It is read in the first of the fixed forms. A reader
gives all readings of a text and only the first one counts, so a proof follows the first readings
(`Reader.First`): a sequence has the first reading of its parts, and a choice that of its first
alternative that reads at all. Numbers are written with all their digits, which the alternatives
that leave zeros out come after.
-/

namespace ApiSmith.Number

open Text

/-! ## Padded numbers -/

theorem padded_one {n : Nat} (h : n < 10) : padded 1 n = [Nat.digitChar n] := by
  rw [padded, natText, Nat.toDigits_of_lt_base h]
  rfl

theorem padded_succ {width : Nat} (pos : 0 < width) (n : Nat) :
    padded (width + 1) n = padded width (n / 10) ++ [Nat.digitChar (n % 10)] := by
  obtain ⟨w, rfl⟩ := Nat.exists_eq_succ_of_ne_zero (Nat.ne_of_gt pos)
  unfold padded natText
  rcases Nat.lt_or_ge n 10 with hlt | hge
  · have hzero : n / 10 = 0 := Nat.div_eq_of_lt hlt
    rw [hzero, Nat.toDigits_zero, Nat.toDigits_of_lt_base hlt, Nat.mod_eq_of_lt hlt]
    simp [List.replicate_succ']
  · rw [Nat.toDigits_of_base_le (by decide) hge]
    simp

theorem padded_two {n : Nat} (h : n < 100) :
    padded 2 n = [Nat.digitChar (n / 10), Nat.digitChar (n % 10)] := by
  rw [padded_succ (by decide), padded_one (by omega)]
  rfl

theorem padded_four {n : Nat} (h : n < 10000) :
    padded 4 n = [Nat.digitChar (n / 10 / 10 / 10), Nat.digitChar (n / 10 / 10 % 10),
      Nat.digitChar (n / 10 % 10), Nat.digitChar (n % 10)] := by
  rw [padded_succ (by decide), padded_succ (by decide), padded_two (by omega)]
  rfl

theorem isAsciiDigit_of_mem_padded {width n : Nat} {c : Char} (h : c ∈ padded width n) :
    isAsciiDigit c = true := by
  rcases List.mem_append.mp h with h | h
  · rw [List.eq_of_mem_replicate h]
    rfl
  · exact isAsciiDigit_of_mem_natText h

theorem length_padded {width n : Nat} (pos : 0 < width) (h : n < 10 ^ width) :
    (padded width n).length = width := by
  have hdigits : (natText n).length ≤ width := (Nat.length_toDigits_le_iff (by decide) pos).mpr h
  rw [padded, List.length_append, List.length_replicate]
  omega

theorem ofDigits_replicate_zero (k : Nat) (ds : List Nat) :
    ofDigits 10 (List.replicate k 0 ++ ds) = ofDigits 10 ds := by
  induction k with
  | zero => rfl
  | succ k ih => exact ih

end ApiSmith.Number

namespace ApiSmith.Time

open Text Number

namespace Reader

theorem number_of_digits {cs : List Char} (h : ∀ c ∈ cs, isAsciiDigit c = true) :
    number cs = ofDigits 10 (cs.map fun c => c.toNat - 48) := by
  rw [number]
  refine congrArg (ofDigits 10) (List.map_congr_left fun c hc => ?_)
  rw [decimalValue?_of_isAsciiDigit (h c hc)]
  rfl

@[simp] theorem number_padded (width n : Nat) : number (padded width n) = n := by
  rw [number_of_digits fun c => isAsciiDigit_of_mem_padded, padded, List.map_append,
    List.map_replicate]
  exact (ofDigits_replicate_zero _ _).trans (ofDigits_natText n)

/-! ## First readings -/

def First {α : Type} (r : Reader α) (cs : List Char) (a : α) (rest : List Char) : Prop :=
  (r cs).head? = some (a, rest)

section

variable {α β : Type} {r s : Reader α} {f : α → Reader β} {cs mid rest : List Char} {a : α} {b : β}

theorem First.andThen (h : First r cs a mid) (next : First (f a) mid b rest) :
    First (r.andThen f) cs b rest := by
  obtain ⟨more, hmore⟩ := List.head?_eq_some_iff.mp h
  unfold First Reader.andThen at *
  rw [hmore, List.flatMap_cons, List.head?_append, next]
  rfl

theorem first_done (a : α) (cs : List Char) : First (done a) cs a cs := rfl

theorem First.orElse (h : First r cs a rest) : First (r.orElse s) cs a rest := by
  unfold First Reader.orElse at *
  rw [List.head?_append, h]
  rfl

theorem First.or_else (h : First s cs a rest) (none : r cs = []) :
    First (r.orElse s) cs a rest := by
  unfold First Reader.orElse at *
  rw [none, List.nil_append, h]

theorem first_char {p : Char → Bool} {c : Char} (h : p c = true) (rest : List Char) :
    First (char p) (c :: rest) c rest := by
  show (if p c then [(c, rest)] else []).head? = some (c, rest)
  rw [if_pos h]
  rfl

theorem First.pair {a b : Reader Char} {x y : Char} (hx : First a cs x mid)
    (hy : First b mid y rest) : First (pair a b) cs [x, y] rest :=
  hx.andThen (hy.andThen (first_done _ _))

theorem First.single {a : Reader Char} {x : Char} (h : First a cs x rest) :
    First (single a) cs [x] rest :=
  h.andThen (first_done _ _)

theorem first_mark (c : Char) (rest : List Char) : First (mark c) (c :: rest) () rest := by
  refine (first_char ?_ rest).andThen (first_done _ _)
  simp

theorem first_timeMark : First timeMark ('T' :: rest) () rest :=
  (first_char rfl rest).andThen (first_done _ _)

theorem first_upToSix {p : Char → Bool} {run : List Char} (six : run.length = 6)
    (all : ∀ c ∈ run, p c = true) (rest : List Char) :
    First (upToSix p) (run ++ rest) run rest := by
  have htake : ((run ++ rest).take 6).takeWhile p = run := by
    rw [← six, List.take_left, List.takeWhile_eq_self_iff.mpr all]
  have hrest : (run ++ rest).drop 6 = rest := by rw [← six, List.drop_left]
  unfold First upToSix
  simp only [htake, six, List.head?_map]
  show some (run.take 6, (run ++ rest).drop 6) = some (run, rest)
  rw [hrest, List.take_of_length_le six.le]

end

/-! ## Digits -/

theorem isDecimal_of_isAsciiDigit {c : Char} (h : isAsciiDigit c = true) : isDecimal c = true := by
  rw [← decimalValue?_isSome, decimalValue?_of_isAsciiDigit h]
  rfl

theorem isAsciiDigit_digitChar {d : Nat} (h : d < 10) :
    isAsciiDigit (Nat.digitChar d) = true := by
  simp only [isAsciiDigit, Nat.toNat_digitChar_of_lt_ten h, Bool.and_eq_true, decide_eq_true_eq]
  omega

theorem first_digit {d : Nat} (h : d < 10) (rest : List Char) :
    First digit (Nat.digitChar d :: rest) (Nat.digitChar d) rest :=
  first_char (isDecimal_of_isAsciiDigit (isAsciiDigit_digitChar h)) rest

theorem digitChar_le_iff {m n : Nat} (hm : m < 10) (hn : n < 10) :
    Nat.digitChar m ≤ Nat.digitChar n ↔ m ≤ n := by
  show (Nat.digitChar m).toNat ≤ (Nat.digitChar n).toNat ↔ m ≤ n
  rw [Nat.toNat_digitChar_of_lt_ten hm, Nat.toNat_digitChar_of_lt_ten hn]
  omega

theorem first_between {a b d : Nat} (low : a ≤ d) (high : d ≤ b) (hb : b < 10)
    (rest : List Char) :
    First (between (Nat.digitChar a) (Nat.digitChar b)) (Nat.digitChar d :: rest)
      (Nat.digitChar d) rest := by
  refine first_char ?_ rest
  rw [decide_eq_true ((digitChar_le_iff (by omega) (by omega)).mpr low),
    decide_eq_true ((digitChar_le_iff (by omega) hb).mpr high)]
  rfl

theorem between_eq_nil {a b d : Nat} (h : d < a ∨ b < d) (ha : a < 10) (hb : b < 10) (hd : d < 10)
    (rest : List Char) :
    between (Nat.digitChar a) (Nat.digitChar b) (Nat.digitChar d :: rest) = [] := by
  refine if_neg ?_
  rw [Bool.and_eq_true, decide_eq_true_eq, decide_eq_true_eq, digitChar_le_iff ha hd,
    digitChar_le_iff hd hb]
  omega

/-! ## Numbers in their places -/

section

variable {n a b : Nat} {r : Reader Char} (rest : List Char)

theorem first_pair (low : a ≤ n / 10) (high : n / 10 ≤ b) (hb : b < 10)
    (units : First r (Nat.digitChar (n % 10) :: rest) (Nat.digitChar (n % 10)) rest) :
    First (Reader.pair (between (Nat.digitChar a) (Nat.digitChar b)) r) (padded 2 n ++ rest)
      (padded 2 n) rest := by
  rw [padded_two (by omega)]
  exact (first_between low high hb _).pair units

theorem pair_eq_nil (h : n < 100) (out : n / 10 < a ∨ b < n / 10) (ha : a < 10) (hb : b < 10) :
    Reader.pair (between (Nat.digitChar a) (Nat.digitChar b)) r (padded 2 n ++ rest) = [] := by
  rw [padded_two h]
  unfold Reader.pair Reader.andThen
  rw [List.cons_append, between_eq_nil out ha hb (by omega)]
  rfl

theorem first_year (h : n < 10000) : First year (padded 4 n ++ rest) (padded 4 n) rest := by
  rw [padded_four h]
  refine First.andThen (First.pair (first_digit ?_ _) (first_digit ?_ _))
    (First.andThen (First.pair (first_digit ?_ _) (first_digit ?_ _)) (first_done _ _)) <;> omega

theorem first_month (pos : 1 ≤ n) (h : n ≤ 12) :
    First month (padded 2 n ++ rest) (padded 2 n) rest := by
  rcases Nat.lt_or_ge n 10 with hone | htwo
  · refine First.or_else (First.orElse ?_) ?_
    · refine first_pair (a := 0) (b := 0) rest ?_ ?_ ?_
        (first_between (a := 1) (b := 9) ?_ ?_ ?_ rest) <;> omega
    · refine pair_eq_nil (a := 1) (b := 1) rest ?_ ?_ ?_ ?_ <;> omega
  · refine First.orElse (first_pair (a := 1) (b := 1) rest ?_ ?_ ?_
      (first_between (a := 0) (b := 2) ?_ ?_ ?_ rest)) <;> omega

theorem first_day (pos : 1 ≤ n) (h : n ≤ 31) :
    First day (padded 2 n ++ rest) (padded 2 n) rest := by
  rcases Nat.lt_or_ge n 30 with hlow | hhigh
  · refine First.or_else ?_ (pair_eq_nil (a := 3) (b := 3) rest (by omega) (by omega) (by omega)
      (by omega))
    rcases Nat.lt_or_ge n 10 with hone | htwo
    · refine First.or_else (First.orElse ?_) ?_
      · refine first_pair (a := 0) (b := 0) rest ?_ ?_ ?_
          (first_between (a := 1) (b := 9) ?_ ?_ ?_ rest) <;> omega
      · refine pair_eq_nil (a := 1) (b := 2) rest ?_ ?_ ?_ ?_ <;> omega
    · refine First.orElse (first_pair (a := 1) (b := 2) rest ?_ ?_ ?_ (first_digit ?_ rest)) <;>
        omega
  · refine First.orElse (first_pair (a := 3) (b := 3) rest ?_ ?_ ?_
      (first_between (a := 0) (b := 1) ?_ ?_ ?_ rest)) <;> omega

theorem first_hour (h : n < 24) : First hour (padded 2 n ++ rest) (padded 2 n) rest := by
  rcases Nat.lt_or_ge n 20 with hlow | hhigh
  · refine First.or_else (First.orElse ?_) ?_
    · refine first_pair (a := 0) (b := 1) rest ?_ ?_ ?_ (first_digit ?_ rest) <;> omega
    · refine pair_eq_nil (a := 2) (b := 2) rest ?_ ?_ ?_ ?_ <;> omega
  · refine First.orElse (first_pair (a := 2) (b := 2) rest ?_ ?_ ?_
      (first_between (a := 0) (b := 3) ?_ ?_ ?_ rest)) <;> omega

theorem first_sixty (h : n < 60) :
    First (pair (between '0' '5') digit) (padded 2 n ++ rest) (padded 2 n) rest := by
  refine first_pair (a := 0) (b := 5) rest ?_ ?_ ?_ (first_digit ?_ rest) <;> omega

theorem first_minute (h : n < 60) : First minute (padded 2 n ++ rest) (padded 2 n) rest :=
  (first_sixty rest h).orElse

theorem first_second (h : n < 60) : First second (padded 2 n ++ rest) (padded 2 n) rest := by
  have hleap : pair (between '6' '6') (between '0' '1') (padded 2 n ++ rest) = [] := by
    refine pair_eq_nil (a := 6) (b := 6) rest ?_ ?_ ?_ ?_ <;> omega
  exact First.or_else (first_sixty rest h).orElse hleap

theorem first_digits (h : n < 100) :
    First (pair digit digit) (padded 2 n ++ rest) (padded 2 n) rest := by
  rw [padded_two h]
  exact (first_digit (by omega) _).pair (first_digit (by omega) _)

theorem first_colon : First optionalColon (':' :: rest) [':'] rest :=
  First.orElse (First.single (first_char rfl rest))

end

end Reader

/-! ## Offsets -/

def offsetTail (seconds fraction : Nat) : List Char :=
  (if seconds == 0 && fraction == 0 then [] else ':' :: padded 2 seconds) ++
    (if fraction == 0 then [] else '.' :: padded 6 fraction)

def signedClock (sign : Char) (hours minutes seconds fraction : Nat) : List Char :=
  sign :: (padded 2 hours ++ ':' :: (padded 2 minutes ++ offsetTail seconds fraction))

theorem offsetText_eq (o : Int) : Moment.offsetText o =
    signedClock (if o < 0 then '-' else '+') (o.natAbs / 1000000 / 3600)
      (o.natAbs / 1000000 / 60 % 60) (o.natAbs / 1000000 % 60) (o.natAbs % 1000000) := by
  simp [Moment.offsetText, signedClock, offsetTail]

theorem offsetTail_cases (s f : Nat) :
    (s = 0 ∧ f = 0 ∧ offsetTail s f = []) ∨ (f = 0 ∧ offsetTail s f = ':' :: padded 2 s) ∨
      offsetTail s f = ':' :: (padded 2 s ++ '.' :: padded 6 f) := by
  unfold offsetTail
  rcases Nat.eq_zero_or_pos f with rfl | hf
  · rcases Nat.eq_zero_or_pos s with rfl | hs
    · exact .inl ⟨rfl, rfl, rfl⟩
    · exact .inr (.inl ⟨rfl, by simp [Nat.ne_of_gt hs]⟩)
  · exact .inr (.inr (by simp [Nat.ne_of_gt hf]))

namespace Reader

theorem first_offsetTail {s f : Nat} (hs : s < 60) (hf : f < 1000000) :
    First (offsetSeconds.orElse (done [])) (offsetTail s f) (offsetTail s f) [] := by
  rcases offsetTail_cases s f with ⟨-, -, htail⟩ | ⟨-, htail⟩ | htail
  · rw [htail]
    rfl
  · rw [htail]
    have hseconds := first_sixty [] hs
    rw [List.append_nil] at hseconds
    exact First.orElse ((first_colon _).andThen (hseconds.andThen
      (First.or_else (first_done _ _) rfl)))
  · rw [htail]
    have hfraction : First (upToSix isDecimal) (padded 6 f ++ []) (padded 6 f) [] :=
      first_upToSix (length_padded (by decide) hf)
        (fun c hc => isDecimal_of_isAsciiDigit (isAsciiDigit_of_mem_padded hc)) []
    rw [List.append_nil] at hfraction
    exact First.orElse ((first_colon _).andThen ((first_sixty _ hs).andThen
      (First.orElse ((first_char rfl _).andThen (hfraction.andThen (first_done _ _))))))

theorem first_signedClock {sign : Char} (hsign : sign = '-' ∨ sign = '+') {h m s f : Nat}
    (hh : h < 100) (hm : m < 60) (hs : s < 60) (hf : f < 1000000) :
    First offset (signedClock sign h m s f) (signedClock sign h m s f) [] := by
  have hclock : signedClock sign h m s f =
      sign :: padded 2 h ++ [':'] ++ padded 2 m ++ offsetTail s f := by
    simp [signedClock]
  have hchar : (sign == '+' || sign == '-') = true := by rcases hsign with rfl | rfl <;> rfl
  have hread : First offset (signedClock sign h m s f)
      (sign :: padded 2 h ++ [':'] ++ padded 2 m ++ offsetTail s f) [] :=
    First.orElse ((first_char hchar _).andThen ((first_digits _ hh).andThen ((first_colon _).andThen
      ((first_sixty _ hm).andThen ((first_offsetTail hs hf).andThen (first_done _ _))))))
  rwa [← hclock] at hread

theorem first_offsetText {o : Int} (bound : o.natAbs < 86400000000) :
    First offset (Moment.offsetText o) (Moment.offsetText o) [] := by
  rw [offsetText_eq]
  refine first_signedClock ?_ ?_ ?_ ?_ ?_
  · split
    · exact .inl rfl
    · exact .inr rfl
  all_goals omega

theorem first_zulu : First offset ['Z'] ['Z'] [] := rfl

end Reader

theorem fractionMicros_padded {f : Nat} (hf : f < 1000000) :
    fractionMicros (padded 6 f) = f := by
  rw [fractionMicros, Reader.number_padded, length_padded (by decide) hf]
  exact Nat.mul_one f

theorem readOffset?_colons {sign h h' m m' : Char} {tail seconds : List Char}
    (htail : (tail = [] ∧ seconds = []) ∨ tail = ':' :: seconds) :
    readOffset? (sign :: h :: h' :: ':' :: m :: m' :: tail) =
      some (offsetMicros (sign == '-') (Reader.number [h, h']) (Reader.number [m, m'])
        (Reader.number (seconds.take 2)) (fractionMicros (seconds.drop 3))) := by
  rcases htail with ⟨rfl, rfl⟩ | rfl
  · rw [readOffset?]
    rfl
  · rw [readOffset?]
    rfl

theorem exists_offsetTail {s f : Nat} (hs : s < 60) (hf : f < 1000000) :
    ∃ seconds, ((offsetTail s f = [] ∧ seconds = []) ∨ offsetTail s f = ':' :: seconds) ∧
      Reader.number (seconds.take 2) = s ∧ fractionMicros (seconds.drop 3) = f := by
  have hlength : (padded 2 s).length = 2 := length_padded (by decide) (by omega)
  rcases offsetTail_cases s f with ⟨rfl, rfl, htail⟩ | ⟨rfl, htail⟩ | htail
  · exact ⟨[], .inl ⟨htail, rfl⟩, rfl, rfl⟩
  · refine ⟨padded 2 s, .inr htail, ?_, ?_⟩
    · rw [List.take_of_length_le hlength.le, Reader.number_padded]
    · rw [List.drop_of_length_le (by omega)]
      rfl
  · refine ⟨_, .inr htail, ?_, ?_⟩
    · rw [List.take_left' hlength, Reader.number_padded]
    · rw [List.drop_append, hlength, List.drop_of_length_le (by omega)]
      exact fractionMicros_padded hf

theorem readOffset?_signedClock (sign : Char) {h m s f : Nat} (hh : h < 100) (hm : m < 60)
    (hs : s < 60) (hf : f < 1000000) :
    readOffset? (signedClock sign h m s f) = some (offsetMicros (sign == '-') h m s f) := by
  obtain ⟨seconds, htail, hseconds, hfraction⟩ := exists_offsetTail hs hf
  have hminutes : m < 100 := by omega
  rw [signedClock, padded_two hh, padded_two hminutes]
  refine (readOffset?_colons htail).trans ?_
  rw [← padded_two hh, ← padded_two hminutes, Reader.number_padded, Reader.number_padded, hseconds,
    hfraction]

/-- The offset that is written is read again. -/
theorem readOffset?_offsetText {o : Int} (bound : o.natAbs < 86400000000) :
    readOffset? (Moment.offsetText o) = some o := by
  rw [offsetText_eq, readOffset?_signedClock _ (by omega) (by omega) (by omega) (by omega)]
  by_cases hneg : o < 0
  · rw [if_pos hneg, offsetMicros, if_pos (by decide)]
    congr 1
    omega
  · rw [if_neg hneg, offsetMicros, if_neg (by decide)]
    congr 1
    omega

/-! ## Moments -/

namespace Moment

def toSecond (m : Moment) : Moment :=
  { m with
    micro := 0
    valid := by
      have hvalid := m.valid
      simp only [isMoment, Bool.and_eq_true] at hvalid ⊢
      exact ⟨⟨hvalid.1.1, by decide⟩, hvalid.2⟩ }

def sentOffset (o : Int) : List Char := if o == 0 then ['Z'] else offsetText o

theorem sendText?_of_offset (zone : Zone) {m : Moment} {o : Int} (h : m.offset = some o) :
    m.sendText? zone = some (m.secondsText ++ sentOffset o) := by
  have hplace : m.located? zone = some m := by rw [located?, h]
  rw [sendText?, hplace]
  simp only [Option.bind_eq_bind, Option.bind_some, h]
  rfl

/-- The parts of a moment in their ranges. -/
structure InRange (m : Moment) : Prop where
  year : m.year < 10000
  month_pos : 1 ≤ m.month
  month : m.month ≤ 12
  day_pos : 1 ≤ m.day
  day : m.day ≤ 31
  hour : m.hour < 24
  minute : m.minute < 60
  second : m.second < 60
  offset : ∀ o, m.offset = some o → o.natAbs < 86400000000

theorem inRange (m : Moment) : m.InRange := by
  have hvalid := m.valid
  have hdays : daysInMonth m.year m.month ≤ 31 := by
    unfold daysInMonth
    split
    · split <;> decide
    all_goals decide
  simp only [isMoment, isDate, Bool.and_eq_true, decide_eq_true_eq] at hvalid
  obtain ⟨⟨⟨⟨⟨hdate, hhour⟩, hminute⟩, hsecond⟩, -⟩, hoffset⟩ := hvalid
  obtain ⟨⟨⟨⟨⟨-, hyear⟩, hmonth⟩, hmonth'⟩, hday⟩, hday'⟩ := hdate
  refine ⟨by omega, hmonth, hmonth', hday, hday'.trans hdays, hhour, hminute, hsecond,
    fun o ho => ?_⟩
  rw [ho] at hoffset
  simp only [Bool.and_eq_true, decide_eq_true_eq] at hoffset
  unfold dayMicros at hoffset
  omega

end Moment

theorem readsSentOffset {o : Int} (bound : o.natAbs < 86400000000) :
    Reader.First Reader.offset (Moment.sentOffset o) (Moment.sentOffset o) [] ∧
      readOffset? (Moment.sentOffset o) = some o := by
  unfold Moment.sentOffset
  split
  · next hzero => exact ⟨Reader.first_zulu, congrArg some (beq_iff_eq.mp hzero).symm⟩
  · exact ⟨Reader.first_offsetText bound, readOffset?_offsetText bound⟩

theorem first_fixedForm (m : Moment) {zone : List Char}
    (hzone : Reader.First Reader.offset zone zone []) :
    Reader.First (fixedForm false) (m.secondsText ++ zone)
      ⟨[padded 4 m.year, padded 2 m.month, padded 2 m.day, padded 2 m.hour, padded 2 m.minute,
        padded 2 m.second], [], zone⟩ [] := by
  have ranges := m.inRange
  simp only [Moment.secondsText, List.append_assoc, List.cons_append, List.nil_append]
  unfold fixedForm
  refine (Reader.first_year _ ranges.year).andThen ((Reader.first_mark _ _).andThen ?_)
  refine (Reader.first_month _ ranges.month_pos ranges.month).andThen
    ((Reader.first_mark _ _).andThen ?_)
  refine (Reader.first_day _ ranges.day_pos ranges.day).andThen (Reader.first_timeMark.andThen ?_)
  refine (Reader.first_hour _ ranges.hour).andThen ((Reader.first_mark _ _).andThen ?_)
  refine (Reader.first_minute _ ranges.minute).andThen ((Reader.first_mark _ _).andThen ?_)
  refine (Reader.first_second _ ranges.second).andThen ((Reader.first_done _ _).andThen ?_)
  exact hzone.andThen (Reader.first_done _ _)

/-- The text of a moment is read as the moment to the second. -/
theorem readMoment?_secondsText {m : Moment} {o : Int} (h : m.offset = some o) :
    readMoment? (m.secondsText ++ Moment.sentOffset o) = some m.toSecond := by
  obtain ⟨hzone, hoffset⟩ := readsSentOffset (m.inRange.offset o h)
  have hform := first_fixedForm m hzone
  have hmoment : Moment.of? m.year m.month m.day m.hour m.minute m.second 0 (some o) =
      some m.toSecond := by
    have hvalid := m.toSecond.valid
    rw [← h]
    exact dif_pos hvalid
  have hfixed : readFixed? false (m.secondsText ++ Moment.sentOffset o) = some m.toSecond := by
    unfold Reader.First at hform
    rw [readFixed?, hform]
    simp only [Option.bind_eq_bind, Option.bind_some, hoffset, List.map_cons, List.map_nil,
      Reader.number_padded]
    exact hmoment
  rw [readMoment?, hfixed]

end ApiSmith.Time

namespace ApiSmith

open Time

/-- A moment with an offset is formatted as a text that is read as the moment without its
microseconds, and what is read is formatted as the same text. -/
theorem formatted_moment_reads_again (zone : Zone) {m : Moment} {o : Int} (h : m.offset = some o) :
    ∃ text, formatDate zone (.moment m) = .ok (.text text) ∧
      readMoment? text.toList = some m.toSecond ∧
      formatDate zone (.moment m.toSecond) = .ok (.text text) := by
  have hformat : formatDate zone (.moment m) =
      .ok (.text (String.ofList (m.secondsText ++ Moment.sentOffset o))) := by
    rw [formatDate, encodeMoment, Moment.sendText?_of_offset zone h]
    rfl
  refine ⟨_, hformat, ?_, ?_⟩
  · rw [String.toList_ofList]
    exact readMoment?_secondsText h
  · rw [formatDate, encodeMoment, Moment.sendText?_of_offset zone (m := m.toSecond) h]
    rfl

/-- Within the last minute of a year, on a clock that is behind UTC by all but a microsecond of a
day. -/
def oddMoment : Moment :=
  ⟨1, 12, 31, 23, 59, 9, 250000, some (-86399999999), by decide⟩

theorem formatted_moment_reads_again_of_odd :
    formatDate .utc (.moment oddMoment) =
      .ok (.text "0001-12-31T23:59:09-23:59:59.999999") ∧
    readMoment? "0001-12-31T23:59:09-23:59:59.999999".toList = some oddMoment.toSecond := by
  have hformat : formatDate .utc (.moment oddMoment) =
      .ok (.text "0001-12-31T23:59:09-23:59:59.999999") := by
    have htext : (oddMoment.sendText? .utc).map String.ofList =
        some "0001-12-31T23:59:09-23:59:59.999999" := by
      decide +kernel
    obtain ⟨cs, hcs, hstring⟩ := Option.map_eq_some_iff.mp htext
    rw [formatDate, encodeMoment, hcs, ← hstring]
    rfl
  obtain ⟨text, htext, hread, -⟩ := formatted_moment_reads_again .utc (m := oddMoment) rfl
  cases hformat.symm.trans htext
  exact ⟨hformat, hread⟩

end ApiSmith
