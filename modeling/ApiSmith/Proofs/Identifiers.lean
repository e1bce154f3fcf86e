import ApiSmith.Profile
import ApiSmith.Proofs.Integers
import ApiSmith.Proofs.Keys
import ApiSmith.Proofs.ModuleNames
import ApiSmith.Text.Identifier

/-!
# Identifiers made from texts

`identifierText` trims blanks, turns runs of other characters into underscores and trims these.
`identifierText_eq` says what comes of it: only the part from the first letter or digit to the last
one counts (`bare`), and its runs are joined. So a text comes to nothing if it has no letter and no
digit, and to a reserved word exactly if its bare part is this word already
(`isReserved_identifierText`), whatever stood around it.

What comes out is tidy, and what is tidy is left as it is (`identifierText_eq_self_iff`). For ASCII
texts the characters of words are those of identifiers, and what is not empty is an identifier. A
name that a declaration can bind must not be reserved either (`IsBindable`). Under the presets a name
is kept from the reserved ones by an `a` in front, and the aliases do nothing else
(`safeName_of_preset`).
-/

namespace ApiSmith

namespace Text

/-! ## Tables -/

theorem exists_of_inRanges {n : Nat} {table : List (Nat × Nat)} (h : inRanges n table = true) :
    ∃ r ∈ table, r.1 ≤ n ∧ n ≤ r.2 := by
  induction table with
  | nil => cases h
  | cons r rest ih =>
    unfold inRanges at h
    split_ifs at h with hlow hhigh
    · exact ⟨r, List.mem_cons_self, by omega, hhigh⟩
    · obtain ⟨s, hs, hbounds⟩ := ih h
      exact ⟨s, List.mem_cons_of_mem _ hs, hbounds⟩

theorem isWord_of_isBlank {c : Char} (h : isBlank c = true) : isWord c = false := by
  unfold isBlank at h
  unfold isWord
  by_cases hascii : c.toNat < 128
  · rw [if_pos hascii] at h ⊢
    have hunder : c ≠ '_' := by
      rintro rfl
      exact absurd h (by decide)
    simp only [Bool.or_eq_true, Bool.and_eq_true, decide_eq_true_eq] at h
    simp only [isAsciiLower, isAsciiUpper, isAsciiDigit, Bool.or_eq_false_iff,
      Bool.and_eq_false_iff, decide_eq_false_iff_not, beq_eq_false_iff_ne]
    exact ⟨⟨⟨by omega, by omega⟩, by omega⟩, hunder⟩
  · rw [if_neg hascii] at h ⊢
    have htable : ∀ r ∈ blankRanges, ∀ n ∈ List.range' r.1 (r.2 + 1 - r.1),
        inRanges n alphanumericRanges = false := by
      decide +kernel
    obtain ⟨r, hr, hlow, hhigh⟩ := exists_of_inRanges h
    exact htable r hr c.toNat (List.mem_range'_1.mpr (by omega))

/-! ## Trimmed texts -/

section

variable {p : Char → Bool}

theorem trimBy_around {a b : List Char} (ha : ∀ c ∈ a, p c = true) (hb : ∀ c ∈ b, p c = true)
    (cs : List Char) : trimBy p (a ++ cs ++ b) = trimBy p cs := by
  have hfront : (a ++ (cs ++ b)).dropWhile p = (cs ++ b).dropWhile p :=
    List.dropWhile_append_of_pos ha
  rw [trimBy, trimBy, List.append_assoc, hfront, List.dropWhile_append]
  split
  · next hall =>
    have hcs : cs.dropWhile p = [] := List.isEmpty_iff.mp hall
    have hnil : b.dropWhile p = [] := List.dropWhile_eq_nil_iff.mpr hb
    rw [hcs, hnil]
  · rw [List.reverse_append, List.dropWhile_append_of_pos fun c hc => hb c (List.mem_reverse.mp hc)]

theorem trimBy_trimBy {q : Char → Bool} (h : ∀ c, p c = true → q c = true) (cs : List Char) :
    trimBy q (trimBy p cs) = trimBy q cs := by
  obtain ⟨a, b, hcs, ha, hb⟩ := exists_around_trimBy p cs
  conv_rhs => rw [hcs]
  exact (trimBy_around (fun c hc => h c (ha c hc)) (fun c hc => h c (hb c hc)) _).symm

theorem trimBy_eq_nil_iff {cs : List Char} : trimBy p cs = [] ↔ ∀ c ∈ cs, p c = true := by
  constructor
  · intro h
    obtain ⟨a, b, hcs, ha, hb⟩ := exists_around_trimBy p cs
    rw [h, List.append_nil] at hcs
    intro c hc
    rw [hcs] at hc
    exact (List.mem_append.mp hc).elim (ha c) (hb c)
  · intro h
    have hdrop : cs.dropWhile p = [] := List.dropWhile_eq_nil_iff.mpr h
    rw [trimBy, hdrop]
    rfl

theorem not_of_trimBy_eq_concat {cs rest : List Char} {c : Char}
    (h : trimBy p cs = rest ++ [c]) : p c = false := by
  have hne : (cs.dropWhile p).rdropWhile p ≠ [] := by
    rw [← trimBy_eq, h]
    exact List.concat_ne_nil c rest
  have hlast := List.rdropWhile_last_not p _ hne
  simp only [← trimBy_eq, h, List.getLast_append_singleton] at hlast
  exact Bool.eq_false_iff.mpr hlast

end

/-! ## Bare texts -/

/-- A character that an identifier loses at its ends: an underscore, or none of a word. -/
def isFiller (c : Char) : Bool := !isWord c || c == '_'

/-- The part of a text from its first letter or digit to its last one. -/
def bare (cs : List Char) : List Char := trimBy isFiller cs

theorem isFiller_of_isBlank {c : Char} (h : isBlank c = true) : isFiller c = true := by
  simp [isFiller, isWord_of_isBlank h]

theorem not_isFiller {c : Char} : isFiller c = false ↔ isWord c = true ∧ c ≠ '_' := by
  simp [isFiller]

theorem bare_trim (cs : List Char) : bare (trim cs) = bare cs :=
  trimBy_trimBy (fun _ => isFiller_of_isBlank) cs

theorem bare_eq_nil_iff {cs : List Char} : bare cs = [] ↔ ∀ c ∈ cs, isFiller c = true :=
  trimBy_eq_nil_iff

theorem not_isFiller_of_head_bare {cs : List Char} {c : Char} (h : c ∈ (bare cs).head?) :
    isFiller c = false := by
  obtain ⟨rest, hrest⟩ := List.head?_eq_some_iff.mp h
  exact not_of_trimBy_eq_cons hrest

theorem not_isFiller_of_last_bare {cs : List Char} {c : Char} (h : c ∈ (bare cs).getLast?) :
    isFiller c = false := by
  obtain ⟨rest, hrest⟩ := List.getLast?_eq_some_iff.mp h
  exact not_of_trimBy_eq_concat hrest

theorem mem_of_mem_bare {cs : List Char} {c : Char} (h : c ∈ bare cs) : c ∈ cs :=
  mem_of_mem_trimBy h

theorem bare_eq_self {cs : List Char} (head : ∀ c ∈ cs.head?, isFiller c = false)
    (last : ∀ c ∈ cs.getLast?, isFiller c = false) : bare cs = cs := trimBy_eq_self head last

theorem bare_of_words {c : Char} {rest : List Char} (words : ∀ d ∈ c :: rest, isWord d = true)
    (first : c ≠ '_') (last : ∀ d ∈ (c :: rest).getLast?, d ≠ '_') : bare (c :: rest) = c :: rest := by
  apply bare_eq_self
  · rintro d ⟨⟩
    exact not_isFiller.mpr ⟨words c List.mem_cons_self, first⟩
  · intro d hd
    exact not_isFiller.mpr ⟨words d (List.mem_of_mem_getLast? hd), last d hd⟩

theorem bare_cons {c : Char} (h : isFiller c = true) (cs : List Char) :
    bare (c :: cs) = bare cs := by
  rw [bare, trimBy, List.dropWhile_cons_of_pos h]
  rfl

/-! ## Reserved words -/

theorem letter_of_isReserved {name : String} (h : isReserved name = true) {c : Char}
    (hc : c ∈ name.toList) : isAsciiLower c = true ∨ isAsciiUpper c = true := by
  have hwords : ∀ w ∈ reservedWords,
      (w.toList.all fun c => isAsciiLower c || isAsciiUpper c) = true := by
    decide
  have hall := hwords name (List.contains_iff_mem.mp h)
  simpa only [Bool.or_eq_true] using List.all_eq_true.mp hall c hc

theorem isWord_of_letter {c : Char} (h : isAsciiLower c = true ∨ isAsciiUpper c = true) :
    isWord c = true ∧ c ≠ '_' := by
  have hlt : c.toNat < 128 := by
    simp only [isAsciiLower, isAsciiUpper, Bool.and_eq_true, decide_eq_true_eq] at h
    omega
  constructor
  · rw [isWord, if_pos hlt]
    rcases h with h | h <;> simp [h]
  · rintro rfl
    exact absurd h (by decide)

theorem not_isFiller_of_isReserved {cs : List Char} (h : isReserved (String.ofList cs) = true)
    {c : Char} (hc : c ∈ cs) : isFiller c = false :=
  not_isFiller.mpr (isWord_of_letter (letter_of_isReserved h (by simpa using hc)))

theorem isReserved_of_underscore {cs : List Char} (h : '_' ∈ cs) :
    isReserved (String.ofList cs) = false := by
  rw [Bool.eq_false_iff]
  intro hreserved
  exact (not_isFiller.mp (not_isFiller_of_isReserved hreserved h)).2 rfl

/-! ## ASCII -/

def IsAscii (cs : List Char) : Prop := ∀ c ∈ cs, c.toNat < 128

instance (cs : List Char) : Decidable (IsAscii cs) := List.decidableBAll _ cs

theorem IsAscii.bare {cs : List Char} (h : IsAscii cs) : IsAscii (bare cs) :=
  fun c hc => h c (mem_of_mem_bare hc)

theorem IsAscii.trim {cs : List Char} (h : IsAscii cs) : IsAscii (trim cs) :=
  fun c hc => h c (mem_of_mem_trimBy hc)

theorem of_ascii {P : Char → Prop} (h : ∀ n < 128, P (Char.ofNat n)) {c : Char}
    (hc : c.toNat < 128) : P c := by
  have hown := h c.toNat hc
  rwa [Char.ofNat_toNat] at hown

section

variable {c : Char} (h : c.toNat < 128)
include h

theorem isDigit_eq_isAsciiDigit : isDigit c = isAsciiDigit c :=
  of_ascii (P := fun c => isDigit c = isAsciiDigit c) (by decide +kernel) h

theorem isIdentPart_eq_isWord : isIdentPart c = isWord c :=
  of_ascii (P := fun c => isIdentPart c = isWord c) (by decide +kernel) h

theorem isIdentStart_eq : isIdentStart c = (isWord c && !isDigit c) :=
  of_ascii (P := fun c => isIdentStart c = (isWord c && !isDigit c)) (by decide +kernel) h

theorem lowerChar_lt : (lowerChar c).toNat < 128 :=
  of_ascii (P := fun c => (lowerChar c).toNat < 128) (by decide +kernel) h

theorem exists_upperChar : ∃ d, upperChar c = [d] ∧ d.toNat < 128 ∧ isWord d = isWord c ∧
    isDigit d = isDigit c := by
  refine ⟨if isAsciiLower c then Char.ofNat (c.toNat - 32) else c, if_pos h, ?_⟩
  apply of_ascii (P := fun c =>
    (if isAsciiLower c then Char.ofNat (c.toNat - 32) else c).toNat < 128 ∧
      isWord (if isAsciiLower c then Char.ofNat (c.toNat - 32) else c) = isWord c ∧
      isDigit (if isAsciiLower c then Char.ofNat (c.toNat - 32) else c) = isDigit c) _ h
  decide +kernel

end

theorem lowerFrom_eq_map {before cs : List Char} (h : IsAscii cs) :
    lowerFrom before cs = cs.map lowerChar := by
  induction cs generalizing before with
  | nil => rfl
  | cons c rest ih =>
    have hc := h c List.mem_cons_self
    have hsigma : (c.toNat == 0x3A3) = false := by simp; omega
    have hdotted : (c.toNat == 0x130) = false := by simp; omega
    rw [lowerFrom, ih fun d hd => h d (List.mem_cons_of_mem _ hd)]
    simp [hsigma, hdotted]

theorem lower_eq_map {cs : List Char} (h : IsAscii cs) : lower cs = cs.map lowerChar :=
  lowerFrom_eq_map h

theorem IsAscii.lower {cs : List Char} (h : IsAscii cs) : IsAscii (lower cs) := by
  intro c hc
  rw [lower_eq_map h] at hc
  obtain ⟨d, hd, rfl⟩ := List.mem_map.mp hc
  exact lowerChar_lt (h d hd)

theorem isIdentifier_iff {cs : List Char} (h : IsAscii cs) :
    isIdentifier cs = true ↔
      (∃ c ∈ cs.head?, isDigit c = false) ∧ ∀ c ∈ cs, isWord c = true := by
  cases cs with
  | nil => simp [isIdentifier]
  | cons c rest =>
    have hc := h c List.mem_cons_self
    have hrest : rest.all isIdentPart = true ↔ ∀ d ∈ rest, isWord d = true := by
      rw [List.all_eq_true]
      refine forall₂_congr fun d hd => ?_
      rw [isIdentPart_eq_isWord (h d (List.mem_cons_of_mem _ hd))]
    simp only [isIdentifier, isIdentStart_eq hc, Bool.and_eq_true, hrest, List.forall_mem_cons,
      List.head?_cons, Option.mem_def, Option.some.injEq, exists_eq_left', Bool.not_eq_true']
    tauto

/-- A text of ASCII characters of words, or none. -/
def IsAsciiWord (cs : List Char) : Prop := ∀ c ∈ cs, c.toNat < 128 ∧ isWord c = true

instance (cs : List Char) : Decidable (IsAsciiWord cs) := List.decidableBAll _ cs

theorem IsAsciiWord.isAscii {cs : List Char} (h : IsAsciiWord cs) : IsAscii cs :=
  fun c hc => (h c hc).1

theorem isIdentifier_append {front back : List Char} (h : isIdentifier front = true)
    (word : IsAsciiWord back) : isIdentifier (front ++ back) = true := by
  cases front with
  | nil => cases h
  | cons c rest =>
    rw [isIdentifier, Bool.and_eq_true] at h
    rw [List.cons_append, isIdentifier, List.all_append, h.1, h.2, Bool.true_and, Bool.true_and,
      List.all_eq_true]
    intro d hd
    obtain ⟨hlt, hword⟩ := word d hd
    rwa [isIdentPart_eq_isWord hlt]

/-! ## Names of declarations -/

/-- A name that a declaration can bind: an identifier that is not reserved. -/
structure IsBindable (name : String) : Prop where
  identifier : isIdentifier name.toList = true
  free : isReserved name = false

instance (name : String) : Decidable (IsBindable name) :=
  decidable_of_iff (isIdentifier name.toList = true ∧ isReserved name = false)
    ⟨fun h => ⟨h.1, h.2⟩, fun h => ⟨h.1, h.2⟩⟩

end Text

namespace Naming

open Text

/-! ## Joined words -/

theorem joinWords_eq_self {cs : List Char} (h : ∀ c ∈ cs, isWord c = true) :
    joinWords false cs = cs := by
  induction cs with
  | nil => rfl
  | cons c rest ih =>
    rw [joinWords, if_pos (h c List.mem_cons_self), ih fun d hd => h d (List.mem_cons_of_mem _ hd)]

theorem joinWords_append_cons (inRun : Bool) (before : List Char) {c : Char} (h : isWord c = true)
    (rest : List Char) :
    joinWords inRun (before ++ c :: rest) = joinWords inRun before ++ c :: joinWords false rest := by
  induction before generalizing inRun with
  | nil =>
    show joinWords inRun (c :: rest) = c :: joinWords false rest
    rw [joinWords, if_pos h]
  | cons d before ih =>
    rw [List.cons_append, joinWords, joinWords]
    split
    · rw [ih, List.cons_append]
    · split
      · exact ih true
      · rw [ih, List.cons_append]

theorem isWord_of_mem_joinWords {inRun : Bool} {cs : List Char} {c : Char}
    (h : c ∈ joinWords inRun cs) : isWord c = true := by
  induction cs generalizing inRun with
  | nil => cases h
  | cons d rest ih =>
    rw [joinWords] at h
    split_ifs at h with hword hrun
    · rcases List.mem_cons.mp h with rfl | h
      · exact hword
      · exact ih h
    · exact ih h
    · rcases List.mem_cons.mp h with rfl | h
      · decide
      · exact ih h

theorem eq_underscore_of_mem_joinWords {inRun : Bool} {cs : List Char}
    (h : ∀ c ∈ cs, isFiller c = true) {c : Char} (hc : c ∈ joinWords inRun cs) : c = '_' := by
  induction cs generalizing inRun with
  | nil => cases hc
  | cons d rest ih =>
    have hrest : ∀ c ∈ rest, isFiller c = true := fun c hc => h c (List.mem_cons_of_mem _ hc)
    rw [joinWords] at hc
    split_ifs at hc with hword hrun
    · rcases List.mem_cons.mp hc with rfl | hc
      · have hd := h c List.mem_cons_self
        simpa [isFiller, hword] using hd
      · exact ih hrest hc
    · exact ih hrest hc
    · rcases List.mem_cons.mp hc with rfl | hc
      · rfl
      · exact ih hrest hc

theorem joinWords_eq_self_of_not_mem {cs : List Char} (h : '_' ∉ joinWords false cs) :
    joinWords false cs = cs := by
  induction cs with
  | nil => rfl
  | cons c rest ih =>
    by_cases hword : isWord c = true
    · rw [joinWords, if_pos hword] at h ⊢
      rw [ih fun hrest => h (List.mem_cons_of_mem _ hrest)]
    · rw [joinWords, if_neg hword, if_neg Bool.false_ne_true] at h
      exact absurd List.mem_cons_self h

theorem trimBy_joinWords (cs : List Char) :
    trimBy (· == '_') (joinWords false cs) = joinWords false (bare cs) := by
  obtain ⟨a, b, hcs, ha, hb⟩ := exists_around_trimBy isFiller cs
  have hunder : ∀ {inRun : Bool} {fillers : List Char}, (∀ c ∈ fillers, isFiller c = true) →
      ∀ c ∈ joinWords inRun fillers, (c == '_') = true := fun h c hc =>
    beq_iff_eq.mpr (eq_underscore_of_mem_joinWords h hc)
  rcases List.eq_nil_or_concat (bare cs) with hnil | ⟨front, last, hlast⟩
  · rw [hnil]
    exact trimBy_eq_nil_iff.mpr (hunder (bare_eq_nil_iff.mp hnil))
  · -- the bare part is looked at from both ends: `first :: rest` and `front ++ [last]`
    obtain ⟨first, rest, hfirst⟩ : ∃ first rest, bare cs = first :: rest := by
      cases hbare : bare cs with
      | nil =>
        rw [hbare, List.concat_eq_append] at hlast
        exact absurd hlast.symm (List.concat_ne_nil last front)
      | cons first rest => exact ⟨first, rest, rfl⟩
    rw [List.concat_eq_append] at hlast
    obtain ⟨hfirstWord, hfirstUnder⟩ := not_isFiller.mp (not_of_trimBy_eq_cons hfirst)
    obtain ⟨hlastWord, hlastUnder⟩ := not_isFiller.mp (not_of_trimBy_eq_concat hlast)
    have hback : joinWords false (bare cs ++ b) = joinWords false (bare cs) ++ joinWords false b := by
      rw [hlast, List.append_assoc, List.singleton_append, joinWords_append_cons false front hlastWord,
        joinWords_append_cons false front hlastWord]
      simp [joinWords]
    have hfront : joinWords false cs =
        joinWords false a ++ joinWords false (bare cs) ++ joinWords false b := by
      have hstart : joinWords false (a ++ (bare cs ++ b)) =
          joinWords false a ++ joinWords false (bare cs ++ b) := by
        rw [hfirst, List.cons_append, joinWords_append_cons false a hfirstWord, joinWords,
          if_pos hfirstWord]
      conv_lhs => rw [hcs]
      rw [List.append_assoc, List.append_assoc, ← hback]
      exact hstart
    rw [hfront, trimBy_around (hunder ha) (hunder hb)]
    refine trimBy_eq_self (fun c hc => ?_) fun c hc => ?_
    · rw [hfirst, joinWords, if_pos hfirstWord] at hc
      cases hc
      exact beq_eq_false_iff_ne.mpr hfirstUnder
    · rw [hlast, joinWords_append_cons false front hlastWord] at hc
      simp only [joinWords, List.getLast?_append, List.getLast?_singleton, Option.some_or,
        Option.mem_def, Option.some.injEq] at hc
      subst hc
      exact beq_eq_false_iff_ne.mpr hlastUnder

/-! ## What identifiers are made of -/

/-- An identifier is the bare part of its text with the runs between words joined, and with an
underscore in front of a digit. -/
theorem identifierText_eq (cs : List Char) :
    identifierText cs =
      if (bare cs).head?.any isDigit then '_' :: joinWords false (bare cs)
      else joinWords false (bare cs) := by
  have hhead : (joinWords false (bare cs)).head? = (bare cs).head? := by
    cases hbare : bare cs with
    | nil => rfl
    | cons c rest =>
      have hword := (not_isFiller.mp (not_of_trimBy_eq_cons hbare)).1
      rw [joinWords, if_pos hword]
      rfl
  show (if (trimBy (· == '_') (joinWords false (trim cs))).head?.any isDigit then
      '_' :: trimBy (· == '_') (joinWords false (trim cs))
    else trimBy (· == '_') (joinWords false (trim cs))) = _
  rw [trimBy_joinWords, bare_trim, hhead]

theorem identifierText_eq_nil_iff {cs : List Char} :
    identifierText cs = [] ↔ ∀ c ∈ cs, isFiller c = true := by
  rw [← bare_eq_nil_iff, identifierText_eq]
  constructor
  · intro h
    by_contra hbare
    obtain ⟨c, rest, hcons⟩ := List.exists_cons_of_ne_nil hbare
    have hword := (not_isFiller.mp (not_of_trimBy_eq_cons hcons)).1
    rw [hcons, joinWords, if_pos hword] at h
    split at h <;> cases h
  · intro h
    rw [h]
    rfl

theorem isWord_of_mem_identifierText {cs : List Char} {c : Char} (h : c ∈ identifierText cs) :
    isWord c = true := by
  rw [identifierText_eq] at h
  split at h
  · rcases List.mem_cons.mp h with rfl | h
    · decide
    · exact isWord_of_mem_joinWords h
  · exact isWord_of_mem_joinWords h

theorem isReserved_identifierText (cs : List Char) :
    isReserved (String.ofList (identifierText cs)) = isReserved (String.ofList (bare cs)) := by
  have hletters : ∀ {ds : List Char}, isReserved (String.ofList ds) = true → '_' ∉ ds := by
    intro ds h hunder
    rw [isReserved_of_underscore hunder] at h
    cases h
  have hjoin : isReserved (String.ofList (joinWords false (bare cs))) =
      isReserved (String.ofList (bare cs)) := by
    rw [Bool.eq_iff_iff]
    constructor
    · intro h
      rwa [joinWords_eq_self_of_not_mem (hletters h)] at h
    · intro h
      rwa [joinWords_eq_self fun c hc => (not_isFiller.mp (not_isFiller_of_isReserved h hc)).1]
  rw [identifierText_eq]
  split
  · next hdigit =>
    -- neither a word with an underscore in front nor one that starts with a digit is reserved
    have hunder : isReserved (String.ofList ('_' :: joinWords false (bare cs))) = false :=
      isReserved_of_underscore List.mem_cons_self
    rw [hunder, eq_comm, Bool.eq_false_iff]
    intro h
    cases hbare : bare cs with
    | nil =>
      rw [hbare] at hdigit
      cases hdigit
    | cons c rest =>
      rw [hbare] at h hdigit
      have hletter := letter_of_isReserved h (c := c) (by simp)
      simp only [isAsciiLower, isAsciiUpper, Bool.and_eq_true, decide_eq_true_eq] at hletter
      have hc : isDigit c = true := hdigit
      rw [isDigit_eq_isAsciiDigit (by omega)] at hc
      simp only [isAsciiDigit, Bool.and_eq_true, decide_eq_true_eq] at hc
      omega
  · exact hjoin

theorem mem_of_mem_joinWords {inRun : Bool} {cs : List Char} {c : Char}
    (h : c ∈ joinWords inRun cs) : c = '_' ∨ c ∈ cs := by
  induction cs generalizing inRun with
  | nil => cases h
  | cons d rest ih =>
    have hmore : ∀ {inRun : Bool}, c ∈ joinWords inRun rest → c = '_' ∨ c ∈ d :: rest :=
      fun h => (ih h).imp_right (List.mem_cons_of_mem _)
    rw [joinWords] at h
    split_ifs at h with hword hrun
    · rcases List.mem_cons.mp h with rfl | h
      · exact .inr List.mem_cons_self
      · exact hmore h
    · exact hmore h
    · rcases List.mem_cons.mp h with rfl | h
      · exact .inl rfl
      · exact hmore h

theorem mem_of_mem_identifierText {cs : List Char} {c : Char} (h : c ∈ identifierText cs) :
    c = '_' ∨ c ∈ cs := by
  have hjoin : c ∈ joinWords false (bare cs) → c = '_' ∨ c ∈ cs :=
    fun h => (mem_of_mem_joinWords h).imp_right mem_of_mem_bare
  rw [identifierText_eq] at h
  split at h
  · rcases List.mem_cons.mp h with rfl | h
    · exact .inl rfl
    · exact hjoin h
  · exact hjoin h

theorem isAscii_identifierText {cs : List Char} (h : IsAscii cs) : IsAscii (identifierText cs) := by
  intro c hc
  rcases mem_of_mem_identifierText hc with rfl | hc
  · decide
  · exact h c hc

theorem isAsciiWord_identifierText {cs : List Char} (h : IsAscii cs) :
    IsAsciiWord (identifierText cs) :=
  fun c hc => ⟨isAscii_identifierText h c hc, isWord_of_mem_identifierText hc⟩

theorem isAscii_uncapitalized {cs : List Char} (h : IsAscii cs) : IsAscii (uncapitalized cs) := by
  cases cs with
  | nil => exact h
  | cons c rest =>
    obtain ⟨hc, hrest⟩ := List.forall_mem_cons.mp h
    have hlower : IsAscii (lower [c]) := IsAscii.lower (List.forall_mem_singleton.mpr hc)
    intro d hd
    rcases List.mem_append.mp hd with hd | hd
    · exact hlower d hd
    · exact hrest d hd

theorem isAscii_capitalized {cs : List Char} (h : IsAscii cs) : IsAscii (capitalized cs) := by
  cases cs with
  | nil => exact h
  | cons c rest =>
    obtain ⟨hc, hrest⟩ := List.forall_mem_cons.mp h
    obtain ⟨d, hd, hlt, -, -⟩ := exists_upperChar hc
    rw [capitalized, hd]
    exact List.forall_mem_cons.mpr ⟨hlt, hrest⟩

theorem words_capitalized_iff {cs : List Char} (h : IsAscii cs) :
    (∀ c ∈ capitalized cs, isWord c = true) ↔ ∀ c ∈ cs, isWord c = true := by
  cases cs with
  | nil => exact Iff.rfl
  | cons c rest =>
    obtain ⟨d, hd, -, hword, -⟩ := exists_upperChar (h c List.mem_cons_self)
    rw [capitalized, hd, List.singleton_append, List.forall_mem_cons, List.forall_mem_cons, hword]

theorem isAsciiWord_capitalized {cs : List Char} (h : IsAsciiWord cs) :
    IsAsciiWord (capitalized cs) := by
  have hwords := (words_capitalized_iff h.isAscii).mpr fun c hc => (h c hc).2
  exact fun c hc => ⟨isAscii_capitalized h.isAscii c hc, hwords c hc⟩

theorem isIdentifier_capitalized {cs : List Char} (h : IsAscii cs) :
    isIdentifier (capitalized cs) = isIdentifier cs := by
  cases cs with
  | nil => rfl
  | cons c rest =>
    have hc := h c List.mem_cons_self
    obtain ⟨d, hd, hlt, hword, hdigit⟩ := exists_upperChar hc
    rw [capitalized, hd, List.singleton_append, isIdentifier, isIdentifier, isIdentStart_eq hlt,
      isIdentStart_eq hc, hword, hdigit]

/-! ## Tidy texts -/

/-- The form that identifiers are given: characters of words, of which the last is no underscore.
An underscore comes first where a digit would, and only there. -/
structure IsTidy (cs : List Char) : Prop where
  words : ∀ c ∈ cs, isWord c = true
  start : ∀ c ∈ cs.head?, isDigit c = false
  guard : ∀ rest, cs = '_' :: rest → ∃ d ∈ rest.head?, isDigit d = true
  last : ∀ c ∈ cs.getLast?, c ≠ '_'

theorem isTidy_identifierText (cs : List Char) : IsTidy (identifierText cs) := by
  unfold identifierText
  simp only
  generalize hname : trimBy (· == '_') (joinWords false (trim cs)) = name
  have words : ∀ c ∈ name, isWord c = true := by
    intro c hc
    rw [← hname] at hc
    exact isWord_of_mem_joinWords (mem_of_mem_trimBy hc)
  have last : ∀ c ∈ name.getLast?, c ≠ '_' := by
    intro c hc
    obtain ⟨front, rfl⟩ := List.getLast?_eq_some_iff.mp hc
    simpa using not_of_trimBy_eq_concat hname
  cases name with
  | nil => exact ⟨words, nofun, nofun, last⟩
  | cons c rest =>
    have first : c ≠ '_' := by simpa using not_of_trimBy_eq_cons hname
    cases hdigit : isDigit c with
    | true =>
      rw [List.head?_cons, Option.any_some, if_pos hdigit]
      refine ⟨List.forall_mem_cons.mpr ⟨by decide, words⟩, ?_, ?_, ?_⟩
      · rintro d ⟨⟩
        decide
      · rintro more ⟨⟩
        exact ⟨c, rfl, hdigit⟩
      · rwa [List.getLast?_cons_cons]
    | false =>
      rw [List.head?_cons, Option.any_some, hdigit, if_neg Bool.false_ne_true]
      refine ⟨words, ?_, ?_, last⟩
      · rintro d ⟨⟩
        exact hdigit
      · rintro more ⟨⟩
        exact absurd rfl first

theorem IsTidy.identifierText_eq_self {cs : List Char} (h : IsTidy cs) : identifierText cs = cs := by
  cases cs with
  | nil => rfl
  | cons c rest =>
    rw [identifierText_eq]
    by_cases hunder : c = '_'
    · -- the underscore guards a digit, where the bare text starts
      subst hunder
      obtain ⟨d, hd, hdigit⟩ := h.guard rest rfl
      obtain ⟨more, rfl⟩ := List.head?_eq_some_iff.mp hd
      have hrest : ∀ c ∈ d :: more, isWord c = true := (List.forall_mem_cons.mp h.words).2
      have hfirst : d ≠ '_' := by
        rintro rfl
        exact absurd hdigit (by decide)
      have hbare : bare ('_' :: d :: more) = d :: more := by
        rw [bare_cons (by decide)]
        exact bare_of_words hrest hfirst (List.getLast?_cons_cons ▸ h.last)
      rw [hbare, List.head?_cons, Option.any_some, if_pos hdigit, joinWords_eq_self hrest]
    · have hdigit := h.start c rfl
      rw [bare_of_words h.words hunder h.last, List.head?_cons, Option.any_some, hdigit,
        if_neg Bool.false_ne_true, joinWords_eq_self h.words]

theorem identifierText_eq_self_iff {cs : List Char} : identifierText cs = cs ↔ IsTidy cs := by
  refine ⟨fun h => ?_, IsTidy.identifierText_eq_self⟩
  have htidy := isTidy_identifierText cs
  rwa [h] at htidy

theorem IsTidy.isIdentifier {cs : List Char} (h : IsTidy cs) (ascii : IsAscii cs) (ne : cs ≠ []) :
    isIdentifier cs = true := by
  obtain ⟨c, rest, rfl⟩ := List.exists_cons_of_ne_nil ne
  exact (isIdentifier_iff ascii).mpr ⟨⟨c, rfl, h.start c rfl⟩, h.words⟩

theorem isIdentifier_identifierText {cs : List Char} (h : IsAscii cs) (ne : identifierText cs ≠ []) :
    isIdentifier (identifierText cs) = true :=
  (isTidy_identifierText cs).isIdentifier (isAscii_identifierText h) ne

/-- An ASCII text with a letter or a digit comes to a name that can be bound, unless its bare part is
reserved. -/
theorem isBindable_identifierText_iff {cs : List Char} (h : IsAscii cs)
    (ne : identifierText cs ≠ []) :
    IsBindable (String.ofList (identifierText cs)) ↔
      isReserved (String.ofList (bare cs)) = false := by
  rw [← isReserved_identifierText]
  refine ⟨IsBindable.free, fun hfree => ⟨?_, hfree⟩⟩
  rw [String.toList_ofList]
  exact isIdentifier_identifierText h ne

/-! ## Guarded names -/

/-- The names that the presets do not leave as they are: the reserved ones, one with an alias and
those that are taken. -/
def guardedNames (taken : List String) : List String := reservedWords ++ "default" :: taken

def guarded (name : String) : String := String.ofList ('a' :: capitalized name.toList)

theorem safeName_of_preset {p : Profile} (preset : p ∈ Profile.presets) (taken : List String)
    (name : String) :
    safeName p.nameAliases taken name =
      .text (if name ∈ guardedNames taken then guarded name else name) := by
  have haliases := (Profile.naming_of_mem_presets preset).2
  have hlookup : lookupText name p.nameAliases =
      if "class" = name then some (.text "aClass")
      else if "default" = name then some (.text "aDefault") else none := by
    have hnil : lookupText name ([] : List (Value × Value)) = none := rfl
    rw [haliases, Profile.standardAliases, lookupText_cons, lookupText_cons, hnil]
    simp only [Value.isText_iff, Value.text.injEq]
  rw [safeName, hlookup]
  by_cases hclass : "class" = name
  · subst hclass
    have hmem : "class" ∈ guardedNames taken := List.mem_append_left _ (by decide)
    have hguarded : guarded "class" = "aClass" := by decide
    rw [if_pos rfl, if_pos hmem, hguarded]
  · by_cases hdefault : "default" = name
    · subst hdefault
      have hmem : "default" ∈ guardedNames taken := List.mem_append_right _ List.mem_cons_self
      have hguarded : guarded "default" = "aDefault" := by decide
      rw [if_neg hclass, if_pos rfl, if_pos hmem, hguarded]
    · have hmem : name ∈ guardedNames taken ↔ (isReserved name || taken.contains name) = true := by
        simp [guardedNames, isReserved, Ne.symm hdefault]
      rw [if_neg hclass, if_neg hdefault]
      by_cases hguard : (isReserved name || taken.contains name) = true
      · rw [if_pos (hmem.mpr hguard)]
        simp only [hguard, if_true]
        rfl
      · rw [if_neg fun h => hguard (hmem.mp h)]
        simp only [hguard]
        rfl

end Naming

end ApiSmith
