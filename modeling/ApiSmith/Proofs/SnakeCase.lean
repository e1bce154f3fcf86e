import ApiSmith.Proofs.Identifiers

/-!
# Names of modules in snake case

A module is named by the snake case of the name of its definition, made an identifier. For ASCII
names it always is one, and `isBindable_moduleName_iff` says when it is a reserved word: the bare
part of the name is this word, in small letters, with a capital in front, or in capitals.

Snake case puts underscores where a part of a word starts, which depends on the characters on both
sides. All of these are letters or digits (`IsInner`), so what an identifier loses at the ends of a
name has no part in it (`bare_snakeCase`). A reserved word has no underscore, so no part started in
the bare name: behind a small letter there is no capital, and behind two capitals no small letter.
-/

namespace ApiSmith.Naming

open Text

/-! ## Starts of parts -/

/-- A text with an underscore before each character at which a part starts, as the characters on
both sides of it say. -/
def splitWhere (starts : Option Char → Char → Option Char → Bool) (before : Option Char) :
    List Char → List Char
  | [] => []
  | c :: rest =>
    (if starts before c rest.head? then ['_', c] else [c]) ++ splitWhere starts (some c) rest

/-- The last letter of a run of capitals that a small letter follows. -/
def endsCapitals (before : Option Char) (c : Char) (after : Option Char) : Bool :=
  before.any isAsciiUpper && isAsciiUpper c && after.any isAsciiLower

def startsHump (before : Option Char) (c : Char) (_after : Option Char) : Bool :=
  before.any (fun b => isAsciiLower b || isDecimal b) && isAsciiUpper c

theorem splitCapitals_eq (before : Option Char) (cs : List Char) :
    splitCapitals before cs = splitWhere endsCapitals before cs := by
  induction cs generalizing before with
  | nil => rfl
  | cons c rest ih =>
    rw [splitCapitals, splitWhere, ih]
    rfl

theorem splitHumps_eq (before : Option Char) (cs : List Char) :
    splitHumps before cs = splitWhere startsHump before cs := by
  induction cs generalizing before with
  | nil => rfl
  | cons c rest ih =>
    rw [splitHumps, splitWhere, ih]
    rfl

/-- Parts start between characters that an identifier keeps, and what it loses behind a character
is like the end of the text. -/
structure IsInner (starts : Option Char → Char → Option Char → Bool) : Prop where
  first : ∀ c after, starts none c after = false
  before : ∀ b c after, b.toNat < 128 → isFiller b = true → starts (some b) c after = false
  own : ∀ b c after, isFiller c = true → starts b c after = false
  after : ∀ b c d, isFiller d = true → starts b c (some d) = starts b c none

theorem not_letter_of_isFiller {c : Char} (h : isFiller c = true) :
    isAsciiLower c = false ∧ isAsciiUpper c = false := by
  have hfiller : ¬ (isAsciiLower c = true ∨ isAsciiUpper c = true) := by
    intro hletter
    rw [not_isFiller.mpr (isWord_of_letter hletter)] at h
    cases h
  simpa [not_or] using hfiller

theorem isInner_endsCapitals : IsInner endsCapitals where
  first _ _ := rfl
  before b c after _ h := by simp [endsCapitals, (not_letter_of_isFiller h).2]
  own b c after h := by simp [endsCapitals, (not_letter_of_isFiller h).2]
  after b c d h := by simp [endsCapitals, (not_letter_of_isFiller h).1]

theorem isInner_startsHump : IsInner startsHump where
  first _ _ := rfl
  before b c after ascii h := by
    have hdecimal : isDecimal b = false :=
      of_ascii (P := fun b => isFiller b = true → isDecimal b = false) (by decide +kernel) ascii h
    simp [startsHump, (not_letter_of_isFiller h).1, hdecimal]
  own b c after h := by simp [startsHump, (not_letter_of_isFiller h).2]
  after b c d h := rfl

/-! ## What splitting keeps -/

section

variable {starts : Option Char → Char → Option Char → Bool}

theorem mem_of_mem_splitWhere {before : Option Char} {cs : List Char} {c : Char}
    (h : c ∈ splitWhere starts before cs) : c = '_' ∨ c ∈ cs := by
  induction cs generalizing before with
  | nil => cases h
  | cons d rest ih =>
    rcases List.mem_append.mp h with h | h
    · split at h
      · rcases List.mem_cons.mp h with rfl | h
        · exact .inl rfl
        · rw [List.mem_singleton.mp h]
          exact .inr List.mem_cons_self
      · rw [List.mem_singleton.mp h]
        exact .inr List.mem_cons_self
    · exact (ih h).imp_right (List.mem_cons_of_mem _)

theorem isAscii_splitWhere {before : Option Char} {cs : List Char} (h : IsAscii cs) :
    IsAscii (splitWhere starts before cs) := by
  intro c hc
  rcases mem_of_mem_splitWhere hc with rfl | hc
  · decide
  · exact h c hc

theorem starts_of_not_mem {before : Option Char} {c : Char} {rest : List Char}
    (h : '_' ∉ splitWhere starts before (c :: rest)) :
    starts before c rest.head? = false ∧ '_' ∉ splitWhere starts (some c) rest := by
  rw [splitWhere, List.mem_append, not_or] at h
  refine ⟨?_, h.2⟩
  rw [Bool.eq_false_iff]
  intro hstarts
  rw [if_pos hstarts] at h
  exact h.1 List.mem_cons_self

theorem splitWhere_eq_self {before : Option Char} {cs : List Char}
    (h : '_' ∉ splitWhere starts before cs) : splitWhere starts before cs = cs := by
  induction cs generalizing before with
  | nil => rfl
  | cons c rest ih =>
    obtain ⟨hstarts, hrest⟩ := starts_of_not_mem h
    rw [splitWhere, hstarts, ih hrest]
    rfl

theorem getLast?_splitWhere (before : Option Char) (cs : List Char) :
    (splitWhere starts before cs).getLast? = cs.getLast? := by
  induction cs generalizing before with
  | nil => rfl
  | cons c rest ih =>
    have hown : (if starts before c rest.head? then ['_', c] else [c]).getLast? = some c := by
      split <;> rfl
    rw [splitWhere, List.getLast?_append, ih, hown, List.getLast?_cons]
    cases rest.getLast? <;> rfl

variable (inner : IsInner starts)
include inner

theorem head?_splitWhere (cs : List Char) : (splitWhere starts none cs).head? = cs.head? := by
  cases cs with
  | nil => rfl
  | cons c rest =>
    rw [splitWhere, inner.first]
    rfl

theorem splitWhere_of_isFiller {b : Char} (ascii : b.toNat < 128) (hb : isFiller b = true)
    (cs : List Char) : splitWhere starts (some b) cs = splitWhere starts none cs := by
  cases cs with
  | nil => rfl
  | cons c rest => rw [splitWhere, splitWhere, inner.before b c _ ascii hb, inner.first]

theorem splitWhere_front {a : List Char} (ascii : IsAscii a) (ha : ∀ c ∈ a, isFiller c = true)
    (cs : List Char) : splitWhere starts none (a ++ cs) = a ++ splitWhere starts none cs := by
  induction a with
  | nil => rfl
  | cons c rest ih =>
    obtain ⟨hc, hrest⟩ := List.forall_mem_cons.mp ha
    obtain ⟨hcAscii, hrestAscii⟩ := List.forall_mem_cons.mp ascii
    rw [List.cons_append, splitWhere, inner.first, splitWhere_of_isFiller inner hcAscii hc,
      ih hrestAscii hrest]
    rfl

theorem splitWhere_fillers {b : List Char} (hb : ∀ c ∈ b, isFiller c = true)
    (before : Option Char) : splitWhere starts before b = b := by
  induction b generalizing before with
  | nil => rfl
  | cons c rest ih =>
    obtain ⟨hc, hrest⟩ := List.forall_mem_cons.mp hb
    rw [splitWhere, inner.own before c _ hc, ih hrest]
    rfl

theorem splitWhere_back {b : List Char} (hb : ∀ c ∈ b, isFiller c = true) (before : Option Char)
    (cs : List Char) : splitWhere starts before (cs ++ b) = splitWhere starts before cs ++ b := by
  induction cs generalizing before with
  | nil => exact splitWhere_fillers inner hb before
  | cons c rest ih =>
    have hafter : starts before c (rest ++ b).head? = starts before c rest.head? := by
      cases rest with
      | cons d more => rfl
      | nil =>
        cases b with
        | nil => rfl
        | cons d more => exact inner.after before c d (hb d List.mem_cons_self)
    rw [List.cons_append, splitWhere, splitWhere, hafter, ih, List.append_assoc]

theorem splitWhere_around {a b : List Char} (ascii : IsAscii a) (ha : ∀ c ∈ a, isFiller c = true)
    (hb : ∀ c ∈ b, isFiller c = true) (cs : List Char) :
    splitWhere starts none (a ++ cs ++ b) = a ++ splitWhere starts none cs ++ b := by
  rw [splitWhere_back inner hb, splitWhere_front inner ascii ha]

end

/-! ## Snake case -/

theorem snakeCase_eq {cs : List Char} (ascii : IsAscii cs) :
    snakeCase cs =
      (splitWhere startsHump none (splitWhere endsCapitals none cs)).map lowerChar := by
  rw [snakeCase, splitCapitals_eq, splitHumps_eq,
    lower_eq_map (isAscii_splitWhere (isAscii_splitWhere ascii))]

theorem isAscii_snakeCase {cs : List Char} (ascii : IsAscii cs) : IsAscii (snakeCase cs) := by
  rw [snakeCase, splitCapitals_eq, splitHumps_eq]
  exact (isAscii_splitWhere (isAscii_splitWhere ascii)).lower

theorem isFiller_lowerChar {c : Char} (h : c.toNat < 128) :
    isFiller (lowerChar c) = isFiller c :=
  of_ascii (P := fun c => isFiller (lowerChar c) = isFiller c) (by decide +kernel) h

theorem lowerChar_lowerChar {c : Char} (h : c.toNat < 128) :
    lowerChar (lowerChar c) = lowerChar c :=
  of_ascii (P := fun c => lowerChar (lowerChar c) = lowerChar c) (by decide +kernel) h

theorem bare_snakeCase {cs : List Char} (ascii : IsAscii cs) :
    bare (snakeCase cs) = snakeCase (bare cs) := by
  obtain ⟨a, b, hcs, ha, hb⟩ := exists_around_trimBy isFiller cs
  have hsplit : splitWhere startsHump none (splitWhere endsCapitals none cs) =
      a ++ splitWhere startsHump none (splitWhere endsCapitals none (bare cs)) ++ b := by
    have hascii : IsAscii a := by
      intro c hc
      apply ascii
      rw [hcs]
      exact List.mem_append_left _ (List.mem_append_left _ hc)
    conv_lhs => rw [hcs]
    rw [splitWhere_around isInner_endsCapitals hascii ha hb,
      splitWhere_around isInner_startsHump hascii ha hb]
    rfl
  have hfillers : ∀ {fillers : List Char}, (∀ c ∈ fillers, c ∈ cs) →
      (∀ c ∈ fillers, isFiller c = true) → ∀ c ∈ fillers.map lowerChar, isFiller c = true := by
    intro fillers hmem hall c hc
    obtain ⟨d, hd, rfl⟩ := List.mem_map.mp hc
    rw [isFiller_lowerChar (ascii d (hmem d hd))]
    exact hall d hd
  have ha' := hfillers (fun c hc => hcs ▸ List.mem_append_left _ (List.mem_append_left _ hc)) ha
  have hb' := hfillers (fun c hc => hcs ▸ List.mem_append_right _ hc) hb
  rw [snakeCase_eq ascii, snakeCase_eq ascii.bare, hsplit, List.map_append, List.map_append, bare,
    trimBy_around ha' hb']
  -- splitting keeps both ends, and small letters are no fillers
  refine bare_eq_self (fun c hc => ?_) fun c hc => ?_
  · rw [List.head?_map, head?_splitWhere isInner_startsHump,
      head?_splitWhere isInner_endsCapitals] at hc
    obtain ⟨d, hd, rfl⟩ := Option.map_eq_some_iff.mp hc
    rw [isFiller_lowerChar (ascii.bare d (List.mem_of_mem_head? hd))]
    exact not_isFiller_of_head_bare hd
  · rw [List.getLast?_map, getLast?_splitWhere, getLast?_splitWhere] at hc
    obtain ⟨d, hd, rfl⟩ := Option.map_eq_some_iff.mp hc
    rw [isFiller_lowerChar (ascii.bare d (List.mem_of_mem_getLast? hd))]
    exact not_isFiller_of_last_bare hd

/-! ## Reserved words in snake case -/

/-- The reserved words in the spellings that snake case makes small: in small letters, with a
capital in front, and in capitals. -/
def reservedSpellings : List (List Char) :=
  (reservedWords.filter fun w => lower w.toList = w.toList).flatMap fun w =>
    [w.toList, capitalized w.toList, upper w.toList]

theorem isAsciiLower_of_noHump {d : Char} {cs : List Char} (hd : isAsciiLower d = true)
    (letters : ∀ c ∈ cs, isAsciiLower c = true ∨ isAsciiUpper c = true)
    (h : '_' ∉ splitWhere startsHump (some d) cs) : ∀ c ∈ cs, isAsciiLower c = true := by
  induction cs generalizing d with
  | nil => exact List.forall_mem_nil _
  | cons c rest ih =>
    obtain ⟨hstarts, hrest⟩ := starts_of_not_mem h
    obtain ⟨hc, hletters⟩ := List.forall_mem_cons.mp letters
    have hlower : isAsciiLower c = true := by
      refine hc.resolve_right fun hupper => ?_
      simp [startsHump, hd, hupper] at hstarts
    exact List.forall_mem_cons.mpr ⟨hlower, ih hlower hletters hrest⟩

theorem isAsciiUpper_of_noEnd {d c : Char} {cs : List Char} (hd : isAsciiUpper d = true)
    (hc : isAsciiUpper c = true)
    (letters : ∀ c ∈ cs, isAsciiLower c = true ∨ isAsciiUpper c = true)
    (h : '_' ∉ splitWhere endsCapitals (some d) (c :: cs)) : ∀ c ∈ cs, isAsciiUpper c = true := by
  induction cs generalizing d c with
  | nil => exact List.forall_mem_nil _
  | cons e rest ih =>
    obtain ⟨hstarts, hrest⟩ := starts_of_not_mem h
    obtain ⟨he, hletters⟩ := List.forall_mem_cons.mp letters
    have hupper : isAsciiUpper e = true := by
      refine he.resolve_left fun hlower => ?_
      simp [endsCapitals, hd, hc, hlower] at hstarts
    exact List.forall_mem_cons.mpr ⟨hupper, ih hc hupper hletters hrest⟩

theorem upperChar_lowerChar {c : Char} (h : isAsciiUpper c = true) :
    upperChar (lowerChar c) = [c] := by
  have hascii : c.toNat < 128 := by
    simp only [isAsciiUpper, Bool.and_eq_true, decide_eq_true_eq] at h
    omega
  exact of_ascii (P := fun c => isAsciiUpper c = true → upperChar (lowerChar c) = [c])
    (by decide +kernel) hascii h

theorem lowerChar_of_isAsciiLower {c : Char} (h : isAsciiLower c = true) : lowerChar c = c := by
  have hascii : c.toNat < 128 := by
    simp only [isAsciiLower, Bool.and_eq_true, decide_eq_true_eq] at h
    omega
  exact of_ascii (P := fun c => isAsciiLower c = true → lowerChar c = c)
    (by decide +kernel) hascii h

theorem map_lowerChar_of_isAsciiLower {cs : List Char} (h : ∀ c ∈ cs, isAsciiLower c = true) :
    cs.map lowerChar = cs :=
  (List.map_congr_left fun c hc => lowerChar_of_isAsciiLower (h c hc)).trans (List.map_id cs)

theorem upper_map_lowerChar {cs : List Char} (h : ∀ c ∈ cs, isAsciiUpper c = true) :
    upper (cs.map lowerChar) = cs := by
  induction cs with
  | nil => rfl
  | cons c rest ih =>
    obtain ⟨hc, hrest⟩ := List.forall_mem_cons.mp h
    have hmore := ih hrest
    rw [upper] at hmore ⊢
    rw [List.map_cons, List.flatMap_cons, upperChar_lowerChar hc, hmore]
    rfl

/-- A text of letters in which no part starts has one of the three spellings of its small form. -/
theorem spelling_of_noStart {cs : List Char} (ne : cs ≠ [])
    (letters : ∀ c ∈ cs, isAsciiLower c = true ∨ isAsciiUpper c = true)
    (noHump : '_' ∉ splitWhere startsHump none cs)
    (noEnd : '_' ∉ splitWhere endsCapitals none cs) :
    cs = cs.map lowerChar ∨ cs = capitalized (cs.map lowerChar) ∨ cs = upper (cs.map lowerChar) := by
  obtain ⟨c, rest, rfl⟩ := List.exists_cons_of_ne_nil ne
  obtain ⟨hc, hrest⟩ := List.forall_mem_cons.mp letters
  have hhump := (starts_of_not_mem noHump).2
  have hend := (starts_of_not_mem noEnd).2
  rcases hc with hc | hc
  · have hall : ∀ d ∈ c :: rest, isAsciiLower d = true :=
      List.forall_mem_cons.mpr ⟨hc, isAsciiLower_of_noHump hc hrest hhump⟩
    exact .inl (map_lowerChar_of_isAsciiLower hall).symm
  · cases rest with
    | nil => exact .inr (.inr (upper_map_lowerChar (List.forall_mem_singleton.mpr hc)).symm)
    | cons e more =>
      obtain ⟨he, hmore⟩ := List.forall_mem_cons.mp hrest
      rcases he with he | he
      · have hlower := isAsciiLower_of_noHump he hmore (starts_of_not_mem hhump).2
        have hall : ∀ d ∈ e :: more, isAsciiLower d = true :=
          List.forall_mem_cons.mpr ⟨he, hlower⟩
        refine .inr (.inl ?_)
        rw [List.map_cons, map_lowerChar_of_isAsciiLower hall, capitalized, upperChar_lowerChar hc]
        rfl
      · have hupper := isAsciiUpper_of_noEnd hc he hmore hend
        have hall : ∀ d ∈ c :: e :: more, isAsciiUpper d = true :=
          List.forall_mem_cons.mpr ⟨hc, List.forall_mem_cons.mpr ⟨he, hupper⟩⟩
        exact .inr (.inr (upper_map_lowerChar hall).symm)

/-- Snake case makes a reserved word of its own spellings only. -/
theorem isReserved_snakeCase_iff {cs : List Char} (ascii : IsAscii cs) :
    isReserved (String.ofList (snakeCase cs)) = true ↔ cs ∈ reservedSpellings := by
  constructor
  · intro h
    have hunder : '_' ∉ snakeCase cs := by
      intro hmem
      rw [isReserved_of_underscore hmem] at h
      cases h
    have hsnake := snakeCase_eq ascii
    have hnot : ∀ {ds : List Char}, snakeCase cs = ds.map lowerChar → '_' ∉ ds := by
      intro ds heq hmem
      apply hunder
      rw [heq]
      exact List.mem_map.mpr ⟨'_', hmem, by decide⟩
    -- no underscore comes out, so no part starts anywhere, and only capitals were changed
    have noHump := hnot hsnake
    rw [splitWhere_eq_self noHump] at hsnake
    have noEnd := hnot hsnake
    rw [splitWhere_eq_self noEnd] at hsnake noHump
    have letters : ∀ c ∈ cs, isAsciiLower c = true ∨ isAsciiUpper c = true := by
      intro c hc
      have hletter : isAsciiLower (lowerChar c) = true ∨ isAsciiUpper (lowerChar c) = true := by
        apply letter_of_isReserved h
        rw [String.toList_ofList, hsnake]
        exact List.mem_map_of_mem hc
      exact of_ascii (P := fun c =>
        isAsciiLower (lowerChar c) = true ∨ isAsciiUpper (lowerChar c) = true →
          isAsciiLower c = true ∨ isAsciiUpper c = true)
        (by decide +kernel) (ascii c hc) hletter
    have ne : cs ≠ [] := by
      rintro rfl
      exact absurd h (by decide)
    have hsmall : lower (cs.map lowerChar) = cs.map lowerChar := by
      have hascii : IsAscii (cs.map lowerChar) := by
        rw [← lower_eq_map ascii]
        exact ascii.lower
      rw [lower_eq_map hascii, List.map_map]
      exact List.map_congr_left fun c hc => lowerChar_lowerChar (ascii c hc)
    rw [hsnake] at h
    rw [reservedSpellings, List.mem_flatMap]
    refine ⟨String.ofList (cs.map lowerChar), ?_, ?_⟩
    · rw [List.mem_filter, String.toList_ofList]
      exact ⟨List.contains_iff_mem.mp h, decide_eq_true hsmall⟩
    · rw [String.toList_ofList]
      simpa using spelling_of_noStart ne letters noHump noEnd
  · intro h
    have hall : ∀ cs ∈ reservedSpellings, isReserved (String.ofList (snakeCase cs)) = true := by
      decide +kernel
    exact hall cs h

/-! ## Modules -/

theorem isBindable_moduleName_iff {name : String} (ascii : IsAscii name.toList) :
    IsBindable (moduleName name) ↔ bare name.toList ∉ reservedSpellings := by
  have hsnake := isAscii_snakeCase ascii
  have hsmall : lower (identifierText (snakeCase name.toList)) =
      identifierText (snakeCase name.toList) := by
    rw [lower_eq_map (isAscii_identifierText hsnake)]
    refine (List.map_congr_left fun c hc => ?_).trans (List.map_id _)
    rcases mem_of_mem_identifierText hc with rfl | hc
    · decide
    · rw [snakeCase_eq ascii] at hc
      obtain ⟨d, hd, rfl⟩ := List.mem_map.mp hc
      exact lowerChar_lowerChar (isAscii_splitWhere (isAscii_splitWhere ascii) d hd)
  have hmodule : moduleName name = String.ofList
      (if (identifierText (snakeCase name.toList)).isEmpty then "root".toList
        else identifierText (snakeCase name.toList)) := by
    rw [moduleName, moduleText, hsmall]
  rw [hmodule, ← isReserved_snakeCase_iff ascii.bare, ← bare_snakeCase ascii, Bool.not_eq_true]
  by_cases hempty : identifierText (snakeCase name.toList) = []
  · have hbare : bare (snakeCase name.toList) = [] :=
      bare_eq_nil_iff.mpr (identifierText_eq_nil_iff.mp hempty)
    rw [hempty, hbare]
    decide
  · have hkeep : (identifierText (snakeCase name.toList)).isEmpty = false := by
      simpa using hempty
    rw [hkeep, if_neg Bool.false_ne_true]
    exact isBindable_identifierText_iff hsnake hempty

end ApiSmith.Naming
