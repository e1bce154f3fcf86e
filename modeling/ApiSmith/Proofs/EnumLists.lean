import ApiSmith.Proofs.Cutting
import ApiSmith.Proofs.Identifiers
import ApiSmith.Proofs.Integers
import ApiSmith.Proofs.Logged
import ApiSmith.Schema.Enum

/-!
# Members listed in a description

The names of an integer enum stand in the description of its schema: `State (1 = open , 2 = shut)`.
`EnumSpec.members_of_description` says that a list written like this comes back as it was, and that
nothing but such a list is read as members.

Writing and reading meet in the text between the parentheses. `IsInside` says which text that is, by
the last opening parenthesis and the first closing one behind it, so what stands around the list has
no part in it. The text splits at the commas into the pairs because a pair holds no comma
(`pieces_join`), and a pair splits at its only equals sign because neither an integer nor a plain
name holds a blank. `ofSchema_eq_ok` then leaves what an enum asks of its members: one at least, no
name twice.
-/

namespace ApiSmith

open Text Naming Number

/-! ## Names that stay as they are -/

/-- A name of ASCII letters, digits and underscores that needs no change: it starts with a small
letter, does not end in an underscore, is not reserved and has no alias. -/
structure IsPlainName (p : Profile) (name : String) : Prop where
  head : ∃ c ∈ name.toList.head?, isAsciiLower c = true
  word : ∀ c ∈ name.toList,
    isAsciiLower c = true ∨ isAsciiUpper c = true ∨ isAsciiDigit c = true ∨ c = '_'
  last : name.toList.getLast? ≠ some '_'
  free : isReserved name = false
  unaliased : lookupText name p.nameAliases = none

theorem uncapitalized_of_isAsciiLower {c : Char} (rest : List Char) (h : isAsciiLower c = true) :
    uncapitalized (c :: rest) = c :: rest := by
  simp only [isAsciiLower, Bool.and_eq_true, decide_eq_true_eq] at h
  have hupper : isAsciiUpper c = false := by
    simp only [isAsciiUpper, Bool.and_eq_false_iff, decide_eq_false_iff_not]
    omega
  have hchar : lowerChar c = c := by
    rw [lowerChar, if_pos (by omega), hupper]
    rfl
  have hsigma : (c.toNat == 0x3A3) = false := by simp; omega
  have hdotted : (c.toNat == 0x130) = false := by simp; omega
  simp [uncapitalized, lower, lowerFrom, hsigma, hdotted, hchar]

namespace IsPlainName

variable {p : Profile} {name : String}

theorem toNat_lt (h : IsPlainName p name) {c : Char} (hc : c ∈ name.toList) : c.toNat < 128 := by
  have hword := h.word c hc
  simp only [isAsciiLower, isAsciiUpper, isAsciiDigit, Bool.and_eq_true, decide_eq_true_eq] at hword
  rcases hword with hc | hc | hc | rfl
  · omega
  · omega
  · omega
  · decide

theorem isWord (h : IsPlainName p name) {c : Char} (hc : c ∈ name.toList) : isWord c = true := by
  rw [Text.isWord, if_pos (h.toNat_lt hc)]
  simpa only [Bool.or_eq_true, beq_iff_eq, or_assoc] using h.word c hc

theorem isBlank (h : IsPlainName p name) {c : Char} (hc : c ∈ name.toList) :
    isBlank c = false := by
  have hword := h.word c hc
  rw [Text.isBlank, if_pos (h.toNat_lt hc)]
  simp only [isAsciiLower, isAsciiUpper, isAsciiDigit, Bool.and_eq_true, decide_eq_true_eq] at hword
  rcases hword with hc | hc | hc | rfl
  · simp; omega
  · simp; omega
  · simp; omega
  · decide

theorem trim (h : IsPlainName p name) : trim name.toList = name.toList :=
  trimBy_eq_self (fun _ hc => h.isBlank (List.mem_of_mem_head? hc))
    (fun _ hc => h.isBlank (List.mem_of_mem_getLast? hc))

theorem identifierText (h : IsPlainName p name) :
    identifierText name.toList = name.toList := by
  obtain ⟨first, hfirst, hlower⟩ := h.head
  simp only [isAsciiLower, Bool.and_eq_true, decide_eq_true_eq] at hlower
  have hunder : trimBy (· == '_') name.toList = name.toList := by
    refine trimBy_eq_self (fun c hc => ?_) fun c hc => ?_
    · obtain rfl := Option.mem_unique hc hfirst
      refine beq_eq_false_iff_ne.mpr ?_
      rintro rfl
      exact absurd hlower (by decide)
    · refine beq_eq_false_iff_ne.mpr ?_
      rintro rfl
      exact h.last hc
  have hdigit : name.toList.head?.any isDigit = false := by
    have hdecimal : isDecimal first = false := by
      rw [isDecimal, if_pos (by omega)]
      simp only [isAsciiDigit, Bool.and_eq_false_iff, decide_eq_false_iff_not]
      omega
    rw [Option.mem_def.mp hfirst, Option.any_some, isDigit, hdecimal]
    simp
    omega
  simp only [Naming.identifierText, h.trim, joinWords_eq_self fun c hc => h.isWord hc, hunder,
    hdigit]
  rfl

theorem uncapitalized (h : IsPlainName p name) : uncapitalized name.toList = name.toList := by
  obtain ⟨first, hfirst, hlower⟩ := h.head
  obtain ⟨rest, hrest⟩ := List.head?_eq_some_iff.mp hfirst
  rw [hrest, uncapitalized_of_isAsciiLower rest hlower]

theorem memberName (h : IsPlainName p name) (location : String) :
    (EnumSpec.memberName p name.toList location).result = .ok name := by
  obtain ⟨first, hfirst, hlower⟩ := h.head
  obtain ⟨rest, hrest⟩ := List.head?_eq_some_iff.mp hfirst
  have hmapped : safeName p.nameAliases [] name = .text name := by
    rw [safeName, h.unaliased, h.free]
    rfl
  have hempty : name.toList.isEmpty = false := by rw [hrest]; rfl
  have hunder : (name.toList.head? == some '_') = false := by
    rw [hfirst]
    refine beq_eq_false_iff_ne.mpr ?_
    rintro ⟨⟩
    cases hlower
  unfold EnumSpec.memberName
  simp only [h.trim, h.uncapitalized, String.ofList_toList, hmapped, Value.text?,
    Compile.shaped_some, pure_bind, h.identifierText, hempty, hunder, Bool.false_eq_true, if_false,
    Logged.result_pure]

theorem not_mem (h : IsPlainName p name) {c : Char} (hc : Text.isWord c = false) :
    c ∉ name.toList := fun hmem => by
  rw [h.isWord hmem] at hc
  cases hc

end IsPlainName

namespace EnumSpec

/-! ## Lists that are written -/

def pairText (e : Int × String) : String := intString e.1 ++ " = " ++ e.2

def listOf (pairs : List (Int × String)) : String := joinStrings " , " (pairs.map pairText)

/-- Pairs that a description can list. -/
structure IsList (p : Profile) (pairs : List (Int × String)) : Prop where
  ne_nil : pairs ≠ []
  digits : ∀ e ∈ pairs, (natText e.1.natAbs).length ≤ digitLimit
  names : ∀ e ∈ pairs, IsPlainName p e.2
  distinct : (pairs.map (·.2)).Nodup

theorem mem_intText {n : Int} {c : Char} (h : c ∈ intText n) : isAsciiDigit c = true ∨ c = '-' := by
  cases n with
  | ofNat n => exact .inl (isAsciiDigit_of_mem_natText h)
  | negSucc n =>
    rcases List.mem_cons.mp h with rfl | h
    · exact .inr rfl
    · exact .inl (isAsciiDigit_of_mem_natText h)

theorem pairText_toList (e : Int × String) :
    (pairText e).toList = intText e.1 ++ pairSeparator ++ e.2.toList := by
  rw [pairText, String.toList_append, String.toList_append, intString, String.toList_ofList]
  rfl

theorem not_mem_pairText {p : Profile} {e : Int × String} (h : IsPlainName p e.2) {c : Char}
    (word : isWord c = false) (other : c ∉ ['-', ' ', '=']) : c ∉ (pairText e).toList := by
  have hdigit : isAsciiDigit c = false := by
    by_contra hdigit
    rw [Bool.not_eq_false] at hdigit
    have hlt : c.toNat < 128 := by
      simp only [isAsciiDigit, Bool.and_eq_true, decide_eq_true_eq] at hdigit
      omega
    simp [isWord, hlt, hdigit] at word
  rw [pairText_toList, List.mem_append, List.mem_append]
  rintro ((hc | hc) | hc)
  · rcases mem_intText hc with hc | rfl
    · rw [hdigit] at hc
      cases hc
    · exact other (by decide)
  · simp only [pairSeparator, List.mem_cons, List.not_mem_nil, or_false] at hc other
    tauto
  · exact h.not_mem word hc

theorem memberValue_text (value : List Char) (location : String) :
    (memberValue (.text (String.ofList value)) location).result =
      match readInt? value with
      | some n => .ok n
      | none =>
        .error (.defect ⟨.nonIntegerMember (.text (String.ofList value)), location⟩) := by
  simp only [memberValue, Value.hasLiteral, Value.display, String.toList_ofList]
  cases readInt? value <;> rfl

theorem memberOfSegment_pairText {p : Profile} {e : Int × String} (h : IsPlainName p e.2)
    (digits : (natText e.1.natAbs).length ≤ digitLimit) (location : String) :
    (memberOfSegment p location (pairText e).toList).result = .ok ⟨e.2, e.1⟩ := by
  have hspace : pairSeparator[0]? = some ' ' := rfl
  have hvalue : ' ' ∉ intText e.1 := by
    intro hmem
    rcases mem_intText hmem with hc | hc <;> cases hc
  have hname : ' ' ∉ e.2.toList := h.not_mem (by decide)
  have hcut := cutAt_eq_some.mpr (cutsAt_of_not_mem hspace (by decide) hvalue e.2.toList)
  have hown : occursIn pairSeparator e.2.toList = false := by
    rw [occursIn, cutAt_of_not_mem hspace hname]
    rfl
  have hint : (memberValue (.text (String.ofList (intText e.1))) location).result = .ok e.1 := by
    rw [memberValue_text, readInt?_intText digits]
  rw [pairText_toList, memberOfSegment, hcut]
  simp only [hown, Bool.false_eq_true, if_false]
  rw [Logged.result_bind_of_ok (h.memberName location), Logged.result_bind_of_ok hint]
  rfl

/-! ## Reading lists -/

/-- What stands between the last opening parenthesis and the next closing one. -/
structure IsInside (description inside : List Char) : Prop where
  parts : ∃ before after, description = before ++ '(' :: (inside ++ ')' :: after) ∧ '(' ∉ after
  plain : '(' ∉ inside ∧ ')' ∉ inside

theorem IsInside.afterLast? {description inside : List Char} (h : IsInside description inside) :
    ∃ after, Text.afterLast? '(' description = some (inside ++ ')' :: after) := by
  obtain ⟨⟨before, after, hdescription, hafter⟩, hopen, -⟩ := h
  refine ⟨after, afterLast?_eq_some.mpr ⟨⟨before, hdescription⟩, ?_⟩⟩
  simp [hopen, hafter]

theorem IsInside.carriesList {description inside : List Char} (h : IsInside description inside)
    (heq : '=' ∈ inside) : carriesList description = true := by
  obtain ⟨after, hlast⟩ := h.afterLast?
  have htail : (inside ++ ')' :: after).contains '=' = true := by simp [heq]
  simp only [EnumSpec.carriesList, hlast, htail, Bool.or_true]

theorem listText_eq_ok {description inside : List Char} {location : String} :
    (listText description location).result = .ok inside ↔ IsInside description inside := by
  constructor
  · intro h
    unfold listText at h
    split at h
    · cases h
    · next tail htail =>
      obtain ⟨⟨before, hdescription⟩, hopen⟩ := afterLast?_eq_some.mp htail
      split at h
      · next inside' after hcut =>
        cases h
        obtain ⟨rfl, hclose⟩ := cutAtChar_eq_some.mp hcut
        simp only [List.mem_append, List.mem_cons, not_or] at hopen
        exact ⟨⟨before, after, hdescription, hopen.2.2⟩, hopen.1, hclose⟩
      · cases h
  · intro h
    obtain ⟨after, hlast⟩ := h.afterLast?
    have hcut : cutAtChar ')' (inside ++ ')' :: after) = (inside, some after) :=
      cutAtChar_eq_some.mpr ⟨rfl, h.plain.2⟩
    simp only [listText, hlast, hcut]
    rfl

/-- A part of a list that writes a member: an integer before the first separator, a name behind. -/
def Writes (p : Profile) (location : String) (segment : List Char) (m : EnumMember) : Prop :=
  ∃ value name, CutsAt pairSeparator segment value name ∧ readInt? value = some m.value ∧
    (memberName p name location).result = .ok m.name

theorem writes_of_memberOfSegment {p : Profile} {location : String} {segment : List Char}
    {m : EnumMember} (h : (memberOfSegment p location segment).result = .ok m) :
    Writes p location segment m := by
  unfold memberOfSegment at h
  split at h
  · cases h
  · next value name hcut =>
    split at h
    · cases h
    · obtain ⟨own, hname, h⟩ := Logged.result_bind_eq_ok.mp h
      obtain ⟨n, hvalue, h⟩ := Logged.result_bind_eq_ok.mp h
      cases h
      refine ⟨value, name, cutAt_eq_some.mp hcut, ?_, hname⟩
      rw [memberValue_text] at hvalue
      split at hvalue
      · next n hn =>
        cases hvalue
        exact hn
      · cases hvalue

theorem membersOfSegments_eq_ok {p : Profile} {location : String} {segments : List (List Char)}
    {members : List EnumMember} :
    (membersOfSegments p location segments).result = .ok members ↔
      List.Forall₂ (fun s m => (memberOfSegment p location s).result = .ok m) segments members := by
  have hrow : membersOfSegments p location segments =
      segments.mapM (memberOfSegment p location) := by
    induction segments with
    | nil => rfl
    | cons s rest ih => rw [membersOfSegments, List.mapM_cons, ih]
  rw [hrow, Logged.result_mapM_eq_ok]

theorem duplicate?_eq_none {seen names : List String} :
    duplicate? seen names = none ↔ names.Nodup ∧ ∀ n ∈ names, n ∉ seen := by
  induction names generalizing seen with
  | nil => simp [duplicate?]
  | cons n rest ih =>
    rw [duplicate?]
    by_cases hn : n ∈ seen
    · simp [hn]
    · rw [if_neg (by simpa using hn), ih]
      rw [List.nodup_cons, List.forall_mem_cons]
      simp only [List.mem_cons, not_or]
      constructor
      · rintro ⟨hrest, hout⟩
        exact ⟨⟨fun h => (hout n h).1 rfl, hrest⟩, hn, fun m hm => (hout m hm).2⟩
      · rintro ⟨⟨hnew, hrest⟩, -, hout⟩
        exact ⟨hrest, fun m hm => ⟨fun h => hnew (h ▸ hm), hout m hm⟩⟩

theorem ofSchema_eq_ok {p : Profile} {es : List (Value × Value)} {c : NamingContext}
    {text : String} {values : List Value} {spec : EnumSpec}
    (hvalues : ((lookupText "enum" es).getD .null).elementsOrNone? = some values)
    (description : lookupText "description" es = some (.text text))
    (carries : carriesList text.toList = true) :
    (ofSchema p es c).result = .ok spec ↔
      (membersOfDescription p c.location text.toList).result = .ok spec.members ∧
        spec.members ≠ [] ∧ (spec.members.map (·.name)).Nodup ∧ nameIn? c = some spec.name := by
  have htext : (Compile.shaped
      (descriptionText? ((lookupText "description" es).getD .null))).result = .ok text.toList := by
    rw [description]
    rfl
  unfold ofSchema
  rw [Logged.result_bind_of_ok (Compile.result_shaped_eq_ok.mpr hvalues),
    Logged.result_bind_of_ok htext, if_pos carries, Logged.result_bind_eq_ok]
  simp only [Logged.result_note_when, pure_bind]
  -- behind the members come three checks, in this order: none, one name twice, no name
  constructor
  · rintro ⟨members, hmembers, h⟩
    split at h
    · cases h
    · next hempty =>
      split at h
      · cases h
      · next hduplicate =>
        obtain ⟨name, hname, h⟩ := Logged.result_bind_eq_ok.mp h
        cases h
        exact ⟨hmembers, by simpa using hempty, (duplicate?_eq_none.mp hduplicate).1,
          Compile.result_shaped_eq_ok.mp hname⟩
  · rintro ⟨hmembers, ne, distinct, hname⟩
    have hduplicate : duplicate? [] (spec.members.map (·.name)) = none :=
      duplicate?_eq_none.mpr ⟨distinct, fun _ _ => List.not_mem_nil⟩
    refine ⟨spec.members, hmembers, ?_⟩
    rw [if_neg (by simpa using ne)]
    simp only [hduplicate, hname]
    rfl

/-! ## Both directions -/

theorem listOf_toList (pairs : List (Int × String)) :
    (listOf pairs).toList = join listSeparator (pairs.map fun e => (pairText e).toList) := by
  rw [listOf, joinStrings, String.toList_ofList, List.map_map]
  rfl

theorem described_toList (pre post : String) (pairs : List (Int × String)) :
    (pre ++ "(" ++ listOf pairs ++ ")" ++ post).toList =
      pre.toList ++ '(' :: ((listOf pairs).toList ++ ')' :: post.toList) := by
  simp only [String.toList_append, List.append_assoc]
  rfl

theorem isInside_listOf {p : Profile} {pairs : List (Int × String)} (h : IsList p pairs)
    {post : String} (hpost : '(' ∉ post.toList) (pre : String) :
    IsInside (pre ++ "(" ++ listOf pairs ++ ")" ++ post).toList (listOf pairs).toList := by
  have hout : ∀ c, isWord c = false → c ∉ ['-', ' ', '=', ','] → c ∉ (listOf pairs).toList := by
    intro c word other
    simp only [List.mem_cons, List.not_mem_nil, or_false] at other
    rw [listOf_toList]
    refine not_mem_join (fun hc => ?_) fun part hpart => ?_
    · simp only [listSeparator, List.mem_cons, List.not_mem_nil, or_false] at hc
      tauto
    · obtain ⟨e, he, rfl⟩ := List.mem_map.mp hpart
      refine not_mem_pairText (h.names e he) word ?_
      simp only [List.mem_cons, List.not_mem_nil, or_false]
      tauto
  exact ⟨⟨pre.toList, post.toList, described_toList pre post pairs, hpost⟩,
    hout '(' (by decide) (by decide), hout ')' (by decide) (by decide)⟩

theorem equals_mem_listOf {pairs : List (Int × String)} (ne : pairs ≠ []) :
    '=' ∈ (listOf pairs).toList := by
  obtain ⟨e, he⟩ := List.exists_mem_of_ne_nil pairs ne
  rw [listOf_toList]
  refine mem_join_of_mem (List.mem_map_of_mem he) ?_
  rw [pairText_toList]
  exact List.mem_append_left _ (List.mem_append_right _ (by decide))

theorem pieces_listOf {p : Profile} {pairs : List (Int × String)} (h : IsList p pairs) :
    pieces listSeparator (listOf pairs).toList = pairs.map fun e => (pairText e).toList := by
  have hcomma : listSeparator[1]? = some ',' := rfl
  rw [listOf_toList]
  refine pieces_join hcomma (by decide) (by simpa using h.ne_nil) fun part hpart => ?_
  obtain ⟨e, he, rfl⟩ := List.mem_map.mp hpart
  exact not_mem_pairText (h.names e he) (by decide) (by decide)

/-- A list that is written is read as its members, whatever stands around it. -/
theorem membersOfDescription_listOf {p : Profile} {pairs : List (Int × String)}
    (h : IsList p pairs) {post : String} (hpost : '(' ∉ post.toList) (pre location : String) :
    (membersOfDescription p location (pre ++ "(" ++ listOf pairs ++ ")" ++ post).toList).result =
      .ok (pairs.map fun e => ⟨e.2, e.1⟩) := by
  rw [membersOfDescription,
    Logged.result_bind_of_ok (listText_eq_ok.mpr (isInside_listOf h hpost pre)), pieces_listOf h,
    membersOfSegments_eq_ok, List.forall₂_map_left_iff, List.forall₂_map_right_iff,
    List.forall₂_same]
  exact fun e he => memberOfSegment_pairText (h.names e he) (h.digits e he) location

/-- A schema whose description holds a list of pairs gets an enum with these members, in this order.
What stands before the list and behind it does not matter, as long as no parenthesis is opened
behind it. The other way round, an enum that comes from a list has a member for each part between
the last opening parenthesis and the next closing one, and the value of the member is the integer in
front of the first separator of the part. -/
theorem members_of_description :
    (∀ (p : Profile) (c : NamingContext) (es : List (Value × Value)) (values : List Value)
      (pairs : List (Int × String)) (pre post owner member : String),
      IsList p pairs → '(' ∉ post.toList →
      lookupText "enum" es = some (.list values) →
      lookupText "description" es =
        some (.text (pre ++ "(" ++ listOf pairs ++ ")" ++ post)) →
      c.owner = .text owner → c.member = .text member →
      (ofSchema p es c).result =
        .ok ⟨owner ++ String.ofList (capitalized member.toList),
          pairs.map fun e => ⟨e.2, e.1⟩⟩) ∧
    ∀ (p : Profile) (c : NamingContext) (es : List (Value × Value)) (text : String)
      (spec : EnumSpec),
      lookupText "description" es = some (.text text) → carriesList text.toList = true →
      (ofSchema p es c).result = .ok spec →
      ∃ inside segments, IsInside text.toList inside ∧ Splits listSeparator inside segments ∧
        List.Forall₂ (Writes p c.location) segments spec.members := by
  refine ⟨?_, ?_⟩
  · intro p c es values pairs pre post owner member h hpost henum hdescription howner hmember
    have hvalues : ((lookupText "enum" es).getD .null).elementsOrNone? = some values := by
      rw [henum]
      cases values <;> rfl
    have carries := (isInside_listOf h hpost pre).carriesList (equals_mem_listOf h.ne_nil)
    rw [ofSchema_eq_ok hvalues hdescription carries]
    refine ⟨membersOfDescription_listOf h hpost pre c.location, ?_, ?_, ?_⟩
    · simpa using h.ne_nil
    · rw [List.map_map]
      exact h.distinct
    · rw [nameIn?, howner, hmember]
  · intro p c es text spec hdescription carries hspec
    obtain ⟨values, hvalues, -⟩ := Logged.result_bind_eq_ok.mp hspec
    rw [ofSchema_eq_ok (Compile.result_shaped_eq_ok.mp hvalues) hdescription carries] at hspec
    obtain ⟨inside, hinside, hmembers⟩ := Logged.result_bind_eq_ok.mp hspec.1
    refine ⟨inside, pieces listSeparator inside, listText_eq_ok.mp hinside,
      splits_pieces (by decide) inside, ?_⟩
    exact (membersOfSegments_eq_ok.mp hmembers).imp fun _ _ => writes_of_memberOfSegment

/-! ### A list behind another parenthesis -/

def statePairs : List (Int × String) := [(1, "active"), (-2, "closed_down")]

def stateText : String := "State = (old , new) (1 = active , -2 = closed_down) , or = ) none"

def stateSchema : List (Value × Value) :=
  [(.text "enum", .list [.int 1]), (.text "description", .text stateText)]

def stateContext : NamingContext := ⟨.text "Account", .text "state", "Account.state"⟩

theorem isList_statePairs : IsList .common statePairs := by
  have hword : ∀ {cs : List Char}, (cs.all fun c =>
      isAsciiLower c || isAsciiUpper c || isAsciiDigit c || c == '_') = true → ∀ c ∈ cs,
      isAsciiLower c = true ∨ isAsciiUpper c = true ∨ isAsciiDigit c = true ∨ c = '_' := by
    intro cs h c hc
    simpa only [Bool.or_eq_true, beq_iff_eq, or_assoc] using List.all_eq_true.mp h c hc
  refine ⟨by decide, by decide +kernel, fun e he => ?_, by decide⟩
  rcases List.mem_cons.mp he with rfl | he
  · exact ⟨⟨'a', rfl, by decide⟩, hword (by decide), by decide, by decide +kernel,
      by decide +kernel⟩
  · rw [List.mem_singleton.mp he]
    exact ⟨⟨'c', rfl, by decide⟩, hword (by decide), by decide, by decide +kernel,
      by decide +kernel⟩

/-- Parentheses, commas and equals signs around the list are no part of it. -/
theorem members_of_description_of_state :
    IsList .common statePairs ∧ carriesList stateText.toList = true ∧
    (ofSchema .common stateSchema stateContext).result =
      .ok ⟨"AccountState", [⟨"active", 1⟩, ⟨"closed_down", -2⟩]⟩ ∧
    ∃ inside segments, IsInside stateText.toList inside ∧ Splits listSeparator inside segments ∧
      List.Forall₂ (Writes .common stateContext.location) segments
        [⟨"active", 1⟩, ⟨"closed_down", -2⟩] := by
  have hlist : stateText =
      "State = (old , new) " ++ "(" ++ listOf statePairs ++ ")" ++ " , or = ) none" := by
    decide +kernel
  have hdescription : lookupText "description" stateSchema = some (.text stateText) := rfl
  have carries : carriesList stateText.toList = true := by decide +kernel
  have hname : "AccountState" = "Account" ++ String.ofList (capitalized "state".toList) := by
    decide +kernel
  have hspec : (ofSchema .common stateSchema stateContext).result =
      .ok ⟨"AccountState", [⟨"active", 1⟩, ⟨"closed_down", -2⟩]⟩ := by
    rw [hname]
    exact members_of_description.1 .common stateContext stateSchema [.int 1] statePairs
      "State = (old , new) " " , or = ) none" "Account" "state" isList_statePairs (by decide) rfl
      (hlist ▸ hdescription) rfl rfl
  exact ⟨isList_statePairs, carries, hspec,
    members_of_description.2 _ _ _ _ _ hdescription carries hspec⟩

end EnumSpec

end ApiSmith
