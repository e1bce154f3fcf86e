import ApiSmith.Proofs.EnumLists

/-!
# Names of enum members

A member is named by the text behind its value in the list of a description, or after its value if
there is no list. `members_bindable_iff` says under which condition a declaration can bind these
names, for the presets and ASCII texts.

Both conditions come from the order of the steps. A value is read with blanks around it and with a
plus sign in front, its name is made from the text as it stands, and only the minus sign is replaced
in it (`isBindable_valueName_iff`). A text is compared with the reserved words before what is not of
a word is taken off it, so a reserved word in such a text comes out as it is
(`isBindable_memberName_iff`).
-/

namespace ApiSmith

open Text Naming Number

namespace EnumSpec

variable {p : Profile} {location : String}

/-! ## Names made from values -/

def underscored (c : Char) : Char := if c == '-' then '_' else c

def valueName (p : Profile) (v : Value) : String :=
  String.ofList ((p.memberStart.display ++ v.display).toList.map underscored)

theorem membersOfValues_eq_ok {values : List Value} {members : List EnumMember} :
    (membersOfValues p location values).result = .ok members ↔
      List.Forall₂ (fun v m => (memberValue v location).result = .ok m.value ∧ m.name = valueName p v)
        values members := by
  induction values generalizing members with
  | nil =>
    rw [membersOfValues, List.forall₂_nil_left_iff]
    constructor
    · intro h
      cases h
      rfl
    · rintro rfl
      rfl
  | cons v rest ih =>
    rw [membersOfValues, Logged.result_bind_eq_ok]
    constructor
    · rintro ⟨n, hvalue, h⟩
      obtain ⟨more, hmore, h⟩ := Logged.result_bind_eq_ok.mp h
      cases h
      exact .cons ⟨hvalue, rfl⟩ (ih.mp hmore)
    · intro h
      cases h with
      | @cons _ m _ more hm hmore =>
        obtain ⟨hvalue, hname⟩ := hm
        refine ⟨m.value, hvalue, ?_⟩
        rw [Logged.result_bind_of_ok (ih.mpr hmore)]
        show Except.ok (⟨valueName p v, m.value⟩ :: more) = .ok (m :: more)
        rw [← hname]

theorem readInt?_of_memberValue {v : Value} {n : Int}
    (h : (memberValue v location).result = .ok n) : readInt? v.display.toList = some n := by
  unfold memberValue at h
  split at h
  · cases h
  · split at h
    · cases h
    · split at h
      · next m hm =>
        cases h
        exact hm
      · cases h

/-- A text without blanks and plus signs. -/
def IsCompact (cs : List Char) : Prop := ∀ c ∈ cs, isBlank c = false ∧ c ≠ '+'

instance (cs : List Char) : Decidable (IsCompact cs) := List.decidableBAll _ cs

theorem isWord_underscored {c : Char} (ascii : c.toNat < 128)
    (h : isDecimal c = true ∨ c = '_' ∨ c = '-' ∨ c = '+' ∨ isBlank c = true) :
    (isWord (underscored c) = true ↔ isBlank c = false ∧ c ≠ '+') ∧
      isAsciiLower (underscored c) = false ∧ isAsciiUpper (underscored c) = false :=
  of_ascii (P := fun c =>
    isDecimal c = true ∨ c = '_' ∨ c = '-' ∨ c = '+' ∨ isBlank c = true →
      (isWord (underscored c) = true ↔ isBlank c = false ∧ c ≠ '+') ∧
        isAsciiLower (underscored c) = false ∧ isAsciiUpper (underscored c) = false)
    (by decide +kernel) ascii h

theorem isBindable_valueName_iff (preset : p ∈ Profile.presets) {v : Value} {n : Int}
    (ascii : IsAscii v.display.toList) (h : (memberValue v location).result = .ok n) :
    IsBindable (valueName p v) ↔ IsCompact v.display.toList := by
  have hstart := (Profile.naming_of_mem_presets preset).1
  have hname : (valueName p v).toList = 'e' :: 'l' :: v.display.toList.map underscored := by
    rw [valueName, String.toList_ofList, hstart, Value.display_text, String.toList_append,
      List.map_append]
    rfl
  have hchars : ∀ c ∈ v.display.toList,
      (isWord (underscored c) = true ↔ isBlank c = false ∧ c ≠ '+') ∧
        isAsciiLower (underscored c) = false ∧ isAsciiUpper (underscored c) = false :=
    fun c hc => isWord_underscored (ascii c hc) (mem_of_readInt? (readInt?_of_memberValue h) hc)
  have hascii : IsAscii (valueName p v).toList := by
    have hchar : ∀ {c : Char}, c.toNat < 128 → (underscored c).toNat < 128 :=
      fun {c} => of_ascii (P := fun c => (underscored c).toNat < 128) (by decide +kernel)
    rw [hname]
    simp only [IsAscii, List.forall_mem_cons, List.forall_mem_map]
    exact ⟨by decide, by decide, fun c hc => hchar (ascii c hc)⟩
  have hidentifier : isIdentifier (valueName p v).toList = true ↔ IsCompact v.display.toList := by
    rw [isIdentifier_iff hascii, hname]
    simp only [List.forall_mem_cons, List.forall_mem_map, List.head?_cons, Option.mem_def,
      Option.some.injEq, exists_eq_left']
    have he : isDigit 'e' = false ∧ isWord 'e' = true ∧ isWord 'l' = true := by decide
    simp only [he, true_and]
    exact forall₂_congr fun c hc => (hchars c hc).1
  have hfree : isReserved (valueName p v) = false := by
    by_contra hreserved
    rw [Bool.not_eq_false] at hreserved
    -- a reserved word is made of letters, so nothing would stand behind the start
    have hempty : v.display.toList = [] := by
      apply List.eq_nil_iff_forall_not_mem.mpr
      intro c hc
      have hmem : underscored c ∈ (valueName p v).toList := by
        rw [hname]
        exact List.mem_cons_of_mem _ (List.mem_cons_of_mem _ (List.mem_map_of_mem hc))
      rcases letter_of_isReserved hreserved hmem with hletter | hletter
      · rw [(hchars c hc).2.1] at hletter
        cases hletter
      · rw [(hchars c hc).2.2] at hletter
        cases hletter
    have hel : valueName p v = "el" := by
      apply String.toList_inj.mp
      rw [hname, hempty]
      rfl
    rw [hel] at hreserved
    exact absurd hreserved (by decide)
  exact ⟨fun hbind => hidentifier.mp hbind.identifier, fun hcompact =>
    ⟨hidentifier.mpr hcompact, hfree⟩⟩

example : readInt? " 1".toList = some 1 ∧ valueName .common (.text " 1") = "el 1" := by decide

/-! ## Names made from texts -/

/-- A text that is not a reserved word and has one as its bare part: the word stands between blanks,
marks or underscores. -/
def HidesReserved (cs : List Char) : Prop :=
  isReserved (String.ofList (bare cs)) = true ∧ bare cs ≠ cs

instance (cs : List Char) : Decidable (HidesReserved cs) :=
  inferInstanceAs (Decidable (_ ∧ _))

/-- The text that a member name is made from: the one in the list or, if the presets guard it, that
behind an `a`. -/
def mappedText (text : List Char) : List Char :=
  let name := uncapitalized (trim text)
  if String.ofList name ∈ guardedNames [] then (guarded (String.ofList name)).toList else name

theorem memberName_eq_ok (preset : p ∈ Profile.presets) {text : List Char} {name : String}
    (h : (memberName p text location).result = .ok name) :
    identifierText (mappedText text) ≠ [] ∧
      name = String.ofList (if (identifierText (mappedText text)).head? = some '_'
        then 'e' :: 'l' :: identifierText (mappedText text)
        else identifierText (mappedText text)) := by
  have hstart := (Profile.naming_of_mem_presets preset).1
  unfold memberName at h
  obtain ⟨cleaned, hcleaned, h⟩ := Logged.result_bind_eq_ok.mp h
  have htext : cleaned.toList = mappedText text := by
    rw [safeName_of_preset preset, Compile.result_shaped_eq_ok, Value.text?] at hcleaned
    cases hcleaned
    rw [mappedText]
    split
    · rfl
    · exact String.toList_ofList
  rw [htext] at h
  dsimp only at h
  split at h
  · cases h
  · next hempty =>
    refine ⟨fun hnil => hempty (by rw [hnil]; rfl), ?_⟩
    by_cases hunder : (identifierText (mappedText text)).head? = some '_'
    · have hconcat : ∀ t, (Value.text "el").concat? (.text t) = some ("el" ++ t) := fun _ => rfl
      have hbeq : ((identifierText (mappedText text)).head? == some '_') = true :=
        beq_iff_eq.mpr hunder
      rw [if_pos hbeq, hstart, hconcat, Compile.result_shaped_eq_ok, Option.some.injEq] at h
      have hel : "el" = String.ofList ['e', 'l'] := rfl
      rw [if_pos hunder, ← h, hel, ← String.ofList_append, List.cons_append, List.cons_append,
        List.nil_append]
    · have hbeq : ¬ ((identifierText (mappedText text)).head? == some '_') = true :=
        fun hbeq => hunder (beq_iff_eq.mp hbeq)
      rw [if_neg hbeq, Logged.result_pure, Except.ok.injEq] at h
      rw [if_neg hunder, ← h]

theorem guarded_isBindable {name : String} (h : name ∈ guardedNames []) :
    identifierText (guarded name).toList = (guarded name).toList ∧ IsBindable (guarded name) ∧
      (guarded name).toList.head? ≠ some '_' ∧ bare name.toList = name.toList := by
  have hall : ∀ name ∈ guardedNames [],
      identifierText (guarded name).toList = (guarded name).toList ∧ IsBindable (guarded name) ∧
        (guarded name).toList.head? ≠ some '_' ∧ bare name.toList = name.toList := by
    decide +kernel
  exact hall name h

/-- A name from a text can be bound unless the text hides a reserved word. -/
theorem isBindable_memberName_iff (preset : p ∈ Profile.presets) {text : List Char} {name : String}
    (ascii : IsAscii text) (h : (memberName p text location).result = .ok name) :
    IsBindable name ↔ ¬ HidesReserved (uncapitalized (trim text)) := by
  obtain ⟨hne, hname⟩ := memberName_eq_ok preset h
  have huncapitalized := isAscii_uncapitalized ascii.trim
  by_cases hguard : String.ofList (uncapitalized (trim text)) ∈ guardedNames []
  · -- what is guarded is bare already, and its name is good
    obtain ⟨hself, hbind, hhead, hbare⟩ := guarded_isBindable hguard
    have hmapped : identifierText (mappedText text) =
        (guarded (String.ofList (uncapitalized (trim text)))).toList := by
      rw [mappedText, if_pos hguard, hself]
    rw [hmapped, if_neg hhead, String.ofList_toList] at hname
    rw [String.toList_ofList] at hbare
    rw [hname]
    exact iff_of_true hbind fun hhides => hhides.2 hbare
  · have hmapped : mappedText text = uncapitalized (trim text) := by
      rw [mappedText, if_neg hguard]
    rw [hmapped] at hne hname
    have hhides : HidesReserved (uncapitalized (trim text)) ↔
        isReserved (String.ofList (bare (uncapitalized (trim text)))) = true := by
      constructor
      · exact fun hhides => hhides.1
      · intro hreserved
        refine ⟨hreserved, fun hbare => hguard (List.mem_append_left _ ?_)⟩
        rw [hbare] at hreserved
        exact List.contains_iff_mem.mp hreserved
    rw [hhides, Bool.not_eq_true]
    by_cases hunder : (identifierText (uncapitalized (trim text))).head? = some '_'
    · -- an underscore in front comes from a digit, so no word is hidden
      have hmem := List.mem_of_mem_head? hunder
      have hlong : '_' ∈ 'e' :: 'l' :: identifierText (uncapitalized (trim text)) :=
        List.mem_cons_of_mem _ (List.mem_cons_of_mem _ hmem)
      rw [if_pos hunder] at hname
      rw [hname, ← isReserved_identifierText]
      refine iff_of_true ⟨?_, isReserved_of_underscore hlong⟩ (isReserved_of_underscore hmem)
      rw [String.toList_ofList]
      show isIdentifier (['e', 'l'] ++ identifierText (uncapitalized (trim text))) = true
      exact isIdentifier_append (by decide) (isAsciiWord_identifierText huncapitalized)
    · rw [if_neg hunder] at hname
      rw [hname]
      exact isBindable_identifierText_iff huncapitalized hne

/-! ## Names of an enum -/

/-- What a member is named by. -/
inductive Origin where
  | value (text : List Char)
  | name (text : List Char)

def Origin.IsClean : Origin → Prop
  | .value text => IsCompact text
  | .name text => ¬ HidesReserved (uncapitalized (trim text))

instance : DecidablePred Origin.IsClean
  | .value text => inferInstanceAs (Decidable (IsCompact text))
  | .name text => inferInstanceAs (Decidable (¬ HidesReserved (uncapitalized (trim text))))

variable {es : List (Value × Value)}

/-- What the members of a schema are named by: their values, or the texts behind the values in the
list that its description carries. -/
inductive NamedBy (es : List (Value × Value)) : List Origin → Prop where
  | values {values description} :
      ((lookupText "enum" es).getD .null).elementsOrNone? = some values →
      descriptionText? ((lookupText "description" es).getD .null) = some description →
      carriesList description = false →
      NamedBy es (values.map fun v => .value v.display.toList)
  | texts {description inside segments texts} :
      descriptionText? ((lookupText "description" es).getD .null) = some description →
      carriesList description = true →
      IsInside description inside → Splits listSeparator inside segments →
      List.Forall₂ (fun s text => ∃ value, CutsAt pairSeparator s value text) segments texts →
      NamedBy es (texts.map .name)

/-- A schema whose values and description are of ASCII characters. -/
structure HasAsciiTexts (es : List (Value × Value)) : Prop where
  values : ∀ values, ((lookupText "enum" es).getD .null).elementsOrNone? = some values →
    ∀ v ∈ values, IsAscii v.display.toList
  description : ∀ description,
    descriptionText? ((lookupText "description" es).getD .null) = some description →
    IsAscii description

theorem spec_of_checks {c : NamingContext} {members : List EnumMember} {spec : EnumSpec}
    (h : (if members.isEmpty then .defect .noMembers c.location
      else match duplicate? [] (members.map (·.name)) with
        | some n => .defect (.duplicateMember n) c.location
        | none => Compile.shaped (nameIn? c) >>= fun name => pure ⟨name, members⟩ :
        Compile EnumSpec).result = .ok spec) :
    spec.members = members ∧ nameIn? c = some spec.name := by
  split at h
  · cases h
  · split at h
    · cases h
    · obtain ⟨name, hname, h⟩ := Logged.result_bind_eq_ok.mp h
      cases h
      exact ⟨rfl, Compile.result_shaped_eq_ok.mp hname⟩

theorem parts_of_ofSchema {c : NamingContext} {spec : EnumSpec}
    (h : (ofSchema p es c).result = .ok spec) :
    nameIn? c = some spec.name ∧ ∃ values description,
      ((lookupText "enum" es).getD .null).elementsOrNone? = some values ∧
      descriptionText? ((lookupText "description" es).getD .null) = some description ∧
      (if carriesList description then membersOfDescription p c.location description
        else membersOfValues p c.location values).result = .ok spec.members := by
  unfold ofSchema at h
  obtain ⟨values, hvalues, h⟩ := Logged.result_bind_eq_ok.mp h
  obtain ⟨description, hdescription, h⟩ := Logged.result_bind_eq_ok.mp h
  rw [Compile.result_shaped_eq_ok] at hvalues hdescription
  by_cases hcarries : carriesList description = true
  · rw [if_pos hcarries, Logged.result_bind_eq_ok] at h
    obtain ⟨members, hmembers, h⟩ := h
    simp only [Logged.result_note_when, pure_bind] at h
    obtain ⟨hspec, hname⟩ := spec_of_checks h
    refine ⟨hname, values, description, hvalues, hdescription, ?_⟩
    rw [if_pos hcarries, hspec]
    exact hmembers
  · rw [if_neg hcarries, Logged.result_bind_eq_ok] at h
    obtain ⟨members, hmembers, h⟩ := h
    obtain ⟨hspec, hname⟩ := spec_of_checks h
    refine ⟨hname, values, description, hvalues, hdescription, ?_⟩
    rw [if_neg hcarries, hspec]
    exact hmembers

theorem mem_of_splits {sep cs : List Char} {parts : List (List Char)} (h : Splits sep cs parts)
    {part : List Char} (hpart : part ∈ parts) {c : Char} (hc : c ∈ part) : c ∈ cs := by
  induction h with
  | last _ =>
    rw [List.mem_singleton.mp hpart] at hc
    exact hc
  | more hcut _ ih =>
    rw [hcut.parts]
    rcases List.mem_cons.mp hpart with rfl | hpart
    · exact List.mem_append_left _ (List.mem_append_left _ hc)
    · exact List.mem_append_right _ (ih hpart)

theorem forall₂_values (preset : p ∈ Profile.presets) {values : List Value}
    {members : List EnumMember} (ascii : ∀ v ∈ values, IsAscii v.display.toList)
    (h : (membersOfValues p location values).result = .ok members) :
    List.Forall₂ (fun o m => IsBindable m.name ↔ o.IsClean)
      (values.map fun v => Origin.value v.display.toList) members := by
  have hrow := membersOfValues_eq_ok.mp h
  clear h
  induction hrow with
  | nil => exact .nil
  | cons hm _ ih =>
    obtain ⟨hfirst, hrest⟩ := List.forall_mem_cons.mp ascii
    refine .cons ?_ (ih hrest)
    rw [hm.2]
    exact isBindable_valueName_iff preset hfirst hm.1

theorem exists_texts (preset : p ∈ Profile.presets) {segments : List (List Char)}
    {members : List EnumMember} (ascii : ∀ segment ∈ segments, IsAscii segment)
    (h : (membersOfSegments p location segments).result = .ok members) :
    ∃ texts,
      List.Forall₂ (fun s text => ∃ value, CutsAt pairSeparator s value text) segments texts ∧
      List.Forall₂ (fun o m => IsBindable m.name ↔ o.IsClean) (texts.map Origin.name) members := by
  have hrow := membersOfSegments_eq_ok.mp h
  clear h
  induction hrow with
  | nil => exact ⟨[], .nil, .nil⟩
  | @cons segment m _ _ hm _ ih =>
    obtain ⟨hfirst, hrest⟩ := List.forall_mem_cons.mp ascii
    obtain ⟨value, text, hcut, -, hname⟩ := writes_of_memberOfSegment hm
    obtain ⟨texts, hcuts, hbinds⟩ := ih hrest
    have htext : IsAscii text := by
      intro d hd
      apply hfirst
      rw [hcut.parts]
      exact List.mem_append_right _ hd
    have hbind := isBindable_memberName_iff preset htext hname
    exact ⟨text :: texts, .cons ⟨value, hcut⟩ hcuts, .cons hbind hbinds⟩

/-- A declaration can bind the names of the members of an enum exactly if what they are named by is
clean: a value has neither blanks nor a plus sign, and a text in a list does not hide a reserved
word. -/
theorem members_bindable_iff (preset : p ∈ Profile.presets) {c : NamingContext} {spec : EnumSpec}
    (ascii : HasAsciiTexts es) (h : (ofSchema p es c).result = .ok spec) :
    ∃ origins, NamedBy es origins ∧
      List.Forall₂ (fun o m => IsBindable m.name ↔ o.IsClean) origins spec.members ∧
      ((∀ m ∈ spec.members, IsBindable m.name) ↔ ∀ o ∈ origins, o.IsClean) := by
  have hall : ∀ {origins : List Origin} {members : List EnumMember},
      List.Forall₂ (fun o m => IsBindable m.name ↔ o.IsClean) origins members →
      ((∀ m ∈ members, IsBindable m.name) ↔ ∀ o ∈ origins, o.IsClean) := by
    intro origins members hrow
    induction hrow with
    | nil => simp
    | cons hfirst _ ih => rw [List.forall_mem_cons, List.forall_mem_cons, hfirst, ih]
  obtain ⟨-, values, description, hvalues, hdescription, hmembers⟩ := parts_of_ofSchema h
  by_cases hcarries : carriesList description = true
  · rw [if_pos hcarries] at hmembers
    obtain ⟨inside, hinside, hmembers⟩ := Logged.result_bind_eq_ok.mp hmembers
    have hin := listText_eq_ok.mp hinside
    have hsplits : Splits listSeparator inside (pieces listSeparator inside) :=
      splits_pieces (by decide) inside
    have hascii : ∀ segment ∈ pieces listSeparator inside, IsAscii segment := by
      intro segment hsegment d hd
      obtain ⟨before, after, hparts, -⟩ := hin.parts
      apply ascii.description description hdescription
      rw [hparts]
      apply List.mem_append_right
      apply List.mem_cons_of_mem
      exact List.mem_append_left _ (mem_of_splits hsplits hsegment hd)
    obtain ⟨texts, hcuts, hbinds⟩ := exists_texts preset hascii hmembers
    exact ⟨texts.map .name, .texts hdescription hcarries hin hsplits hcuts, hbinds, hall hbinds⟩
  · rw [if_neg hcarries] at hmembers
    have hbinds := forall₂_values preset (ascii.values values hvalues) hmembers
    exact ⟨_, .values hvalues hdescription (Bool.eq_false_iff.mpr hcarries), hbinds, hall hbinds⟩

/-- Two grades, the first under a reserved word with an exclamation mark behind it. -/
def gradeSchema : List (Value × Value) :=
  [(.text "enum", .list [.int 1, .int 2]),
    (.text "description", .text "Grade (1 = class! , 2 = Class)")]

/-- The first grade gets the reserved word for its name, the second one does not. -/
theorem members_bindable_iff_of_grades :
    Profile.common ∈ Profile.presets ∧ HasAsciiTexts gradeSchema ∧
    ∃ spec, (ofSchema .common gradeSchema ⟨.text "User", .text "grade", "User"⟩).result = .ok spec ∧
      spec.members.map (·.name) = ["class", "aClass"] ∧
      (¬ ∀ m ∈ spec.members, IsBindable m.name) ∧
      ∃ origins, NamedBy gradeSchema origins ∧
        List.Forall₂ (fun o m => IsBindable m.name ↔ o.IsClean) origins spec.members ∧
        ((∀ m ∈ spec.members, IsBindable m.name) ↔ ∀ o ∈ origins, o.IsClean) := by
  have preset : Profile.common ∈ Profile.presets := List.mem_cons_self
  have ascii : HasAsciiTexts gradeSchema := by
    constructor
    · intro values hvalues
      have hown : values = [.int 1, .int 2] := (Option.some.inj hvalues).symm
      subst hown
      decide
    · intro description hdescription
      have hown : description = "Grade (1 = class! , 2 = Class)".toList :=
        (Option.some.inj hdescription).symm
      subst hown
      decide
  have hspec : (ofSchema .common gradeSchema ⟨.text "User", .text "grade", "User"⟩).result =
      .ok ⟨"UserGrade", [⟨"class", 1⟩, ⟨"aClass", 2⟩]⟩ := by
    rfl
  refine ⟨preset, ascii, _, hspec, rfl, ?_, members_bindable_iff preset ascii hspec⟩
  intro hall
  exact absurd (hall ⟨"class", 1⟩ List.mem_cons_self).free (by decide)

end EnumSpec

end ApiSmith
