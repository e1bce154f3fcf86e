import ApiSmith.Proofs.Kinds

/-!
# Lists of types

A schema can give its type as one text or as a list of them. The table of kinds holds single types
only, and looking up a list there stops the run. Apart from that, the compiling of parameters and
definitions comes to a result or to a defect (`Parameter.hasFate_compileAll_iff`,
`Model.hasFate_compile_iff`).

Not every list is looked up. `LooksUpList` follows the steps of the compiler: below a schema with an
enum or a reference nothing is looked up, an array or a single `allOf` leads to the schema inside,
and in a row of properties or parameters a defect ends the row.
-/

namespace ApiSmith

open Package (HasFate)
open Value

/-! ## Schemas -/

/-- The type of a schema is looked up and is a list. Under an enum or a reference nothing is looked
up, and the type of an array or of a single `allOf` is that of the schema inside. -/
inductive Value.LooksUpList : Value → Prop
  | own {es : List (Value × Value)} (enum : valueAt es "enum" = .null)
    (ref : lookupText "$ref" es = none) (allOf : ∀ x, AllOf.of (valueAt es "allOf") ≠ .single x)
    {types : List Value} (type : valueAt es "type" = .list types) : LooksUpList (.map es)
  | items {es : List (Value × Value)} (enum : valueAt es "enum" = .null)
    (type : valueAt es "type" = .text "array") {item : Value}
    (items : lookupText "items" es = some item) (inner : LooksUpList item) : LooksUpList (.map es)
  | allOf {es : List (Value × Value)} (enum : valueAt es "enum" = .null)
    (type : valueAt es "type" ≠ .text "array") (ref : lookupText "$ref" es = none) {x : Value}
    (allOf : AllOf.of (valueAt es "allOf") = .single x) (inner : LooksUpList x) :
    LooksUpList (.map es)

/-- The types that a schema may have: one, or a list of several. -/
def IsOneOrSeveral (v : Value) : Prop := OrNull IsText v ∨ IsTexts v

variable {p : Profile} {c : NamingContext}

/-- The names for the enum of a schema are texts. -/
structure NamingContext.HasTexts (c : NamingContext) : Prop where
  owner : c.owner.IsText
  member : c.member.IsText

theorem hasFate_resolveKind_iff {es : List (Value × Value)}
    (type : IsOneOrSeveral (valueAt es "type")) (format : OrNull IsText (valueAt es "format")) :
    HasFate (resolveKind p es c) ↔ ∀ types, valueAt es "type" ≠ .list types := by
  have hformat (b : Bool) : (if b then .null else valueAt es "format").isHashable = true := by
    cases b
    · rcases format with h | ⟨f, h⟩ <;> rw [if_neg Bool.false_ne_true, h] <;> rfl
    · rfl
  have hone (one : OrNull IsText (valueAt es "type")) : HasFate (resolveKind p es c) := by
    have htype : (valueAt es "type").isHashable = true := by
      rcases one with h | ⟨t, h⟩ <;> rw [h] <;> rfl
    rw [valueAt] at htype hformat
    unfold resolveKind
    simp only [htype, hformat, Bool.and_self, Bool.not_true, Bool.false_eq_true, if_false]
    split
    · exact hasFate_pure _
    · exact hasFate_defect _ _
  rcases type with one | ⟨ts, several⟩
  · refine iff_of_true (hone one) fun types h => ?_
    rcases one with hnull | ⟨t, ht⟩
    · cases hnull.symm.trans h
    · cases ht.symm.trans h
  · refine iff_of_false (fun h => ?_) fun h => h _ several
    have hshape : resolveKind p es c = .fail .shape := by
      rw [valueAt] at several
      simp only [resolveKind, several, Value.isHashable, Bool.false_and, Bool.not_false, if_true]
    rw [hshape] at h
    exact not_hasFate_shape h

theorem AllOf.of_null : AllOf.of .null = .none := rfl

theorem AllOf.of_list (vs : List Value) :
    (∃ x, vs = [x] ∧ AllOf.of (.list vs) = .single x) ∨ AllOf.of (.list vs) = .none := by
  match vs with
  | [] => exact .inr rfl
  | [x] => exact .inl ⟨x, rfl, rfl⟩
  | _ :: _ :: _ => exact .inr rfl

/-! The cases of `resolve`, one by one. -/

section

variable {es : List (Value × Value)}

theorem resolve_enum (enum : valueAt es "enum" ≠ .null) :
    resolve p (.map es) c = EnumSpec.ofSchema p es c >>= fun spec => pure (.enum spec) := by
  have hnull := isNull_of_ne enum
  rw [valueAt] at hnull
  rw [resolve, hnull]
  rfl

theorem resolve_items (enum : valueAt es "enum" = .null) (type : valueAt es "type" = .text "array")
    {item : Value} (items : lookupText "items" es = some item) (present : item.isPresent = true) :
    resolve p (.map es) c =
      resolve p item (c.child "items") >>= fun element => pure (.array element) := by
  rw [valueAt] at enum type
  rw [resolve_map, enum, type, items]
  simp only [present, Value.isNull, Bool.not_true, Bool.false_eq_true, if_false, isText,
    beq_self_eq_true, if_true]

theorem hasFate_resolve_of_noItems (enum : valueAt es "enum" = .null)
    (type : valueAt es "type" = .text "array")
    (absent : ∀ item, lookupText "items" es = some item → item.isPresent = false) :
    HasFate (resolve p (.map es) c) := by
  rw [valueAt] at enum type
  rw [resolve_map, enum, type]
  simp only [Value.isNull, Bool.not_true, Bool.false_eq_true, if_false, isText, beq_self_eq_true,
    if_true]
  cases hitem : lookupText "items" es with
  | none => exact hasFate_defect _ _
  | some item =>
    simp only [absent item hitem, Bool.false_eq_true, if_false]
    exact hasFate_defect _ _

theorem resolve_reference (enum : valueAt es "enum" = .null)
    (type : valueAt es "type" ≠ .text "array") {ref : String}
    (href : lookupText "$ref" es = some (.text ref)) :
    resolve p (.map es) c = pure (.reference (refName ref)) := by
  have htype := isText_of_ne type
  rw [valueAt] at enum htype
  rw [resolve, enum, htype]
  simp only [Value.isNull, Bool.not_true, Bool.false_eq_true, if_false, href]

theorem resolve_allOf (enum : valueAt es "enum" = .null)
    (type : valueAt es "type" ≠ .text "array") (ref : lookupText "$ref" es = none) :
    resolve p (.map es) c =
      match AllOf.of (valueAt es "allOf") with
      | .single x => resolve p x (c.child "allOf")
      | .malformed => .fail .shape
      | .none => resolveKind p es c := by
  have htype := isText_of_ne type
  rw [valueAt] at enum htype
  rw [resolve_map, enum, htype, ref, valueAt]
  simp only [Value.isNull, Bool.not_true, Bool.false_eq_true, if_false]
  cases lookupText "allOf" es with
  | none => rfl
  | some v => cases hof : AllOf.of v <;> simp only [Option.map_some, Option.getD_some, hof]

end

theorem NamingContext.HasTexts.child (h : c.HasTexts) (step : String) : (c.child step).HasTexts :=
  ⟨h.owner, h.member⟩

/-! The same cases of looking up a list. -/

section

variable {es : List (Value × Value)}

theorem not_looksUpList_of_enum (enum : valueAt es "enum" ≠ .null) :
    ¬ (Value.map es).LooksUpList := by
  intro h
  cases h with
  | own null => exact enum null
  | items null => exact enum null
  | allOf null => exact enum null

theorem looksUpList_array_iff (enum : valueAt es "enum" = .null)
    (type : valueAt es "type" = .text "array") :
    (Value.map es).LooksUpList ↔
      ∃ item, lookupText "items" es = some item ∧ item.LooksUpList := by
  constructor
  · intro h
    cases h with
    | own _ _ _ list => cases type.symm.trans list
    | items _ _ items inner => exact ⟨_, items, inner⟩
    | allOf _ other => exact absurd type other
  · rintro ⟨item, items, inner⟩
    exact .items enum type items inner

theorem not_looksUpList_of_reference (type : valueAt es "type" ≠ .text "array") {r : Value}
    (ref : lookupText "$ref" es = some r) : ¬ (Value.map es).LooksUpList := by
  intro h
  cases h with
  | own _ none => cases ref.symm.trans none
  | items _ array => exact type array
  | allOf _ _ none => cases ref.symm.trans none

theorem looksUpList_single_iff (enum : valueAt es "enum" = .null)
    (type : valueAt es "type" ≠ .text "array") (ref : lookupText "$ref" es = none) {x : Value}
    (single : AllOf.of (valueAt es "allOf") = .single x) :
    (Value.map es).LooksUpList ↔ x.LooksUpList := by
  constructor
  · intro h
    cases h with
    | own _ _ allOf => exact absurd single (allOf x)
    | items _ array => exact absurd array type
    | allOf _ _ _ allOf inner =>
      rw [single] at allOf
      cases allOf
      exact inner
  · exact .allOf enum type ref single

theorem looksUpList_own_iff (enum : valueAt es "enum" = .null)
    (type : valueAt es "type" ≠ .text "array") (ref : lookupText "$ref" es = none)
    (own : AllOf.of (valueAt es "allOf") = .none) :
    (Value.map es).LooksUpList ↔ ∃ types, valueAt es "type" = .list types := by
  constructor
  · intro h
    cases h with
    | own _ _ _ list => exact ⟨_, list⟩
    | items _ array => exact absurd array type
    | allOf _ _ _ allOf => cases own.symm.trans allOf
  · rintro ⟨types, list⟩
    exact .own enum ref (fun x hx => by cases own.symm.trans hx) list

end

theorem Value.LooksUpList.isPresent {v : Value} (h : v.LooksUpList) : v.isPresent = true := by
  have hmap {es : List (Value × Value)} (hes : es ≠ []) : (Value.map es).isPresent = true := by
    cases es with
    | nil => exact absurd rfl hes
    | cons _ _ => rfl
  cases h with
  | own enum ref allOf type =>
    refine hmap ?_
    rintro rfl
    cases type
  | items enum type items inner =>
    refine hmap ?_
    rintro rfl
    cases items
  | allOf enum type ref allOf inner =>
    refine hmap ?_
    rintro rfl
    cases allOf

theorem AllOf.eq_of_single {kind : Value → Prop} {v x : Value} (h : AllOf.of v = .single x)
    (hv : OrNull (IsListOf kind) v) : v = .list [x] := by
  rcases hv with rfl | ⟨vs, rfl, -⟩
  · cases h
  · rcases AllOf.of_list vs with ⟨y, rfl, hy⟩ | hnone
    · cases hy.symm.trans h
      rfl
    · cases hnone.symm.trans h

theorem Value.IsSchema.not_looksUpList {v : Value} (h : v.IsSchema (OrNull IsText)) :
    ¬ v.LooksUpList := by
  intro list
  induction list with
  | own enum ref allOf type =>
    cases h with
    | map one =>
      rcases one with hnull | ⟨t, ht⟩
      · cases hnull.symm.trans type
      · cases ht.symm.trans type
  | items enum type items inner ih =>
    cases h with
    | map _ _ _ _ _ _ item =>
      refine ih (item _ items ?_)
      rintro rfl
      cases inner
  | allOf enum type ref allOf inner ih =>
    cases h with
    | map _ _ _ _ _ _ _ several part =>
      have hlist := AllOf.eq_of_single allOf several
      exact ih (part _ (lookup_of_valueAt hlist nofun) _ (List.mem_singleton_self _))

section

variable {es : List (Value × Value)}

theorem hasFate_resolve_array_iff (enum : valueAt es "enum" = .null)
    (type : valueAt es "type" = .text "array")
    (item : ∀ v, lookupText "items" es = some v → v ≠ .null →
      (HasFate (resolve p v (c.child "items")) ↔ ¬ v.LooksUpList)) :
    HasFate (resolve p (.map es) c) ↔ ¬ (Value.map es).LooksUpList := by
  rw [looksUpList_array_iff enum type]
  by_cases hpresent : ∃ inner, lookupText "items" es = some inner ∧ inner.isPresent = true
  · obtain ⟨inner, hinner, hpresent⟩ := hpresent
    have hne : inner ≠ .null := by
      rintro rfl
      cases hpresent
    have hstep : HasFate (resolve p (.map es) c) ↔ HasFate (resolve p inner (c.child "items")) := by
      rw [resolve_items enum type hinner hpresent, hasFate_bind_iff]
      exact and_iff_left fun _ _ => hasFate_pure _
    rw [hstep, item inner hinner hne, hinner]
    simp only [Option.some.injEq, exists_eq_left']
  · refine iff_of_true (hasFate_resolve_of_noItems enum type fun inner hinner => ?_) ?_
    · exact Bool.eq_false_iff.mpr fun h => hpresent ⟨inner, hinner, h⟩
    · rintro ⟨inner, hinner, hlist⟩
      exact hpresent ⟨inner, hinner, hlist.isPresent⟩

theorem hasFate_resolve_own_iff (enum : valueAt es "enum" = .null)
    (type : valueAt es "type" ≠ .text "array") (ref : lookupText "$ref" es = none)
    (types : IsOneOrSeveral (valueAt es "type")) (format : OrNull IsText (valueAt es "format"))
    (allOf : OrNull (IsListOf fun _ => True) (valueAt es "allOf"))
    (part : ∀ x, AllOf.of (valueAt es "allOf") = .single x →
      (HasFate (resolve p x (c.child "allOf")) ↔ ¬ x.LooksUpList)) :
    HasFate (resolve p (.map es) c) ↔ ¬ (Value.map es).LooksUpList := by
  rw [resolve_allOf enum type ref]
  cases hall : AllOf.of (valueAt es "allOf") with
  | single x =>
    rw [looksUpList_single_iff enum type ref hall]
    exact part x hall
  | none =>
    rw [looksUpList_own_iff enum type ref hall]
    exact (hasFate_resolveKind_iff types format).trans not_exists.symm
  | malformed =>
    rcases allOf with hnull | ⟨vs, hvs, -⟩
    · rw [hnull, AllOf.of_null] at hall
      cases hall
    · rw [hvs] at hall
      rcases AllOf.of_list vs with ⟨_, -, hsingle⟩ | hnone
      · cases hall.symm.trans hsingle
      · cases hall.symm.trans hnone

end

/-- The type of a schema is resolved, or there is a defect, unless a list of types is looked up. -/
theorem hasFate_resolve_iff (hp : p.HasTexts) {v : Value} (h : v.IsSchema IsOneOrSeveral)
    (hc : c.HasTexts) : HasFate (resolve p v c) ↔ ¬ v.LooksUpList := by
  -- on the schema, since the schemas under `items` and `allOf` have other places
  induction h generalizing c with
  | @map es type format description ref enum items item allOf part ihItem ihPart =>
    rcases ne_or_eq (valueAt es "enum") .null with henum | henum
    · rw [resolve_enum henum]
      refine iff_of_true (hasFate_bind_iff.mpr ⟨?_, fun _ _ => hasFate_pure _⟩)
        (not_looksUpList_of_enum henum)
      exact EnumSpec.hasFate_ofSchema hp hc.owner hc.member description enum
    by_cases htype : valueAt es "type" = .text "array"
    · exact hasFate_resolve_array_iff henum htype
        fun inner hinner hne => ihItem inner hinner hne (hc.child "items")
    cases href : lookupText "$ref" es with
    | some r =>
      obtain ⟨s, rfl⟩ := ref r href
      rw [resolve_reference henum htype href]
      exact iff_of_true (hasFate_pure _) (not_looksUpList_of_reference htype href)
    | none =>
      refine hasFate_resolve_own_iff henum htype href type format allOf fun x hsingle => ?_
      have hlist := lookup_of_valueAt (AllOf.eq_of_single hsingle allOf) nofun
      exact ihPart [x] hlist x (List.mem_singleton_self x) (hc.child "allOf")

theorem Value.IsSchema.description {types : Value → Prop} {es : List (Value × Value)}
    (h : (Value.map es).IsSchema types) : OrNull IsText (valueAt es "description") := by
  cases h with
  | map _ _ description => exact description

/-! ## Types on the wire -/

section

variable {types : Value → Prop} {es : List (Value × Value)}

theorem InlineEnum.ofEntries?_of_enum (enum : valueAt es "enum" ≠ .null) :
    ofEntries? es = (valueAt es "enum").elements?.map fun values => some ⟨values, false⟩ := by
  unfold ofEntries?
  simp only [← valueAt.eq_def, isNull_of_ne enum, Bool.not_false, if_true]
  cases (valueAt es "enum").elements? <;> rfl

theorem InlineEnum.ofEntries?_of_other (enum : valueAt es "enum" = .null)
    (type : valueAt es "type" ≠ .text "array") : ofEntries? es = some none := by
  unfold ofEntries?
  simp only [← valueAt.eq_def, enum, isText_of_ne type, Value.isNull, Bool.not_true,
    Bool.false_eq_true, if_false]
  rfl

theorem InlineEnum.ofEntries?_of_array (enum : valueAt es "enum" = .null)
    (type : valueAt es "type" = .text "array") {is : List (Value × Value)}
    (items : (valueAt es "items").orElse (.map []) = .map is) :
    ofEntries? es = if (valueAt is "enum").isNull then some none
      else (valueAt is "enum").elements?.map fun values => some ⟨values, true⟩ := by
  have harray : (Value.text "array").isText "array" = true := rfl
  unfold ofEntries?
  simp only [← valueAt.eq_def, enum, type, items, part?_map, Option.bind_eq_bind, Option.bind_some,
    isNull_iff.mpr, harray, Bool.not_true, Bool.false_eq_true, if_false, if_true]
  split
  · rfl
  · cases (valueAt is "enum").elements? <;> rfl

theorem exists_inPlace (h : (Value.map es).IsSchema types) :
    ∃ found, InlineEnum.ofEntries? es = some found ∧
      ∀ e ∈ found, (∀ v ∈ e.values, v.hasLiteral = true) ∧ ¬ (Value.map es).LooksUpList := by
  cases h with
  | map type format description ref enum items item allOf part =>
    rcases ne_or_eq (valueAt es "enum") .null with henum | henum
    · obtain ⟨vs, hvs, literals⟩ := enum.exists_elements henum
      rw [InlineEnum.ofEntries?_of_enum henum, hvs]
      refine ⟨_, rfl, ?_⟩
      rintro e ⟨⟩
      exact ⟨literals, not_looksUpList_of_enum henum⟩
    rcases ne_or_eq (valueAt es "type") (.text "array") with htype | htype
    · exact ⟨none, InlineEnum.ofEntries?_of_other henum htype, nofun⟩
    obtain ⟨is, his, hinner⟩ := orElse_of_map items
    rw [InlineEnum.ofEntries?_of_array henum htype his]
    rcases eq_or_ne (valueAt is "enum") .null with hitems | hitems
    · exact ⟨none, if_pos (isNull_iff.mpr hitems), nofun⟩
    · have hne : is ≠ [] := by
        rintro rfl
        exact hitems rfl
      have hitem := lookup_of_valueAt (hinner.resolve_left hne).1 nofun
      cases item _ hitem nofun with
      | map _ _ _ _ inner =>
        obtain ⟨vs, hvs, literals⟩ := inner.exists_elements hitems
        rw [if_neg (mt isNull_iff.mp hitems), hvs]
        refine ⟨_, rfl, ?_⟩
        rintro e ⟨⟩
        refine ⟨literals, fun hlist => ?_⟩
        obtain ⟨other, hother, hlist⟩ := (looksUpList_array_iff henum htype).mp hlist
        rw [hitem] at hother
        cases hother
        exact not_looksUpList_of_enum hitems hlist

theorem hasFate_wireType_iff (hp : p.HasTexts) {v : Value} (h : v.IsSchema IsOneOrSeveral)
    (hc : c.HasTexts) : HasFate (wireType p v c) ↔ ¬ v.LooksUpList := by
  cases h with
  | @map es type format description ref enum items item allOf part =>
    have h := Value.IsSchema.map type format description ref enum items item allOf part
    obtain ⟨found, hfound, hplain⟩ := exists_inPlace h
    unfold wireType
    simp only [entries?, hfound, Compile.shaped_some, pure_bind]
    cases found with
    | some e => exact iff_of_true (hasFate_pure _) (hplain e rfl).2
    | none =>
      rw [hasFate_bind_iff, ← hasFate_resolve_iff hp h hc]
      exact and_iff_left fun _ _ => hasFate_pure _

end

/-! ## Parameters -/

namespace Parameter

variable {methodName location : String}

/-- The type of a parameter is looked up and is a list: its own, or that of its `schema` where its
own type stands for no kind. -/
def LooksUpList (p : Profile) (c : NamingContext) (es : List (Value × Value)) : Prop :=
  (Value.map es).LooksUpList ∨
    (∃ d, (wireType p (.map es) c).result = .error (.defect d) ∧
      d.cause.class = .unresolvableType) ∧ (valueAt es "schema").LooksUpList

theorem not_looksUpList {es : List (Value × Value)} (h : IsParameter (OrNull IsText) es) :
    ¬ LooksUpList p c es := by
  rintro (own | ⟨-, list⟩)
  · exact h.own.not_looksUpList own
  · rcases h.schema with hnull | hschema
    · rw [hnull] at list
      cases list
    · exact hschema.not_looksUpList list

theorem hasFate_resolveType_of_own (hp : p.HasTexts) {es : List (Value × Value)}
    (h : IsParameter IsOneOrSeveral es) (hc : c.HasTexts)
    (own : resolveType p es c = wireType p (.map es) c)
    (once : (∃ d, (wireType p (.map es) c).result = .error (.defect d) ∧
      d.cause.class = .unresolvableType) → ¬ (valueAt es "schema").LooksUpList) :
    HasFate (resolveType p es c) ↔ ¬ LooksUpList p c es := by
  rw [own, hasFate_wireType_iff hp h.own hc, LooksUpList, not_or]
  exact (and_iff_left fun hboth => once hboth.1 hboth.2).symm

theorem hasFate_resolveType_of_retry (hp : p.HasTexts) {es : List (Value × Value)}
    (h : IsParameter IsOneOrSeveral es) (hc : c.HasTexts) {d : Defect}
    (own : (wireType p (.map es) c).result = .error (.defect d))
    (unmapped : d.cause.class = .unresolvableType)
    (present : (valueAt es "schema").isPresent = true) :
    HasFate (resolveType p es c) ↔ ¬ LooksUpList p c es := by
  have hown : ¬ (Value.map es).LooksUpList := by
    rw [← hasFate_wireType_iff hp h.own hc]
    intro e he
    exact ⟨d, (Except.error.inj (own.symm.trans he)).symm⟩
  have hschema : (valueAt es "schema").IsSchema IsOneOrSeveral := by
    refine h.schema.resolve_left fun hnull => ?_
    rw [hnull] at present
    cases present
  have hstep : HasFate (resolveType p es c) ↔
      HasFate (wireType p (valueAt es "schema") (c.child "schema")) := by
    rw [valueAt] at present ⊢
    simp only [resolveType, own, unmapped, present, decide_true, Bool.and_self, if_true]
    exact hasFate_bind_of_ok rfl
  rw [hstep, hasFate_wireType_iff hp hschema (hc.child "schema"), LooksUpList, not_or]
  exact ⟨fun hlist => ⟨hown, fun hboth => hlist hboth.2⟩,
    fun hboth hlist => hboth.2 ⟨⟨d, own, unmapped⟩, hlist⟩⟩

theorem hasFate_resolveType_iff (hp : p.HasTexts) {es : List (Value × Value)}
    (h : IsParameter IsOneOrSeveral es) (hc : c.HasTexts) :
    HasFate (resolveType p es c) ↔ ¬ LooksUpList p c es := by
  cases hresult : (wireType p (.map es) c).result with
  | ok d =>
    refine hasFate_resolveType_of_own hp h hc (by simp only [resolveType, hresult]) ?_
    rintro ⟨_, hd, -⟩
    cases hresult.symm.trans hd
  | error e =>
    cases e with
    | shape | template =>
      refine hasFate_resolveType_of_own hp h hc (by simp only [resolveType, hresult]) ?_
      rintro ⟨_, hd, -⟩
      cases hresult.symm.trans hd
    | defect d =>
      by_cases hretry : d.cause.class = .unresolvableType ∧ (valueAt es "schema").isPresent = true
      · exact hasFate_resolveType_of_retry hp h hc hresult hretry.1 hretry.2
      · refine hasFate_resolveType_of_own hp h hc ?_ ?_
        · have htry : (decide (d.cause.class = .unresolvableType) &&
              (valueAt es "schema").isPresent) = false := by
            rw [Bool.eq_false_iff]
            exact fun h => hretry (by simpa using h)
          rw [valueAt] at htry
          simp only [resolveType, hresult, htry, Bool.false_eq_true, if_false]
        · rintro ⟨d', hd', hclass⟩ hlist
          rw [hresult] at hd'
          cases hd'
          exact hretry ⟨hclass, hlist.isPresent⟩

def namingOf (methodName location name : String) : NamingContext :=
  ⟨.text methodName, .text (String.ofList (Text.afterLast '.' name.toList)),
    location ++ ".parameters." ++ name⟩

/-- The parameter that some entries describe is not skipped, and looking up its type comes to a
list. -/
def NodeLooksUpList (p : Profile) (methodName location : String) (es : List (Value × Value)) :
    Prop :=
  ∃ name, lookupText "name" es = some (.text name) ∧
    (Placement.ofValue? ((lookupText "in" es).getD (.text "query"))).isSome = true ∧
    LooksUpList p (namingOf methodName location name) es

theorem exists_allowed {types : Value → Prop} {es : List (Value × Value)}
    (h : IsParameter types es) : ∃ found, InlineEnum.ofParameter? es = some found ∧
      ∀ e ∈ found, ∀ v ∈ e.values, v.hasLiteral = true := by
  obtain ⟨own, hown, literals⟩ := exists_inPlace h.own
  unfold InlineEnum.ofParameter?
  simp only [hown, Option.bind_eq_bind, Option.bind_some, ← valueAt.eq_def]
  cases own with
  | some e => exact ⟨_, rfl, fun e' he' => (literals e' he').1⟩
  | none =>
    obtain ⟨schema, hschema, hes⟩ := entriesOrNone?_of_map (h.schema.imp_right IsSchema.isMap)
    simp only [hschema, Option.bind_some]
    rcases hes with rfl | ⟨-, hes⟩
    · exact ⟨none, rfl, nofun⟩
    · obtain ⟨found, hfound, literals⟩ := exists_inPlace hes
      exact ⟨found, hfound, fun e he => (literals e he).1⟩

theorem hasFate_compileNode_iff (hp : p.HasTexts) {earlier : List Parameter}
    {es : List (Value × Value)} (h : IsParameter IsOneOrSeveral es) :
    HasFate (compileNode p methodName location earlier es) ↔
      ¬ NodeLooksUpList p methodName location es := by
  obtain ⟨name, hname⟩ := h.name
  obtain ⟨allowed, hallowed, -⟩ := exists_allowed h
  have hnaming : (namingOf methodName location name).HasTexts := ⟨⟨_, rfl⟩, ⟨_, rfl⟩⟩
  have hlist : NodeLooksUpList p methodName location es ↔
      (Placement.ofValue? ((lookupText "in" es).getD (.text "query"))).isSome = true ∧
        LooksUpList p (namingOf methodName location name) es := by
    simp only [NodeLooksUpList, hname, Option.some.injEq, Value.text.injEq, exists_eq_left']
  rw [hlist]
  unfold compileNode
  simp only [hname, Compile.shaped_some, pure_bind]
  cases Placement.ofValue? ((lookupText "in" es).getD (.text "query")) with
  | none =>
    refine iff_of_true (hasFate_bind_iff.mpr ⟨hasFate_of_ok rfl, fun _ _ => hasFate_pure _⟩) ?_
    rintro ⟨some, -⟩
    cases some
  | some placement =>
    simp only [text?, Compile.shaped_some, pure_bind, hallowed, Option.isSome_some, true_and]
    rw [← hasFate_resolveType_iff hp h hnaming, hasFate_bind_iff]
    refine and_iff_left fun type _ => ?_
    split
    · exact hasFate_defect _ _
    · obtain ⟨s, hs⟩ := exists_comment hp h.own.description
      rw [valueAt] at hs
      exact (hasFate_bind_of_ok hs).mpr (hasFate_pure _)

/-- The entries of the parameter that an entry of a list stands for. -/
def entriesFor? (shared es : List (Value × Value)) : Option (List (Value × Value)) :=
  match lookupText "$ref" es with
  | none => some es
  | some ref => ref.text?.bind fun s => (lookupText (refName s) shared).bind entries?

def EntryLooksUpList (p : Profile) (shared : List (Value × Value)) (methodName location : String)
    (entry : Value) : Prop :=
  ∃ es target, entry = .map es ∧ entriesFor? shared es = some target ∧
    NodeLooksUpList p methodName location target

theorem compile_cases (p : Profile) (methodName location : String) {types : Value → Prop}
    {shared es : List (Value × Value)}
    (hshared : ∀ e ∈ shared, OrNull (IsMapOf (IsParameter types)) e.2)
    (h : IsParameterEntry types es) (earlier : List Parameter) :
    (∃ target, entriesFor? shared es = some target ∧ IsParameter types target ∧
      compile p (.map shared) methodName location earlier (.map es) =
        compileNode p methodName location earlier target) ∨
      entriesFor? shared es = none ∧ ∃ cause,
        compile p (.map shared) methodName location earlier (.map es) = .defect cause location := by
  have hentries : (Value.map shared).entriesOrNone? = some shared := by cases shared <;> rfl
  unfold compile entriesFor?
  unfold IsParameterEntry at h
  simp only [entries?, Compile.shaped_some, pure_bind]
  cases href : lookupText "$ref" es with
  | none =>
    rw [href] at h
    exact .inl ⟨es, rfl, h, rfl⟩
  | some ref =>
    rw [href] at h
    obtain ⟨s, rfl⟩ := h
    simp only [hentries, Compile.shaped_some, pure_bind, follow, text?, Option.bind_some]
    cases htarget : lookupText (refName s) shared with
    | none => exact .inr ⟨rfl, _, rfl⟩
    | some v =>
      rcases hshared _ (mem_of_lookupText htarget) with hnull | ⟨target, hv, hkind⟩
      · cases hnull
        exact .inr ⟨rfl, _, rfl⟩
      · cases hv
        exact .inl ⟨target, rfl, hkind, rfl⟩

theorem not_entryLooksUpList {shared : List (Value × Value)}
    (hshared : ∀ e ∈ shared, OrNull (IsMapOf (IsParameter (OrNull IsText))) e.2) {entry : Value}
    (h : IsMapOf (IsParameterEntry (OrNull IsText)) entry) :
    ¬ EntryLooksUpList p shared methodName location entry := by
  rintro ⟨es, target, rfl, htarget, name, -, -, list⟩
  obtain ⟨_, ⟨⟩, hes⟩ := h
  rcases compile_cases p methodName location hshared hes [] with ⟨_, heq, hkind, -⟩ | ⟨hnone, -⟩
  · cases htarget.symm.trans heq
    exact not_looksUpList hkind list
  · cases htarget.symm.trans hnone

theorem hasFate_compile_iff (hp : p.HasTexts) {shared : List (Value × Value)}
    (hshared : ∀ e ∈ shared, OrNull (IsMapOf (IsParameter IsOneOrSeveral)) e.2)
    (earlier : List Parameter) {es : List (Value × Value)}
    (h : IsParameterEntry IsOneOrSeveral es) :
    HasFate (compile p (.map shared) methodName location earlier (.map es)) ↔
      ¬ EntryLooksUpList p shared methodName location (.map es) := by
  have hlist : EntryLooksUpList p shared methodName location (.map es) ↔
      ∃ target, entriesFor? shared es = some target ∧
        NodeLooksUpList p methodName location target := by
    simp only [EntryLooksUpList, Value.map.injEq, exists_and_left, exists_eq_left']
  rw [hlist]
  rcases compile_cases p methodName location hshared h earlier with
    ⟨target, htarget, hkind, heq⟩ | ⟨hnone, cause, heq⟩
  · rw [heq, hasFate_compileNode_iff hp hkind, htarget]
    simp only [Option.some.injEq, exists_eq_left']
  · rw [heq, hnone]
    exact iff_of_true (hasFate_defect _ _) (by simp)

def addEntry (p : Profile) (shared : Value) (methodName location : String) (earlier : List Parameter)
    (entry : Value) : Compile (List Parameter) := do
  let found ← compile p shared methodName location earlier entry
  pure (earlier ++ found.toList)

theorem compileAll_eq_foldlM (shared : Value) (earlier : List Parameter) (entries : List Value) :
    compileAll p shared methodName location earlier entries =
      entries.foldlM (addEntry p shared methodName location) earlier := by
  induction entries generalizing earlier with
  | nil => rfl
  | cons entry rest ih =>
    simp only [compileAll, List.foldlM_cons, addEntry, bind_assoc, pure_bind, ih]

theorem hasFate_compileAll_iff (hp : p.HasTexts) {shared : List (Value × Value)}
    (hshared : ∀ e ∈ shared, OrNull (IsMapOf (IsParameter IsOneOrSeveral)) e.2)
    {entries : List Value}
    (h : ∀ entry ∈ entries, IsMapOf (IsParameterEntry IsOneOrSeveral) entry)
    (earlier : List Parameter) :
    HasFate (compileAll p (.map shared) methodName location earlier entries) ↔
      ¬ ∃ entry, Reaches (addEntry p (.map shared) methodName location) earlier entries entry ∧
        EntryLooksUpList p shared methodName location entry := by
  rw [compileAll_eq_foldlM]
  refine hasFate_foldlM_iff (fun entry hentry before => ?_) earlier
  obtain ⟨es, rfl, hes⟩ := h entry hentry
  rw [← hasFate_compile_iff hp hshared before hes, addEntry, hasFate_bind_iff]
  exact and_iff_left fun _ _ => hasFate_pure _

end Parameter

/-! ## Definitions -/

namespace Model

def addField (p : Profile) (owner : Value) (required : List Value) (earlier : List Field)
    (property : Value × Value) : Compile (List Field) := do
  let f ← compileField p owner required earlier property.1 property.2
  pure (earlier ++ [f])

theorem compileFields_eq_foldlM (owner : Value) (required : List Value) (earlier : List Field)
    (properties : List (Value × Value)) :
    compileFields p owner required earlier properties =
      properties.foldlM (addField p owner required) earlier := by
  induction properties generalizing earlier with
  | nil => rfl
  | cons property rest ih =>
    simp only [compileFields, List.foldlM_cons, addField, bind_assoc, pure_bind, ih]

theorem hasFate_compileField_iff (hp : p.HasTexts) {owner : Value} (howner : owner.IsText)
    (required : List Value) (earlier : List Field) {property schema : Value}
    (hproperty : property.IsText) (h : schema.IsSchema IsOneOrSeveral) :
    HasFate (compileField p owner required earlier property schema) ↔ ¬ schema.LooksUpList := by
  obtain ⟨key, rfl⟩ := hproperty
  obtain ⟨es, rfl, -⟩ := h.isMap
  obtain ⟨s, hs⟩ := exists_comment hp h.description
  unfold compileField
  rw [hasFate_bind_iff, hasFate_resolve_iff hp h ⟨howner, ⟨_, rfl⟩⟩]
  refine and_iff_left fun type _ => ?_
  simp only [text?, Compile.shaped_some, pure_bind, part?_map]
  split
  · exact hasFate_defect _ _
  · exact (hasFate_bind_of_ok hs).mpr (hasFate_pure _)

def propertiesOf (es : List (Value × Value)) : List (Value × Value) :=
  ((valueAt es "properties").entriesOrNone?).getD []

def requiredOf (es : List (Value × Value)) : List Value :=
  ((valueAt es "required").elementsOrNone?).getD []

/-- A property of a definition is reached and looks up a list. -/
def LooksUpList (p : Profile) (name : Value) (es : List (Value × Value)) : Prop :=
  ∃ property, Reaches (addField p name (requiredOf es)) [] (propertiesOf es) property ∧
    property.2.LooksUpList

theorem not_looksUpList {name : Value} {es : List (Value × Value)}
    (h : IsDefinition (OrNull IsText) es) : ¬ LooksUpList p name es := by
  rintro ⟨property, reached, list⟩
  obtain ⟨properties, hproperties, hkinds⟩ := exists_entries h.properties nofun
  rw [propertiesOf, hproperties] at reached
  exact (hkinds property reached.mem).2.not_looksUpList list

theorem hasFate_compile_iff (hp : p.HasTexts) {name : Value} (hname : name.IsText)
    {es : List (Value × Value)} (h : IsDefinition IsOneOrSeveral es) :
    HasFate (compile p name (.map es)) ↔ ¬ LooksUpList p name es := by
  obtain ⟨required, hrequired, hhashable⟩ :=
    elementsOrNone?_of_list (h.required.imp_right isListOf_texts)
  obtain ⟨properties, hproperties, hkinds⟩ := exists_entries h.properties nofun
  obtain ⟨s, hs⟩ := exists_comment hp h.description
  have hall : required.all Value.isHashable = true := by
    rw [List.all_eq_true]
    intro v hv
    obtain ⟨t, rfl⟩ := hhashable v hv
    rfl
  unfold compile LooksUpList propertiesOf requiredOf
  simp only [part?_map, hrequired, hproperties, hall, Compile.shaped_some, pure_bind, Bool.not_true,
    Bool.false_eq_true, if_false, Option.getD_some]
  have hrow : HasFate (compileFields p name required [] properties) ↔
      ¬ ∃ property, Reaches (addField p name required) [] properties property ∧
        property.2.LooksUpList := by
    rw [compileFields_eq_foldlM]
    refine hasFate_foldlM_iff (fun e he before => ?_) []
    obtain ⟨hproperty, hschema⟩ := hkinds e he
    rw [← hasFate_compileField_iff hp hname required before hproperty hschema, addField,
      hasFate_bind_iff]
    exact and_iff_left fun _ _ => hasFate_pure _
  rw [← hrow, hasFate_bind_iff]
  exact and_iff_left fun fields _ => (hasFate_bind_of_ok hs).mpr (hasFate_pure _)

end Model

end ApiSmith
