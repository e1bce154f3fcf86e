import ApiSmith.Proofs.ListTypes
import ApiSmith.Proofs.Places
import Mathlib.Logic.Function.Iterate

/-!
# Array levels around a schema

The type on the wire of an array is that of its items in an array, with one exception. An enum is
carried by its literals where it stands in the schema itself or right under `items`; one level
deeper it is made into an enum and carried as an integer. The two come to the same only for an enum
of integers that can be made (`IsIntegerEnum`). `wireType_arrayOf_iff` says that this is the only
exception, and for which schemas the type does not depend on the number of levels.
-/

namespace ApiSmith

open Value Compile

def arrayEntries (items : Value) : List (Value × Value) :=
  [(.text "type", .text "array"), (.text "items", items)]

def arrayOf (items : Value) : Value := .map (arrayEntries items)

/-- A schema without an enum is an array whose items have one. -/
structure ItemsDeclare (es ys : List (Value × Value)) : Prop where
  own : valueAt es "enum" = .null
  type : valueAt es "type" = .text "array"
  items : lookupText "items" es = some (.map ys)
  enum : valueAt ys "enum" ≠ .null

def Declares (es ys : List (Value × Value)) : Prop :=
  es = ys ∧ valueAt ys "enum" ≠ .null ∨ ItemsDeclare es ys

/-- The enum of a schema is carried as an integer both by its literals and as an enum that is
made. -/
structure IsIntegerEnum (p : Profile) (c : NamingContext) (es : List (Value × Value)) : Prop where
  integers : ∀ vs, (valueAt es "enum").elements? = some vs → ∀ v ∈ vs, v.int?.isSome = true
  made : ∃ spec, (EnumSpec.ofSchema p es c).result = .ok spec

variable {p : Profile} {c : NamingContext} {es ys : List (Value × Value)} {vs : List Value}
  {t : Descriptor}

/-! ## Literals in place -/

theorem InlineEnum.kind_eq_int_iff {e : InlineEnum} :
    e.kind = .int ↔ ∀ v ∈ e.values, v.int?.isSome = true := by
  unfold InlineEnum.kind
  rw [← List.all_eq_true]
  split
  · next hall => exact iff_of_true rfl hall
  · next hnot => exact iff_of_false nofun hnot

theorem InlineEnum.exists_items (own : valueAt es "enum" = .null)
    (type : valueAt es "type" = .text "array") {found : Option InlineEnum}
    (h : ofEntries? es = some found) :
    ∃ is, (valueAt es "items").orElse (.map []) = .map is := by
  have harray : (Value.text "array").isText "array" = true := rfl
  unfold ofEntries? at h
  simp only [← valueAt.eq_def, own, type, isNull_iff.mpr, harray, Bool.not_true,
    Bool.false_eq_true, if_false, if_true] at h
  obtain ⟨items, hitems, -⟩ := Option.bind_eq_some_iff.mp h
  cases hv : (valueAt es "items").orElse (.map []) with
  | map is => exact ⟨is, rfl⟩
  | _ =>
    rw [hv] at hitems
    cases hitems

theorem orElse_eq_map_iff {v : Value} (ne : es ≠ []) :
    v.orElse (.map []) = .map es ↔ v = .map es := by
  unfold Value.orElse
  split
  · exact Iff.rfl
  · next habsent =>
    refine iff_of_false (fun h => ne ?_) ?_
    · cases h
      rfl
    · rintro rfl
      cases es with
      | nil => exact ne rfl
      | cons _ _ => exact habsent rfl

theorem ne_nil_of_enum (h : valueAt es "enum" ≠ .null) : es ≠ [] := by
  rintro rfl
  exact h rfl

theorem InlineEnum.declared_cases {found : Option InlineEnum}
    (h : ofEntries? es = some found) :
    (valueAt es "enum" ≠ .null ∧ ∃ vs, (valueAt es "enum").elements? = some vs ∧
      found = some ⟨vs, false⟩) ∨
    (∃ ys vs, ItemsDeclare es ys ∧ (valueAt ys "enum").elements? = some vs ∧
      found = some ⟨vs, true⟩) ∨
    valueAt es "enum" = .null ∧ (∀ ys, ¬ ItemsDeclare es ys) ∧ found = none := by
  rcases ne_or_eq (valueAt es "enum") .null with henum | henum
  · rw [ofEntries?_of_enum henum] at h
    obtain ⟨vs, hvs, rfl⟩ := Option.map_eq_some_iff.mp h
    exact .inl ⟨henum, vs, hvs, rfl⟩
  by_cases htype : valueAt es "type" = .text "array"
  · obtain ⟨is, his⟩ := exists_items henum htype h
    rw [ofEntries?_of_array henum htype his] at h
    split at h
    · next hnull =>
      refine .inr (.inr ⟨henum, fun ys hys => ?_, (Option.some.inj h).symm⟩)
      have hitems : valueAt es "items" = .map ys := by
        rw [valueAt, hys.items]
        rfl
      rw [(orElse_eq_map_iff (ne_nil_of_enum hys.enum)).mpr hitems] at his
      cases his
      exact hys.enum (isNull_iff.mp hnull)
    · next hnull =>
      obtain ⟨vs, hvs, rfl⟩ := Option.map_eq_some_iff.mp h
      have hinner : valueAt is "enum" ≠ .null := mt isNull_iff.mpr hnull
      have hitems := (orElse_eq_map_iff (ne_nil_of_enum hinner)).mp his
      have hlookup := lookup_of_valueAt hitems (by simp)
      exact .inr (.inl ⟨is, vs, ⟨henum, htype, hlookup, hinner⟩, hvs, rfl⟩)
  · rw [ofEntries?_of_other henum htype] at h
    exact .inr (.inr ⟨henum, fun ys hys => htype hys.type, (Option.some.inj h).symm⟩)

/-- Every type on the wire is that of literals, those of the schema or of its items, or else it is
resolved. -/
theorem wireType_cases (h : (wireType p (.map es) c).result = .ok t) :
    (valueAt es "enum" ≠ .null ∧ ∃ vs, (valueAt es "enum").elements? = some vs ∧
      t = .primitive (InlineEnum.kind ⟨vs, false⟩)) ∨
    (∃ ys vs, ItemsDeclare es ys ∧ (valueAt ys "enum").elements? = some vs ∧
      t = .array (.primitive (InlineEnum.kind ⟨vs, true⟩))) ∨
    valueAt es "enum" = .null ∧ (∀ ys, ¬ ItemsDeclare es ys) ∧
      ∃ d, (resolve p (.map es) c).result = .ok d ∧ t = d.withoutEnums := by
  obtain ⟨_, hes, h⟩ := Logged.result_bind_eq_ok.mp h
  cases hes
  obtain ⟨found, hfound, h⟩ := Logged.result_bind_eq_ok.mp h
  rw [Compile.result_shaped_eq_ok] at hfound
  rcases InlineEnum.declared_cases hfound with ⟨henum, vs, hvs, rfl⟩ | ⟨ys, vs, hys, hvs, rfl⟩ |
    ⟨henum, hnone, rfl⟩
  · exact .inl ⟨henum, vs, hvs, (Except.ok.inj h).symm⟩
  · exact .inr (.inl ⟨ys, vs, hys, hvs, (Except.ok.inj h).symm⟩)
  · obtain ⟨d, hd, h⟩ := Logged.result_bind_eq_ok.mp h
    exact .inr (.inr ⟨henum, hnone, d, hd, (Except.ok.inj h).symm⟩)

/-! ## One level more -/

theorem ofEntries?_arrayEntries : InlineEnum.ofEntries? (arrayEntries (.map es)) =
    if (valueAt es "enum").isNull then some none
    else (valueAt es "enum").elements?.map fun vs => some ⟨vs, true⟩ :=
  InlineEnum.ofEntries?_of_array rfl rfl (by cases es <;> rfl)

theorem resolve_arrayOf (ne : es ≠ []) : resolve p (arrayOf (.map es)) c =
    resolve p (.map es) (c.child "items") >>= fun d => pure (.array d) := by
  refine resolve_items rfl rfl rfl ?_
  cases es with
  | nil => exact absurd rfl ne
  | cons _ _ => rfl

theorem outcome_wireType_arrayOf (ne : es ≠ []) (own : valueAt es "enum" = .null) :
    (wireType p (arrayOf (.map es)) c).outcome =
      (resolve p (.map es) c).outcome.map fun d => .array d.withoutEnums := by
  have hplace := outcome_resolve (p := p) (c.sameNames_child "items") (.map es)
  unfold wireType
  simp only [arrayOf, Value.entries?, Compile.shaped_some, pure_bind, ofEntries?_arrayEntries, own,
    Value.isNull, if_true]
  rw [← arrayOf, resolve_arrayOf ne, outcome_bind, outcome_bind, hplace]
  cases (resolve p (.map es) c).outcome <;> rfl

theorem Declares.ne_nil (h : Declares es ys) : es ≠ [] := by
  rcases h with ⟨rfl, henum⟩ | hitems
  · exact ne_nil_of_enum henum
  · rintro rfl
    cases hitems.items

theorem outcome_wireType_of_itemsDeclare (h : ItemsDeclare es ys) :
    (wireType p (arrayOf (.map es)) c).outcome =
      (EnumSpec.ofSchema p ys c).outcome.map fun _ => .array (.array (.primitive .int)) := by
  have hpresent : (Value.map ys).isPresent = true := by
    cases ys with
    | nil => exact absurd rfl (ne_nil_of_enum h.enum)
    | cons _ _ => rfl
  have hplace := outcome_ofSchema (p := p) (c.sameNames_child "items") ys
  have hne : es ≠ [] := Declares.ne_nil (.inr h)
  rw [outcome_wireType_arrayOf hne h.own, resolve_items h.own h.type h.items hpresent,
    resolve_enum h.enum, outcome_bind, outcome_bind, hplace]
  cases (EnumSpec.ofSchema p ys c).outcome <;> rfl

/-- One level more around a schema wraps its type, unless its items declare an enum that is no
integer enum. -/
theorem wireType_arrayOf_iff (h : (wireType p (.map es) c).result = .ok t) :
    (wireType p (arrayOf (.map es)) c).result = .ok (.array t) ↔
      ∀ ys, ItemsDeclare es ys → IsIntegerEnum p c ys := by
  rcases wireType_cases h with ⟨henum, vs, hvs, rfl⟩ | ⟨ys, vs, hitems, hvs, rfl⟩ |
    ⟨hown, hnone, d, hd, rfl⟩
  · -- the schema has literals of its own
    refine iff_of_true ?_ fun ys hys => absurd hys.own henum
    unfold wireType
    simp only [arrayOf, Value.entries?, Compile.shaped_some, pure_bind, ofEntries?_arrayEntries,
      mt isNull_iff.mp henum, hvs]
    rfl
  · -- its items have, and one level more makes an enum of them
    have heq : (∀ ys, ItemsDeclare es ys → IsIntegerEnum p c ys) ↔ IsIntegerEnum p c ys := by
      refine ⟨fun hall => hall ys hitems, fun hinteger zs hzs => ?_⟩
      cases hitems.items.symm.trans hzs.items
      exact hinteger
    rw [heq, ← outcome_eq_ok, outcome_wireType_of_itemsDeclare hitems]
    cases hschema : (EnumSpec.ofSchema p ys c).result with
    | error e =>
      rw [outcome_of_error hschema]
      constructor
      · intro hok
        cases hok
      · rintro ⟨-, spec, hspec⟩
        cases hschema.symm.trans hspec
    | ok spec =>
      rw [outcome_eq_ok.mpr hschema]
      have hkind : (Except.ok (Descriptor.array (.array (.primitive .int))) : Except Halt _) =
          .ok (.array (.array (.primitive (InlineEnum.kind ⟨vs, true⟩)))) ↔
            InlineEnum.kind ⟨vs, true⟩ = .int := by
        simp [eq_comm]
      refine (hkind.trans InlineEnum.kind_eq_int_iff).trans ⟨fun hall => ⟨?_, spec, hschema⟩,
        fun hinteger => hinteger.integers vs hvs⟩
      intro ws hws
      cases hvs.symm.trans hws
      exact hall
  · refine iff_of_true ?_ fun ys hys => absurd hys (hnone ys)
    have hne : es ≠ [] := by
      rintro rfl
      rw [resolve_map] at hd
      cases hd
    rw [← outcome_eq_ok, outcome_wireType_arrayOf hne hown, outcome_eq_ok.mpr hd]
    rfl

/-! ## Any number of levels -/

theorem exists_level (es : List (Value × Value)) (n : Nat) :
    ∃ ls, arrayOf^[n] (.map es) = .map ls ∧ ∀ ys, ItemsDeclare ls ys → Declares es ys := by
  cases n with
  | zero => exact ⟨es, rfl, fun ys => .inr⟩
  | succ n =>
    refine ⟨_, Function.iterate_succ_apply' arrayOf n (.map es), fun ys hys => ?_⟩
    have hitems : arrayOf^[n] (.map es) = .map ys := Option.some.inj hys.items
    cases n with
    | zero => exact .inl ⟨Value.map.inj hitems, hys.enum⟩
    | succ n =>
      rw [Function.iterate_succ_apply'] at hitems
      cases hitems
      exact absurd rfl hys.enum

theorem wireType_levels_iff (h : (wireType p (.map es) c).result = .ok t) :
    (∀ n, (wireType p (arrayOf^[n] (.map es)) c).result = .ok (Descriptor.array^[n] t)) ↔
      ∀ ys, Declares es ys → IsIntegerEnum p c ys := by
  constructor
  · rintro hall ys (⟨rfl, henum⟩ | hitems)
    · exact (wireType_arrayOf_iff (hall 1)).mp (hall 2) es ⟨rfl, rfl, rfl, henum⟩
    · exact (wireType_arrayOf_iff h).mp (hall 1) ys hitems
  · intro hinteger n
    induction n with
    | zero => exact h
    | succ n ih =>
      obtain ⟨ls, hls, hdeclares⟩ := exists_level es n
      rw [Function.iterate_succ_apply', Function.iterate_succ_apply']
      rw [hls] at ih ⊢
      exact (wireType_arrayOf_iff ih).mpr fun ys hys => hinteger ys (hdeclares ys hys)

/-- The type on the wire of an array is that of its items in an array, unless the items are
themselves an array of an enum that is no integer enum. The type of a schema does not depend on the
array levels around it exactly if no such enum is declared by it or by its items. -/
theorem wire_types_wrap_iff (h : (wireType p (.map es) c).result = .ok t) :
    ((wireType p (arrayOf (.map es)) c).result = .ok (.array t) ↔
      ∀ ys, ItemsDeclare es ys → IsIntegerEnum p c ys) ∧
    ((∀ n, (wireType p (arrayOf^[n] (.map es)) c).result = .ok (Descriptor.array^[n] t)) ↔
      ∀ ys, Declares es ys → IsIntegerEnum p c ys) :=
  ⟨wireType_arrayOf_iff h, wireType_levels_iff h⟩

def enumOf (literals : List Value) : List (Value × Value) := [(.text "enum", .list literals)]

/-- Two letters are carried as a text under one level, and under two levels they are no enum. Two
numbers are carried as an integer under all levels. -/
theorem wire_types_wrap_iff_of_letters :
    (wireType .common (arrayOf (.map (enumOf [.text "a", .text "b"])))
        ⟨.text "User", .text "field", "here"⟩).result = .ok (.array (.primitive .string)) ∧
    (wireType .common (arrayOf (arrayOf (.map (enumOf [.text "a", .text "b"]))))
        ⟨.text "User", .text "field", "here"⟩).result ≠ .ok (.array (.array (.primitive .string))) ∧
    ∀ n, (wireType .common (arrayOf^[n] (.map (enumOf [.int 1, .int 2])))
        ⟨.text "User", .text "field", "here"⟩).result =
      .ok (Descriptor.array^[n] (.primitive .int)) := by
  refine ⟨rfl, fun hsame => ?_, ?_⟩
  · have hone : (wireType .common (.map (arrayEntries (.map (enumOf [.text "a", .text "b"]))))
        ⟨.text "User", .text "field", "here"⟩).result = .ok (.array (.primitive .string)) := rfl
    have hletters := (wire_types_wrap_iff hone).1.mp hsame _ ⟨rfl, rfl, rfl, nofun⟩
    exact absurd (hletters.integers _ rfl (.text "a") List.mem_cons_self) (by decide)
  · refine (wire_types_wrap_iff rfl).2.mpr ?_
    rintro ys (⟨rfl, -⟩ | hitems)
    · refine ⟨fun vs hvs => ?_, ⟨_, rfl⟩⟩
      cases hvs
      decide
    · cases hitems.items

end ApiSmith
