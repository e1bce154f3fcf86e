import ApiSmith.Client.Outcome
import ApiSmith.Proofs.Decoding

/-!
# Answers have outcomes

Reading data as a type that generated code names ends with a value or with a mismatch
(`isTame_decode`): a number that is too large is met only where doubles are read, and an unknown name
only where the table lacks it. So every answer to a request with such a type has an outcome
(`exists_outcome`).
-/

namespace ApiSmith

/-- The scalar types that generated code names. A double is none of them. -/
def DataType.isScalar : DataType → Bool
  | .int | .text | .bool | .decimal | .moment | .bytes => true
  | _ => false

/-- The types that generated code names: scalars and dynamic objects, the enums and models of the
table, and lists and options of these. -/
inductive DataType.Generated (table : TypeTable) : DataType → Prop where
  | scalar {t : DataType} (scalar : t.isScalar = true) : Generated table t
  | object : Generated table .object
  | list {item : DataType} (generated : Generated table item) : Generated table (.list item)
  | union {form : UnionForm} {members : List DataType}
    (generated : ∀ u ∈ members, u.isNull = false → Generated table u) :
    Generated table (.union form members)
  | named {name : String} (declared : (table.find? name).isSome = true) :
    Generated table (.named name)

/-- Every field of a model of the table has a type that generated code names. -/
def TypeTable.IsGenerated (table : TypeTable) : Prop :=
  ∀ name fields, table.find? name = some (.model fields) → ∀ f ∈ fields, f.type.Generated table

namespace Decode

variable {α β : Type}

def IsTame (x : Decode α) : Prop := ∀ f, x.result = .error f → ∃ m, f = .mismatch m

theorem isTame_pure (a : α) : IsTame (pure a : Decode α) := nofun

theorem isTame_mismatch (m : Mismatch) : IsTame (mismatch m : Decode α) := by
  intro f h
  cases h
  exact ⟨m, rfl⟩

theorem IsTame.bind {x : Decode α} {k : α → Decode β} (hx : IsTame x)
    (hk : ∀ a, x.result = .ok a → IsTame (k a)) : IsTame (x >>= k) := by
  intro f h
  rw [Logged.result_bind] at h
  cases hr : x.result with
  | error e =>
    rw [hr] at h
    cases h
    exact hx f hr
  | ok a =>
    rw [hr] at h
    exact hk a hr f h

theorem IsTame.under {x : Decode α} (hx : IsTame x) (model key : String) :
    IsTame (Decode.under model key x) := by
  intro f h
  simp only [Decode.under] at h
  cases hr : x.result with
  | error e =>
    obtain ⟨m, rfl⟩ := hx e hr
    rw [hr] at h
    cases h
    exact ⟨_, rfl⟩
  | ok a =>
    rw [hr] at h
    cases h

theorem isTame_fallback (model : String) (f : FieldType) : IsTame (fallback model f) := by
  unfold fallback
  split
  · exact isTame_pure _
  · exact isTame_mismatch _

theorem isTame_dynamic (v : Value) : IsTame (dynamic v) := by
  intro f h
  simp only [dynamic] at h
  cases hr : (DynamicObject.ofPayload v).result with
  | error e =>
    rw [hr] at h
    cases h
    exact ⟨_, rfl⟩
  | ok fields =>
    rw [hr] at h
    cases h

theorem isTame_member (name : String) (integral : Bool) (members : List (String × Value))
    (v : Value) : IsTame (member name integral members v) := by
  unfold member
  split
  · exact isTame_pure _
  · exact isTame_mismatch _

theorem isTame_scalar (table : TypeTable) {t : DataType} (ht : t ≠ .float) (v : Value) :
    IsTame (scalar table t v) := by
  unfold scalar
  split
  · exact absurd rfl ht
  · unfold moment
    split
    · exact isTame_pure _
    · exact isTame_mismatch _
  any_goals
    split
    · exact isTame_pure _
    · exact isTame_mismatch _
  exact isTame_mismatch _

end Decode

open Decode

variable {table : TypeTable}

theorem isTame_decodeAll {t : DataType} {ds : List Value}
    (h : ∀ d ∈ ds, IsTame (decode table t d)) : IsTame (decodeAll table t ds) := by
  induction ds with
  | nil =>
    rw [decodeAll]
    exact isTame_pure _
  | cons d rest ih =>
    rw [decodeAll]
    refine (h d List.mem_cons_self).bind fun _ _ => ?_
    exact (ih fun d' hd' => h d' (List.mem_cons_of_mem _ hd')).bind fun _ _ => isTame_pure _

theorem isTame_decodeFields {model : String} {entries : List (Value × Value)}
    {fields : List FieldType} (h : ∀ f ∈ fields, ∀ raw, presentIn? entries f.key = some raw →
      IsTame (decode table f.type raw)) : IsTame (decodeFields table model entries fields) := by
  induction fields with
  | nil =>
    rw [decodeFields]
    exact isTame_pure _
  | cons f rest ih =>
    rw [decodeFields_cons]
    refine IsTame.bind ?_ fun _ _ => ?_
    · unfold decodeField
      split
      · next raw hraw => exact (h f List.mem_cons_self raw hraw).under _ _
      · exact isTame_fallback _ _
    · exact (ih fun f' hf' => h f' (List.mem_cons_of_mem _ hf')).bind fun _ _ => isTame_pure _

/-- One round of the induction: the types are taken apart, and reading the parts of the data is tame
already. -/
theorem isTame_of_parts (htable : table.IsGenerated) {d : Value}
    (parts : ∀ d', sizeOf d' < sizeOf d → ∀ t, t.Generated table → IsTame (decode table t d'))
    {t : DataType} (ht : t.Generated table) : IsTame (decode table t d) := by
  induction ht with
  | @scalar t scalar =>
    cases t with
    | int | text | bool | decimal | moment | bytes =>
      rw [decode]
      split
      · exact isTame_mismatch _
      · exact isTame_scalar table (by simp) d
      all_goals simp
    | _ => cases scalar
  | object =>
    rw [decode]
    split
    · exact isTame_mismatch _
    · exact isTame_dynamic d
  | list hitem =>
    cases d with
    | list items =>
      rw [decode]
      exact (isTame_decodeAll fun d' hd' => parts d' (sizeOf_lt_list hd') _ hitem).bind
        fun _ _ => isTame_pure _
    | _ =>
      unfold decode
      exact isTame_mismatch _
  | @union form members hmembers ih =>
    rw [decode]
    split
    · exact isTame_pure _
    · split
      · next u hu =>
        have hmem : u ∈ members.filter fun t => !t.isNull := hu ▸ List.mem_singleton_self u
        obtain ⟨hmem, hnull⟩ := List.mem_filter.mp hmem
        exact ih u hmem (by simpa using hnull)
      · exact isTame_mismatch _
  | @named name declared =>
    rw [decode]
    split
    · exact isTame_mismatch _
    · cases hfind : table.find? name with
      | none =>
        rw [hfind] at declared
        cases declared
      | some decl =>
        cases decl with
        | enum integral members => exact isTame_member _ _ _ _
        | model fields =>
          cases d with
          | map entries =>
            refine (isTame_decodeFields fun f hf raw hraw => ?_).bind fun _ _ => isTame_pure _
            -- the table may be circular, but what stands under a key is smaller data
            obtain ⟨hfound, -⟩ := presentIn?_eq_some.mp hraw
            exact parts raw (sizeOf_lt_map hfound) _ (htable name fields hfind f hf)
          | _ => exact isTame_mismatch _

/-- Reading a type that generated code names ends with a value or a mismatch. The types of a table
may refer to each other in circles, so the induction is on the data. -/
theorem isTame_decode (htable : table.IsGenerated) (d : Value) {t : DataType}
    (ht : t.Generated table) : IsTame (decode table t d) :=
  isTame_of_parts htable (fun d' _ _ ht' => isTame_decode htable d' ht') ht
termination_by sizeOf d

theorem error_of_jsonBody {body : List UInt8} {f : AnswerFault} (h : jsonBody body = .error f) :
    f = .notJson := by
  unfold jsonBody at h
  split at h
  · cases h
  · exact (Except.error.inj h).symm

theorem mismatch_of_readAnswer (htable : table.IsGenerated) {t : DataType}
    (ht : t.Generated table) {body : List UInt8} {f : DecodeFault}
    (h : (readAnswer table t body).result = .error (.decode f)) : ∃ m, f = .mismatch m := by
  unfold readAnswer at h
  split at h
  · cases h
  · split at h
    · cases h
    · unfold textBody unquoted at h
      split at h
      · split at h <;> cases h
      · cases h
    · rw [Logged.result_bind] at h
      cases hbody : jsonBody body with
      | error e =>
        rw [hbody, error_of_jsonBody hbody] at h
        cases h
      | ok v =>
        simp only [hbody, Logged.result_ofExcept, Except.bind] at h
        cases hr : (decode table t v).result with
        | error e =>
          rw [hr] at h
          cases h
          exact isTame_decode htable v ht _ hr
        | ok w =>
          rw [hr] at h
          cases h

theorem exists_bodyOutcome (htable : table.IsGenerated) {t : DataType} (ht : t.Generated table)
    (body : List UInt8) : ∃ o, (bodyOutcome table t body).result = .ok o := by
  cases hr : (readAnswer table t body).result with
  | ok v => exact ⟨.success v, by simp only [bodyOutcome, hr]⟩
  | error f =>
    cases f with
    | decode f =>
      obtain ⟨m, rfl⟩ := mismatch_of_readAnswer htable ht hr
      exact ⟨.failure (.body (.decode (.mismatch m))), by simp only [bodyOutcome, hr]⟩
    | _ => exact ⟨.failure (.body _), by simp only [bodyOutcome, hr]; rfl⟩

theorem Response.exists_outcome (htable : table.IsGenerated) {t : DataType}
    (ht : t.Generated table) (r : Response) : ∃ o, (r.outcome table t).result = .ok o := by
  unfold Response.outcome
  split
  · exact ⟨_, rfl⟩
  · split
    · exact ⟨_, rfl⟩
    · exact exists_bodyOutcome htable ht r.body

end ApiSmith
