import ApiSmith.Payload.Decoding
import ApiSmith.Payload.Encoding
import ApiSmith.Proofs.Logged

/-!
# What reading and writing do

One law for each kind of type says when a value is read as the type, and one for each kind of
container says when it is written. Proofs about reading and writing use these laws and do not open
the functions.
-/

namespace ApiSmith

def Reads (table : TypeTable) (t : DataType) (d v : Value) : Prop :=
  (decode table t d).result = .ok v

def presentIn? (entries : List (Value × Value)) (key : String) : Option Value :=
  (lookupText key entries).filter fun v => !v.isNull

theorem presentIn?_eq_some {entries : List (Value × Value)} {key : String} {v : Value} :
    presentIn? entries key = some v ↔ lookupText key entries = some v ∧ v.isNull = false := by
  simp [presentIn?, Option.filter_eq_some_iff]

variable {table : TypeTable}

/-! ## Reading -/

theorem decode_union {form : UnionForm} {members : List DataType} {u : DataType}
    (h : (members.filter fun t => !t.isNull) = [u]) (d : Value) :
    decode table (.union form members) d =
      if d.isNull && members.any DataType.isNull then pure .null else decode table u d := by
  rw [decode]
  split
  · rfl
  · split
    · next w hw =>
      obtain rfl : u = w := by simpa using h.symm.trans hw
      rfl
    · next hw => exact absurd h (hw u)

theorem reads_union {form : UnionForm} {members : List DataType} {u : DataType}
    (only : (members.filter fun t => !t.isNull) = [u]) {d v : Value} (hd : d.isNull = false)
    (h : Reads table u d v) : Reads table (.union form members) d v := by
  rw [Reads, decode_union only, hd]
  exact h

theorem reads_union_cases {form : UnionForm} {members : List DataType} {d v : Value}
    (h : Reads table (.union form members) d v) :
    (members.any DataType.isNull = true ∧ v = .null) ∨
      ∃ u ∈ members, u.isNull = false ∧ Reads table u d v := by
  rw [Reads, decode] at h
  split at h
  · next hnull =>
    cases h
    exact .inl ⟨(Bool.and_eq_true_iff.mp hnull).2, rfl⟩
  · split at h
    · next u hu =>
      have hmem : u ∈ members.filter fun t => !t.isNull := hu ▸ List.mem_singleton_self u
      obtain ⟨hmem, hnull⟩ := List.mem_filter.mp hmem
      exact .inr ⟨u, hmem, by simpa using hnull, h⟩
    · cases h

theorem decodeAll_eq_ok {t : DataType} {ds vs : List Value} :
    (decodeAll table t ds).result = .ok vs ↔ List.Forall₂ (Reads table t) ds vs := by
  induction ds generalizing vs with
  | nil => cases vs <;> simp [decodeAll]
  | cons d rest ih =>
    rw [decodeAll, Logged.result_bind_eq_ok]
    constructor
    · rintro ⟨v, hv, h⟩
      obtain ⟨more, hmore, h⟩ := Logged.result_bind_eq_ok.mp h
      cases h
      exact .cons hv (ih.mp hmore)
    · intro h
      cases h with
      | cons hv hmore => exact ⟨_, hv, Logged.result_bind_eq_ok.mpr ⟨_, ih.mpr hmore, rfl⟩⟩

theorem reads_list {item : DataType} {d v : Value} :
    Reads table (.list item) d v ↔
      ∃ ds vs, d = .list ds ∧ v = .list vs ∧ List.Forall₂ (Reads table item) ds vs := by
  unfold Reads
  constructor
  · intro h
    cases d with
    | list ds =>
      rw [decode] at h
      obtain ⟨vs, hvs, h⟩ := Logged.result_bind_eq_ok.mp h
      cases h
      exact ⟨ds, vs, rfl, rfl, decodeAll_eq_ok.mp hvs⟩
    | _ =>
      unfold decode at h
      cases h
  · rintro ⟨ds, vs, rfl, rfl, h⟩
    rw [decode]
    exact Logged.result_bind_eq_ok.mpr ⟨vs, decodeAll_eq_ok.mpr h, rfl⟩

/-- The types without parts whose values are read without a report of their own. -/
def DataType.isPlain : DataType → Bool
  | .int | .bool | .text | .bytes => true
  | _ => false

theorem reads_plain {t : DataType} (plain : t.isPlain = true) {d v : Value} :
    Reads table t d v ↔ Decode.plainScalar? t d = some v := by
  unfold Reads decode
  cases t with
  | int | bool | text | bytes =>
    cases hd : d.isNull with
    | false =>
      simp only [Decode.scalar, Bool.false_eq_true, if_false]
      cases Decode.plainScalar? _ d <;> simp [Decode.mismatch]
    | true =>
      obtain rfl : d = .null := by
        cases d <;> first | rfl | cases hd
      simp [Decode.mismatch, Decode.plainScalar?, Value.int?]
  | _ => cases plain

theorem reads_decimal {d v : Value} :
    Reads table .decimal d v ↔
      ∃ cs x, Decode.decimalText? d = some cs ∧ Number.Decimal.read? cs = some x ∧
        v = .decimal x := by
  have hplain : Reads table .decimal d v ↔ Decode.plainScalar? .decimal d = some v := by
    unfold Reads decode
    cases hd : d.isNull with
    | false =>
      simp only [Decode.scalar, Bool.false_eq_true, if_false]
      cases Decode.plainScalar? .decimal d <;> simp [Decode.mismatch]
    | true =>
      obtain rfl : d = .null := by
        cases d <;> first | rfl | cases hd
      simp [Decode.mismatch, Decode.plainScalar?, Decode.decimalText?, Value.int?]
  rw [hplain, Decode.plainScalar?, Option.map_eq_some_iff]
  constructor
  · rintro ⟨x, hx, rfl⟩
    obtain ⟨cs, hcs, hread⟩ := Option.bind_eq_some_iff.mp hx
    exact ⟨cs, x, hcs, hread, rfl⟩
  · rintro ⟨cs, x, hcs, hread, rfl⟩
    exact ⟨x, Option.bind_eq_some_iff.mpr ⟨cs, hcs, hread⟩, rfl⟩

theorem reads_moment {d v : Value} :
    Reads table .moment d v ↔
      ∃ s m, d = .text s ∧ Time.readMoment? s.toList = some m ∧ v = .moment m := by
  unfold Reads decode
  cases d with
  | text s =>
    simp only [Value.isNull, Decode.scalar, Decode.moment, Bool.false_eq_true, if_false]
    cases hm : Time.readMoment? s.toList with
    | none => simp [Decode.mismatch, hm]
    | some m => simp [hm, eq_comm]
  | null => simp [Value.isNull, Decode.mismatch]
  | _ => simp [Value.isNull, Decode.scalar, Decode.plainScalar?, Decode.mismatch]

theorem reads_object {d v : Value} :
    Reads table .object d v ↔
      ∃ fields, (DynamicObject.ofPayload d).result = .ok fields ∧ v = .object fields := by
  unfold Reads decode
  cases hd : d.isNull with
  | false =>
    simp only [Decode.dynamic, Bool.false_eq_true, if_false]
    cases (DynamicObject.ofPayload d).result with
    | error e => simp [Except.map, Except.mapError]
    | ok fields => simp [Except.map, Except.mapError, eq_comm]
  | true =>
    obtain rfl : d = .null := by
      cases d <;> first | rfl | cases hd
    simp [Decode.mismatch, DynamicObject.ofPayload]

theorem reads_enum {name : String} {integral : Bool} {members : List (String × Value)}
    (h : table.find? name = some (.enum integral members)) {d v : Value} :
    Reads table (.named name) d v ↔
      d.isNull = false ∧ memberOf? name integral members d = some v := by
  unfold Reads decode
  cases hd : d.isNull with
  | false =>
    simp only [h, Decode.member, Bool.false_eq_true, if_false]
    cases memberOf? name integral members d <;> simp [Decode.mismatch]
  | true => simp [Decode.mismatch]

theorem reads_model {name : String} {fields : List FieldType}
    (h : table.find? name = some (.model fields)) {d v : Value} :
    Reads table (.named name) d v ↔
      ∃ entries values, d = .map entries ∧ v = .model name values ∧
        (decodeFields table name entries fields).result = .ok values := by
  unfold Reads decode
  cases d with
  | map entries =>
    simp only [h, Value.isNull, Bool.false_eq_true, if_false]
    rw [Logged.result_bind_eq_ok]
    constructor
    · rintro ⟨values, hvalues, hv⟩
      cases hv
      exact ⟨entries, values, rfl, rfl, hvalues⟩
    · rintro ⟨_, values, ⟨⟩, rfl, hvalues⟩
      exact ⟨values, hvalues, rfl⟩
  | _ => simp [h, Value.isNull, Decode.mismatch]

/-! ### Fields of a model -/

/-- The value of one field: read from what is there, or else its fallback. -/
def decodeField (table : TypeTable) (model : String) (entries : List (Value × Value))
    (f : FieldType) : Decode Value :=
  match presentIn? entries f.key with
  | some raw => Decode.under model f.key (decode table f.type raw)
  | none => Decode.fallback model f

theorem decodeFields_cons (model : String) (entries : List (Value × Value)) (f : FieldType)
    (rest : List FieldType) :
    decodeFields table model entries (f :: rest) = (do
      let x ← decodeField table model entries f
      let more ← decodeFields table model entries rest
      pure ((f.name, f.key, x) :: more)) := by
  rw [decodeFields, decodeField, presentIn?]
  split
  · next raw hraw =>
    rw [hraw]
    cases hnull : raw.isNull <;> simp [hnull, Option.filter]
  · next hraw =>
    rw [hraw]
    rfl

/-- Whether a value is the one of a field, given the entries of an object. -/
def FieldReads (table : TypeTable) (entries : List (Value × Value)) (f : FieldType) (v : Value) :
    Prop :=
  match presentIn? entries f.key with
  | some raw => Reads table f.type raw v
  | none => f.fallback = some v

theorem fieldReads_of_present {entries : List (Value × Value)} {f : FieldType} {raw v : Value}
    (h : presentIn? entries f.key = some raw) (hv : Reads table f.type raw v) :
    FieldReads table entries f v := by
  rw [FieldReads, h]
  exact hv

theorem fieldReads_of_missing {entries : List (Value × Value)} {f : FieldType} {v : Value}
    (h : presentIn? entries f.key = none) (hv : f.fallback = some v) :
    FieldReads table entries f v := by
  rw [FieldReads, h]
  exact hv

theorem decodeField_eq_ok {model : String} {entries : List (Value × Value)} {f : FieldType}
    {v : Value} :
    (decodeField table model entries f).result = .ok v ↔ FieldReads table entries f v := by
  unfold decodeField FieldReads
  cases presentIn? entries f.key with
  | none =>
    simp only [Decode.fallback]
    cases f.fallback <;> simp [Decode.mismatch]
  | some raw =>
    simp only [Decode.under, Reads]
    cases (decode table f.type raw).result <;> simp [Except.mapError]

theorem decodeFields_eq_ok {model : String} {entries : List (Value × Value)}
    {fields : List FieldType} {values : List (String × String × Value)} :
    (decodeFields table model entries fields).result = .ok values ↔
      List.Forall₂ (fun f x => x.1 = f.name ∧ x.2.1 = f.key ∧ FieldReads table entries f x.2.2)
        fields values := by
  induction fields generalizing values with
  | nil => cases values <;> simp [decodeFields]
  | cons f rest ih =>
    rw [decodeFields_cons, Logged.result_bind_eq_ok]
    constructor
    · rintro ⟨v, hv, h⟩
      obtain ⟨more, hmore, h⟩ := Logged.result_bind_eq_ok.mp h
      cases h
      exact .cons ⟨rfl, rfl, decodeField_eq_ok.mp hv⟩ (ih.mp hmore)
    · intro h
      cases h with
      | @cons _ x _ _ hx hmore =>
        obtain ⟨name, key, v⟩ := x
        obtain ⟨rfl, rfl, hv⟩ := hx
        exact ⟨v, decodeField_eq_ok.mpr hv, Logged.result_bind_eq_ok.mpr ⟨_, ih.mpr hmore, rfl⟩⟩

/-! ## Writing -/

theorem map_eq_ok {ε α β : Type} {x : Except ε α} {f : α → β} {b : β} :
    x.map f = .ok b ↔ ∃ a, x = .ok a ∧ f a = b := by
  cases x <;> simp [Except.map]

theorem map_eq_error {ε α β : Type} {x : Except ε α} {f : α → β} {e : ε} :
    x.map f = .error e ↔ x = .error e := by
  cases x <;> simp [Except.map]

variable {zone : Time.Zone}

theorem encodeAll_eq_ok {vs es : List Value} :
    encodeAll zone vs = .ok es ↔ List.Forall₂ (fun v e => encode zone v = .ok e) vs es := by
  induction vs generalizing es with
  | nil => cases es <;> simp [encodeAll]
  | cons v rest ih =>
    rw [encodeAll, bind_eq_ok]
    constructor
    · rintro ⟨e, he, h⟩
      obtain ⟨more, hmore, h⟩ := bind_eq_ok.mp h
      cases h
      exact .cons he (ih.mp hmore)
    · intro h
      cases h with
      | cons he hmore => exact ⟨_, he, bind_eq_ok.mpr ⟨_, ih.mpr hmore, rfl⟩⟩

theorem encode_list {vs : List Value} {e : Value} :
    encode zone (.list vs) = .ok e ↔
      ∃ es, e = .list es ∧ List.Forall₂ (fun v e => encode zone v = .ok e) vs es := by
  rw [encode, map_eq_ok]
  constructor
  · rintro ⟨es, hes, rfl⟩
    exact ⟨es, rfl, encodeAll_eq_ok.mp hes⟩
  · rintro ⟨es, rfl, h⟩
    exact ⟨es, encodeAll_eq_ok.mpr h, rfl⟩

end ApiSmith
