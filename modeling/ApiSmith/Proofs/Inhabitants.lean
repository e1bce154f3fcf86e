import ApiSmith.Proofs.Answers
import ApiSmith.Proofs.Dynamic
import ApiSmith.Proofs.Keys

/-!
# The values of a type

`Inhabits` says which values a type has that generated code names, without a word about reading.
Whatever is read from JSON data as such a type inhabits it (`inhabits_of_reads`). Each way of reading
makes a value of its own kind; a field that the data lack takes its fallback, so that the fallbacks
have to inhabit the types of their fields.

A type may come back to itself through a model, and the data get smaller on the way. So the induction
is on the data, and inside it on the type, since a union is read from the same data.
-/

namespace ApiSmith

/-- The values of a type. -/
inductive Inhabits (table : TypeTable) : DataType → Value → Prop where
  | int (n : Int) : Inhabits table .int (.int n)
  | text (s : String) : Inhabits table .text (.text s)
  | bool (b : Bool) : Inhabits table .bool (.bool b)
  | decimal (x : Number.Decimal) : Inhabits table .decimal (.decimal x)
  | moment (m : Time.Moment) : Inhabits table .moment (.moment m)
  | bytes (octets : List UInt8) : Inhabits table .bytes (.bytes octets)
  /-- The keys of a dynamic object are distinct texts, at every depth. -/
  | object {fields : DynamicObject} (json : (DynamicObject.plain fields).IsJson) :
      Inhabits table .object (.object fields)
  | list {item : DataType} {items : List Value} (parts : ∀ v ∈ items, Inhabits table item v) :
      Inhabits table (.list item) (.list items)
  | null {form : UnionForm} {members : List DataType}
      (nullable : members.any DataType.isNull = true) : Inhabits table (.union form members) .null
  | union {form : UnionForm} {members : List DataType} {u : DataType} {v : Value}
      (member : u ∈ members) (inhabits : Inhabits table u v) : Inhabits table (.union form members) v
  | enum {name label : String} {integral : Bool} {members : List (String × Value)} {v : Value}
      (found : table.find? name = some (.enum integral members)) (member : (label, v) ∈ members) :
      Inhabits table (.named name) (.member name label v integral)
  /-- A model has a value for each of its fields, in their order. -/
  | model {name : String} {fields : List FieldType} {values : List (String × String × Value)}
      (found : table.find? name = some (.model fields))
      (labels : (values.map fun x => (x.1, x.2.1)) = fields.map fun f => (f.name, f.key))
      (parts : ∀ p ∈ fields.zip values, Inhabits table p.1.type p.2.2.2) :
      Inhabits table (.named name) (.model name values)

/-- Every fallback of a field in the table is a value of the field's type. -/
def TypeTable.HasFittingFallbacks (table : TypeTable) : Prop :=
  ∀ name fields, table.find? name = some (.model fields) →
    ∀ f ∈ fields, ∀ v, f.fallback = some v → Inhabits table f.type v

variable {table : TypeTable}

/-! ## Reading -/

theorem inhabits_of_plain {t : DataType} (plain : t.isPlain = true) {d v : Value} (json : d.IsJson)
    (h : Reads table t d v) : Inhabits table t v := by
  rw [reads_plain plain] at h
  cases t with
  | int =>
    cases json with
    | int n =>
      cases h
      exact .int n
    | _ => cases h
  | bool =>
    cases json with
    | bool b =>
      cases h
      exact .bool b
    | _ => cases h
  | text =>
    cases json with
    | text s =>
      cases h
      exact .text s
    | _ => cases h
  | bytes =>
    cases json with
    | text s =>
      obtain ⟨octets, -, rfl⟩ := Option.map_eq_some_iff.mp h
      exact .bytes octets
    | _ => cases h
  | _ => cases plain

theorem inhabits_of_scalar {t : DataType} (scalar : t.isScalar = true) {d v : Value}
    (json : d.IsJson) (h : Reads table t d v) : Inhabits table t v := by
  cases t with
  | int | text | bool | bytes => exact inhabits_of_plain rfl json h
  | decimal =>
    obtain ⟨cs, x, -, -, rfl⟩ := reads_decimal.mp h
    exact .decimal x
  | moment =>
    obtain ⟨s, m, -, -, rfl⟩ := reads_moment.mp h
    exact .moment m
  | _ => cases scalar

theorem inhabits_of_enum {name : String} {integral : Bool} {members : List (String × Value)}
    (found : table.find? name = some (.enum integral members)) {d v : Value} (json : d.IsJson)
    (h : Reads table (.named name) d v) : Inhabits table (.named name) v := by
  obtain ⟨-, hmember⟩ := (reads_enum found).mp h
  have hd : d.isMemberOf name = false := by cases json <;> rfl
  rw [memberOf?, hd, if_neg Bool.false_ne_true] at hmember
  obtain ⟨⟨label, w⟩, hfind, rfl⟩ := Option.map_eq_some_iff.mp hmember
  exact .enum found (List.mem_of_find?_eq_some hfind)

theorem inhabits_of_all {item : DataType} {ds vs : List Value}
    (h : List.Forall₂ (Reads table item) ds vs)
    (parts : ∀ d ∈ ds, ∀ v, Reads table item d v → Inhabits table item v) :
    Inhabits table (.list item) (.list vs) := by
  refine .list fun v hv => ?_
  obtain ⟨d, hd, hread⟩ := exists_of_mem_forall₂ h hv
  exact parts d hd v hread

theorem inhabits_of_fields {name : String} {fields : List FieldType}
    (found : table.find? name = some (.model fields)) {entries : List (Value × Value)}
    {values : List (String × String × Value)}
    (h : (decodeFields table name entries fields).result = .ok values)
    (fitting : ∀ f ∈ fields, ∀ v, f.fallback = some v → Inhabits table f.type v)
    (parts : ∀ f ∈ fields, ∀ raw, presentIn? entries f.key = some raw → ∀ v,
      Reads table f.type raw v → Inhabits table f.type v) :
    Inhabits table (.named name) (.model name values) := by
  have hvalues := decodeFields_eq_ok.mp h
  have hfield : ∀ f ∈ fields, ∀ v, FieldReads table entries f v → Inhabits table f.type v := by
    intro f hf v hv
    unfold FieldReads at hv
    split at hv
    · next raw hraw => exact parts f hf raw hraw v hv
    · exact fitting f hf v hv
  refine .model found ?_ ?_
  · clear h parts fitting hfield found
    induction hvalues with
    | nil => rfl
    | cons hx _ ih => rw [List.map_cons, List.map_cons, ih, hx.1, hx.2.1]
  · intro p hp
    have hmem := List.of_mem_zip hp
    have hread := List.forall₂_zip hvalues hp
    exact hfield p.1 hmem.1 p.2.2.2 hread.2.2

/-- One round of the induction: the types are taken apart, and what is read from the parts of the
data inhabits its types already. -/
theorem inhabits_of_parts (htable : table.IsGenerated) (fitting : table.HasFittingFallbacks)
    {d : Value} (json : d.IsJson)
    (parts : ∀ d', sizeOf d' < sizeOf d → d'.IsJson → ∀ t v, t.Generated table →
      Reads table t d' v → Inhabits table t v)
    {t : DataType} (ht : t.Generated table) {v : Value} (h : Reads table t d v) :
    Inhabits table t v := by
  induction ht with
  | scalar scalar => exact inhabits_of_scalar scalar json h
  | object =>
    obtain ⟨fields, hfields, rfl⟩ := reads_object.mp h
    exact .object (ofPayload_plain json hfields).1
  | @list item hitem =>
    obtain ⟨ds, vs, rfl, rfl, hreads⟩ := reads_list.mp h
    cases json with
    | list hparts =>
      exact inhabits_of_all hreads fun d' hd' v hv =>
        parts d' (sizeOf_lt_list hd') (hparts d' hd') item v hitem hv
  | @union form members _ ih =>
    rcases reads_union_cases h with ⟨nullable, rfl⟩ | ⟨u, hu, hnull, hread⟩
    · exact .null nullable
    · exact .union hu (ih u hu hnull hread)
  | @named name declared =>
    cases hfind : table.find? name with
    | none =>
      rw [hfind] at declared
      cases declared
    | some decl =>
      cases decl with
      | enum integral members => exact inhabits_of_enum hfind json h
      | model fields =>
        obtain ⟨entries, values, rfl, rfl, hvalues⟩ := (reads_model hfind).mp h
        cases json with
        | map _ _ hparts =>
          refine inhabits_of_fields hfind hvalues (fitting name fields hfind) ?_
          intro f hf raw hraw v hv
          have hfound := (presentIn?_eq_some.mp hraw).1
          exact parts raw (sizeOf_lt_map hfound) (hparts _ (mem_of_lookupText hfound)) f.type v
            (htable name fields hfind f hf) hv

/-- What is read from JSON data as a type that generated code names is a value of the type. -/
theorem inhabits_of_reads (htable : table.IsGenerated) (fitting : table.HasFittingFallbacks)
    {d : Value} (json : d.IsJson) {t : DataType} (ht : t.Generated table) {v : Value}
    (h : Reads table t d v) : Inhabits table t v :=
  inhabits_of_parts htable fitting json
    (fun d' _ json' _ _ ht' h' => inhabits_of_reads htable fitting (d := d') json' ht' h') ht h
termination_by sizeOf d

/-! ## An account that refers to accounts -/

/-- The fields of an account, with the account that it belongs to. -/
def accountFields : List FieldType :=
  [⟨"balance", "b", .decimal, none⟩,
    ⟨"opened", "o", DataType.optional (.list .moment), some .null⟩,
    ⟨"parent", "p", DataType.optional (.named "Account"), some .null⟩]

def accountTable : TypeTable := [("Account", .model accountFields)]

theorem fields_accountTable {name : String} {fields : List FieldType}
    (h : accountTable.find? name = some (.model fields)) : fields = accountFields := by
  simp only [TypeTable.find?, accountTable, List.find?_cons] at h
  cases hname : "Account" == name <;> simp_all

theorem isGenerated_accountTable : accountTable.IsGenerated := by
  have optional {t : DataType} (ht : t.Generated accountTable) :
      DataType.Generated accountTable (.union .listed [t, .null]) := by
    refine .union fun u hu hnull => ?_
    rcases List.mem_pair.mp hu with rfl | rfl
    · exact ht
    · cases hnull
  intro name fields h f hf
  obtain rfl := fields_accountTable h
  simp only [accountFields, List.mem_cons, List.not_mem_nil, or_false] at hf
  rcases hf with rfl | rfl | rfl
  · exact .scalar rfl
  · exact optional (.list (.scalar rfl))
  · exact optional (.named rfl)

theorem fitting_accountTable : accountTable.HasFittingFallbacks := by
  intro name fields h f hf v hv
  obtain rfl := fields_accountTable h
  simp only [accountFields, List.mem_cons, List.not_mem_nil, or_false] at hf
  rcases hf with rfl | rfl | rfl <;> cases hv
  · exact .null rfl
  · exact .null rfl

theorem reads_account {d : Value} {x : Number.Decimal}
    (present : presentIn? [(.text "b", d)] "b" = some d)
    (h : Reads accountTable .decimal d (.decimal x)) :
    Reads accountTable (.named "Account") (.map [(.text "b", d)])
      (.model "Account" [("balance", "b", .decimal x), ("opened", "o", .null),
        ("parent", "p", .null)]) := by
  refine (reads_model rfl).mpr ⟨_, _, rfl, rfl, decodeFields_eq_ok.mpr ?_⟩
  refine .cons ⟨rfl, rfl, fieldReads_of_present present h⟩ ?_
  refine .cons ⟨rfl, rfl, fieldReads_of_missing rfl rfl⟩ ?_
  exact .cons ⟨rfl, rfl, fieldReads_of_missing rfl rfl⟩ .nil

end ApiSmith
