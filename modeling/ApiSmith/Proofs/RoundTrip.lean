import ApiSmith.Proofs.Base64
import ApiSmith.Proofs.Decoding
import ApiSmith.Proofs.Dynamic
import ApiSmith.Proofs.Keys

/-!
# Typed data read, written and read again

What is read as a portable type is written as JSON data that are read as the same value
(`written_reads_again`). The data that are written need not be the data that were read: unknown keys
and null fields go, a truth value or a double that was taken for an enum member becomes its integer,
Base64 is written in its strict form, and a dynamic object loses what it could not hold. What stays
at every model are the keys that it declares and that were there (`Trimmed`).

The types of a table may refer to each other in circles, so the induction is on the data, with all
types at once. A union is read from the same data as its only type, and takes an inner induction on
the type. That nothing else is read as null than null makes written fields and present ones the
same.
-/

namespace ApiSmith

/-! ## Portable types -/

/-- The types whose values say all of the data that matter. -/
inductive DataType.Portable (table : TypeTable) : DataType → Prop where
  /-- Integers, truth values, texts and octets. -/
  | plain {t : DataType} (plain : t.isPlain = true) : Portable table t
  | object : Portable table .object
  | list {item : DataType} (portable : Portable table item) : Portable table (.list item)
  /-- One type, perhaps or null. -/
  | union {form : UnionForm} {members : List DataType} {u : DataType}
    (only : (members.filter fun t => !t.isNull) = [u]) (portable : Portable table u) :
    Portable table (.union form members)
  | enum {name : String} {integral : Bool} {members : List (String × Value)}
    (found : table.find? name = some (.enum integral members))
    (integers : ∀ m ∈ members, ∃ n, m.2 = .int n) : Portable table (.named name)
  | model {name : String} {fields : List FieldType}
    (found : table.find? name = some (.model fields)) : Portable table (.named name)

namespace DataType

variable {zone : Time.Zone} {table : TypeTable}

theorem beq_null {u : DataType} (h : u.isNull = false) : (u == .null) = false := by
  cases u <;> first | rfl | cases h

theorem mem_of_mem_distinct {ms : List DataType} {u : DataType} (h : u ∈ distinct ms) : u ∈ ms := by
  induction ms with
  | nil => cases h
  | cons t rest ih =>
    rcases List.mem_cons.mp h with rfl | h
    · exact List.mem_cons_self
    · exact List.mem_cons_of_mem _ (ih (List.mem_filter.mp h).1)

theorem filter_distinct {ms : List DataType} {u : DataType}
    (h : (ms.filter fun t => !t.isNull) = [u]) :
    ((distinct ms).filter fun t => !t.isNull) = [u] := by
  induction ms with
  | nil => cases h
  | cons t rest ih =>
    rw [distinct]
    rw [List.filter_cons] at h ⊢
    cases ht : t.isNull with
    | true =>
      obtain rfl : t = .null := by
        cases t <;> first | rfl | cases ht
      rw [List.filter_filter]
      refine (List.filter_congr fun u _ => ?_).trans (ih h)
      cases hu : u.isNull with
      | true => rfl
      | false => rw [beq_null hu]; rfl
    | false =>
      rw [ht] at h
      obtain ⟨rfl, hrest⟩ := List.cons.inj h
      refine congrArg (t :: ·) (List.filter_eq_nil_iff.mpr fun w hw => ?_)
      exact List.filter_eq_nil_iff.mp hrest w (mem_of_mem_distinct (List.mem_filter.mp hw).1)

theorem Portable.ofParts {form : UnionForm} {members : List DataType} {u : DataType}
    (only : (members.filter fun t => !t.isNull) = [u]) (hu : u.Portable table) :
    (ofParts form members).Portable table := by
  have honly := filter_distinct only
  unfold DataType.ofParts
  split
  · next t ht =>
    rw [ht, List.filter_cons] at honly
    split at honly
    · obtain ⟨rfl, -⟩ := List.cons.inj honly
      exact hu
    · cases honly
  · exact .union honly hu

theorem Portable.optional {t : DataType} (ht : t.Portable table) : t.optional.Portable table := by
  have alone (hnull : t.isNull = false) : ([t, .null].filter fun u => !u.isNull) = [t] := by
    rw [List.filter_cons, hnull]
    rfl
  cases ht with
  | @union form members u only hu =>
    refine Portable.ofParts (u := u) ?_ hu
    unfold optionalParts
    split
    · cases only
    · simpa [List.filter_append, isNull] using only
  | plain plain =>
    cases t with
    | int | bool | text | bytes => exact Portable.ofParts (alone rfl) (.plain rfl)
    | _ => cases plain
  | object => exact Portable.ofParts (alone rfl) .object
  | list hitem => exact Portable.ofParts (alone rfl) (.list hitem)
  | enum found integers => exact Portable.ofParts (alone rfl) (.enum found integers)
  | model found => exact Portable.ofParts (alone rfl) (.model found)

end DataType

/-- Every model of a table has distinct keys and fields of portable types, and the fields that it
does not require are null where they are missing. -/
def TypeTable.IsPortable (table : TypeTable) : Prop :=
  ∀ name fields, table.find? name = some (.model fields) →
    (fields.map (·.key)).Nodup ∧
      ∀ f ∈ fields, f.type.Portable table ∧ ∀ v, f.fallback = some v → v = .null

/-- The keys that a model declares and that an object has, with a value that is not null. -/
def presentKeys (fields : List FieldType) (entries : List (Value × Value)) : List String :=
  (fields.filter fun f => (presentIn? entries f.key).isSome).map (·.key)

/-- Two pieces of data of one type, the second with exactly the keys at every model that the model
declares and the first one has, in the order of the model. -/
inductive Trimmed (table : TypeTable) : DataType → Value → Value → Prop where
  /-- In plain types there is no model. -/
  | plain {t : DataType} {d e : Value} (plain : t.isPlain = true) : Trimmed table t d e
  /-- In dynamic objects there is no model. -/
  | object {d e : Value} : Trimmed table .object d e
  | list {item : DataType} {ds es : List Value} (length : ds.length = es.length)
    (items : ∀ p ∈ ds.zip es, Trimmed table item p.1 p.2) :
    Trimmed table (.list item) (.list ds) (.list es)
  | null {form : UnionForm} {members : List DataType} :
    Trimmed table (.union form members) .null .null
  | union {form : UnionForm} {members : List DataType} {u : DataType} {d e : Value}
    (member : u ∈ members) (trimmed : Trimmed table u d e) :
    Trimmed table (.union form members) d e
  /-- In enums there is no model. -/
  | enum {name : String} {integral : Bool} {members : List (String × Value)} {d e : Value}
    (found : table.find? name = some (.enum integral members)) : Trimmed table (.named name) d e
  /-- A model has the keys that were there. -/
  | model {name : String} {fields : List FieldType} {entries written : List (Value × Value)}
    (found : table.find? name = some (.model fields))
    (keys : written.map (·.1) = (presentKeys fields entries).map .text)
    (values : ∀ f ∈ fields, ∀ raw e, presentIn? entries f.key = some raw →
      (.text f.key, e) ∈ written → Trimmed table f.type raw e) :
    Trimmed table (.named name) (.map entries) (.map written)

/-- Some data are read as a value of a type, which is written as other data. -/
structure Settles (zone : Time.Zone) (table : TypeTable) (t : DataType) (d v e : Value) : Prop where
  written : encode zone v = .ok e
  /-- What is written is JSON data. -/
  json : e.IsJson
  /-- It is read as the same value. -/
  again : Reads table t e v
  /-- It keeps the keys that were there. -/
  trimmed : Trimmed table t d e
  /-- The value is null only if the data are. -/
  null : v.isNull = d.isNull
  /-- What is written is null only if the data are. -/
  writtenNull : e.isNull = d.isNull

variable {zone : Time.Zone} {table : TypeTable}

/-! ## Leaves -/

theorem settles_plain {t : DataType} (plain : t.isPlain = true) {d v : Value} (json : d.IsJson)
    (h : Reads table t d v) : ∃ e, Settles zone table t d v e := by
  rw [reads_plain plain] at h
  cases t with
  | int =>
    cases json with
    | int n =>
      cases h
      exact ⟨.int n, rfl, .int n, (reads_plain rfl).mpr rfl, .plain rfl, rfl, rfl⟩
    | _ => cases h
  | bool =>
    cases json with
    | bool b =>
      cases h
      exact ⟨.bool b, rfl, .bool b, (reads_plain rfl).mpr rfl, .plain rfl, rfl, rfl⟩
    | _ => cases h
  | text =>
    cases json with
    | text s =>
      cases h
      exact ⟨.text s, rfl, .text s, (reads_plain rfl).mpr rfl, .plain rfl, rfl, rfl⟩
    | _ => cases h
  | bytes =>
    cases json with
    | text s =>
      obtain ⟨octets, -, rfl⟩ := Option.map_eq_some_iff.mp h
      refine ⟨.text (String.ofList (Text.Base64.encode octets)), rfl, .text _,
        (reads_plain rfl).mpr ?_, .plain rfl, rfl, rfl⟩
      simp [Decode.plainScalar?, Text.Base64.decode_encode]
    | _ => cases h
  | _ => cases plain

theorem settles_object {d v : Value} (json : d.IsJson) (h : Reads table .object d v) :
    ∃ e, Settles zone table .object d v e := by
  obtain ⟨fields, hf, rfl⟩ := reads_object.mp h
  obtain ⟨hjson, again⟩ := ofPayload_plain json hf
  have hd : d.isNull = false := by
    cases json with
    | null => cases hf
    | _ => rfl
  exact ⟨_, rfl, hjson, reads_object.mpr ⟨fields, again, rfl⟩, .object, hd.symm ▸ rfl,
    hd.symm ▸ rfl⟩

theorem int_same_int {a b : Int} (h : (Value.int a).same (.int b) = true) : a = b := by
  simp only [Value.same, Value.sameNumber, Value.quantity?, Quantity.same, Bool.and_eq_true,
    Bool.or_eq_true, beq_iff_eq, decide_eq_decide] at h
  omega

theorem int_same_self (n : Int) : (Value.int n).same (.int n) = true := by
  simp [Value.same, Value.sameNumber, Value.quantity?, Quantity.same]

/-- The member that is found by a value is found by its own integer: an earlier member with this
integer would have been found before. -/
theorem settles_enum {name : String} {integral : Bool} {members : List (String × Value)}
    (found : table.find? name = some (.enum integral members))
    (integers : ∀ m ∈ members, ∃ n, m.2 = .int n) {d v : Value} (json : d.IsJson)
    (h : Reads table (.named name) d v) : ∃ e, Settles zone table (.named name) d v e := by
  obtain ⟨hd, hm⟩ := (reads_enum found).mp h
  have hnot : d.isMemberOf name = false := by cases json <;> rfl
  rw [memberOf?, hnot] at hm
  obtain ⟨⟨label, w⟩, hfind, rfl⟩ := Option.map_eq_some_iff.mp hm
  obtain ⟨n, rfl⟩ := integers _ (List.mem_of_find?_eq_some hfind)
  obtain ⟨hsame, before, after, hsplit, hbefore⟩ := List.find?_eq_some_iff_append.mp hfind
  have hagain : (members.find? fun m => m.2.same (.int n)) = some (label, .int n) := by
    refine List.find?_eq_some_iff_append.mpr ⟨int_same_self n, before, after, hsplit, ?_⟩
    intro m hm
    obtain ⟨k, hk⟩ := integers m (by rw [hsplit]; exact List.mem_append_left _ hm)
    have hmiss := hbefore m hm
    rw [hk] at hmiss ⊢
    rw [Bool.not_eq_true'] at hmiss ⊢
    refine Bool.eq_false_iff.mpr fun hkn => ?_
    rw [int_same_int hkn, hsame] at hmiss
    cases hmiss
  refine ⟨.int n, rfl, .int n, (reads_enum found).mpr ⟨rfl, ?_⟩, .enum found, hd.symm, hd.symm⟩
  rw [memberOf?, hagain]
  rfl

/-! ## Lists -/

theorem settles_items {item : DataType} {ds vs : List Value}
    (h : List.Forall₂ (fun d v => ∃ e, Settles zone table item d v e) ds vs) :
    ∃ es, List.Forall₂ (fun v e => encode zone v = .ok e) vs es ∧ (∀ e ∈ es, e.IsJson) ∧
      List.Forall₂ (Reads table item) es vs ∧ List.Forall₂ (Trimmed table item) ds es := by
  induction h with
  | nil => exact ⟨[], .nil, by simp, .nil, .nil⟩
  | cons hd _ ih =>
    obtain ⟨e, he⟩ := hd
    obtain ⟨es, written, json, again, trimmed⟩ := ih
    refine ⟨e :: es, .cons he.written written, fun x hx => ?_, .cons he.again again,
      .cons he.trimmed trimmed⟩
    rcases List.mem_cons.mp hx with rfl | hx
    · exact he.json
    · exact json x hx

theorem settles_list {item : DataType} {ds vs : List Value}
    (h : List.Forall₂ (fun d v => ∃ e, Settles zone table item d v e) ds vs) :
    ∃ e, Settles zone table (.list item) (.list ds) (.list vs) e := by
  obtain ⟨es, written, json, again, trimmed⟩ := settles_items h
  obtain ⟨length, items⟩ := List.forall₂_iff_zip.mp trimmed
  exact ⟨.list es, encode_list.mpr ⟨es, rfl, written⟩, .list json,
    reads_list.mpr ⟨es, vs, rfl, rfl, again⟩, .list length fun p hp => items hp, rfl, rfl⟩

/-! ## Models -/

/-- How a field and its value belong to the data that are read and to those that are written: the
field is missing and null in both, or it is written under its key. -/
def FieldSettles (zone : Time.Zone) (table : TypeTable) (entries written : List (Value × Value))
    (f : FieldType) (v : Value) : Prop :=
  (presentIn? entries f.key = none ∧ f.fallback = some v ∧ v = .null) ∨
    ∃ raw e, presentIn? entries f.key = some raw ∧ (.text f.key, e) ∈ written ∧
      Settles zone table f.type raw v e

theorem FieldSettles.mono {entries written written' : List (Value × Value)} {f : FieldType}
    {v : Value} (sub : written ⊆ written') (h : FieldSettles zone table entries written f v) :
    FieldSettles zone table entries written' f v := by
  rcases h with h | ⟨raw, e, hraw, he, hs⟩
  · exact .inl h
  · exact .inr ⟨raw, e, hraw, sub he, hs⟩

theorem fields_written {entries : List (Value × Value)} {fields : List FieldType}
    {values : List (String × String × Value)}
    (fallbacks : ∀ f ∈ fields, ∀ v, f.fallback = some v → v = .null)
    (below : ∀ f ∈ fields, ∀ raw v, presentIn? entries f.key = some raw →
      Reads table f.type raw v → ∃ e, Settles zone table f.type raw v e)
    (h : List.Forall₂ (fun f x => x.1 = f.name ∧ x.2.1 = f.key ∧
      FieldReads table entries f x.2.2) fields values) :
    ∃ written, encodeFields zone values = .ok written ∧
      written.map (·.1) = (presentKeys fields entries).map .text ∧
      (∀ e ∈ written, e.2.IsJson) ∧
      List.Forall₂ (fun f x => x.1 = f.name ∧ x.2.1 = f.key ∧
        FieldSettles zone table entries written f x.2.2) fields values := by
  induction h with
  | nil => exact ⟨[], rfl, rfl, by simp, .nil⟩
  | @cons f x rest values hx _ ih =>
    obtain ⟨name, key, v⟩ := x
    obtain ⟨rfl, rfl, hv⟩ := hx
    obtain ⟨written, hwritten, hkeys, hjson, hrest⟩ :=
      ih (fun g hg => fallbacks g (List.mem_cons_of_mem _ hg))
        fun g hg => below g (List.mem_cons_of_mem _ hg)
    cases hpresent : presentIn? entries f.key with
    | none =>
      simp only [FieldReads, hpresent] at hv
      obtain rfl := fallbacks f List.mem_cons_self v hv
      refine ⟨written, by rw [encodeFields]; exact hwritten, ?_, hjson,
        .cons ⟨rfl, rfl, .inl ⟨hpresent, hv, rfl⟩⟩ hrest⟩
      simpa [presentKeys, hpresent] using hkeys
    | some raw =>
      simp only [FieldReads, hpresent] at hv
      obtain ⟨e, he⟩ := below f List.mem_cons_self raw v hpresent hv
      have hnull : v.isNull = false := he.null.trans (presentIn?_eq_some.mp hpresent).2
      refine ⟨(.text f.key, e) :: written, ?_, ?_, ?_, ?_⟩
      · simp only [encodeFields, hnull, he.written, hwritten]
        rfl
      · simpa [presentKeys, hpresent] using hkeys
      · intro p hp
        rcases List.mem_cons.mp hp with rfl | hp
        · exact he.json
        · exact hjson p hp
      · refine .cons ⟨rfl, rfl, .inr ⟨raw, e, hpresent, List.mem_cons_self, he⟩⟩ ?_
        exact hrest.imp fun g y hy =>
          ⟨hy.1, hy.2.1, hy.2.2.mono (List.subset_cons_self _ _)⟩

theorem FieldSettles.again {entries written : List (Value × Value)} {fields : List FieldType}
    (keys : written.map (·.1) = (presentKeys fields entries).map .text)
    (distinct : (written.map (·.1)).Nodup) {f : FieldType} {v : Value}
    (h : FieldSettles zone table entries written f v) : FieldReads table written f v := by
  rcases h with ⟨hnone, hfallback, -⟩ | ⟨raw, e, hraw, he, hs⟩
  · have habsent : ∀ p ∈ written, p.1 ≠ .text f.key := by
      intro p hp hkey
      have hmem := List.mem_map_of_mem (f := Prod.fst) hp
      rw [keys, hkey, List.mem_map] at hmem
      obtain ⟨key, hpresent, hsame⟩ := hmem
      obtain ⟨g, hg, rfl⟩ := List.mem_map.mp hpresent
      have hfound := (List.mem_filter.mp hg).2
      rw [Value.text.inj hsame, hnone] at hfound
      cases hfound
    refine fieldReads_of_missing ?_ hfallback
    rw [presentIn?, lookupText_eq_none habsent]
    rfl
  · have hfound : presentIn? written f.key = some e :=
      presentIn?_eq_some.mpr ⟨lookupText_of_mem distinct he,
        hs.writtenNull.trans (presentIn?_eq_some.mp hraw).2⟩
    exact fieldReads_of_present hfound hs.again

theorem settles_model {name : String} {fields : List FieldType}
    (found : table.find? name = some (.model fields)) (distinct : (fields.map (·.key)).Nodup)
    (fallbacks : ∀ f ∈ fields, ∀ v, f.fallback = some v → v = .null)
    {entries : List (Value × Value)}
    (below : ∀ f ∈ fields, ∀ raw v, presentIn? entries f.key = some raw →
      Reads table f.type raw v → ∃ e, Settles zone table f.type raw v e)
    {values : List (String × String × Value)}
    (h : (decodeFields table name entries fields).result = .ok values) :
    ∃ e, Settles zone table (.named name) (.map entries) (.model name values) e := by
  obtain ⟨written, hwritten, hkeys, hjson, hfields⟩ :=
    fields_written fallbacks below (decodeFields_eq_ok.mp h)
  have hpresent : (presentKeys fields entries).Nodup :=
    distinct.sublist (List.filter_sublist.map _)
  have hnodup : (written.map (·.1)).Nodup := by
    rw [hkeys]
    exact hpresent.map fun _ _ => Value.text.inj
  have htexts : ∀ e ∈ written, ∃ s, e.1 = .text s := by
    intro e he
    have hmem := List.mem_map_of_mem (f := Prod.fst) he
    rw [hkeys] at hmem
    obtain ⟨key, -, hkey⟩ := List.mem_map.mp hmem
    exact ⟨key, hkey.symm⟩
  refine ⟨.map written, ?_, .map htexts hnodup hjson, ?_, .model found hkeys ?_, rfl, rfl⟩
  · rw [encode, hwritten, Except.map, overlay_nil htexts hnodup]
  · refine (reads_model found).mpr ⟨written, values, rfl, rfl, decodeFields_eq_ok.mpr ?_⟩
    exact hfields.imp fun f x hx => ⟨hx.1, hx.2.1, hx.2.2.again hkeys hnodup⟩
  · intro f hf raw e hraw he
    obtain ⟨i, hi, rfl⟩ := List.getElem_of_mem hf
    rcases (hfields.get hi (hfields.length_eq ▸ hi)).2.2 with ⟨hnone, -⟩ | ⟨raw', e', hraw', he', hs⟩
    · rw [List.get_eq_getElem, hraw] at hnone
      cases hnone
    · rw [List.get_eq_getElem] at hraw' he'
      obtain rfl := Option.some.inj (hraw.symm.trans hraw')
      obtain rfl : e = e' := Option.some.inj
        ((lookupText_of_mem hnodup he).symm.trans (lookupText_of_mem hnodup he'))
      exact hs.trimmed

/-! ## All types -/

/-- One round of the induction: the types are taken apart, and the parts of the data are settled
already. -/
theorem settles_of_parts (portable : table.IsPortable) {d : Value} (json : d.IsJson)
    (parts : ∀ d', sizeOf d' < sizeOf d → d'.IsJson → ∀ t v, t.Portable table →
      Reads table t d' v → ∃ e, Settles zone table t d' v e)
    {t : DataType} (ht : t.Portable table) {v : Value} (h : Reads table t d v) :
    ∃ e, Settles zone table t d v e := by
  induction ht with
  | plain plain => exact settles_plain plain json h
  | object => exact settles_object json h
  | enum found integers => exact settles_enum found integers json h
  | @list item hitem =>
    obtain ⟨ds, vs, rfl, rfl, hreads⟩ := reads_list.mp h
    cases json with
    | list hparts =>
      have hitems : ∀ d' ∈ ds, ∀ v, Reads table item d' v → ∃ e, Settles zone table item d' v e :=
        fun d' hd' v hv => parts d' (sizeOf_lt_list hd') (hparts d' hd') item v hitem hv
      refine settles_list (((List.forall₂_and_left _ _).mpr ⟨hitems, hreads⟩).imp ?_)
      exact fun d' v hv => hv.1 v hv.2
  | @union form members u only _ ih =>
    rw [Reads, decode_union only] at h
    cases hnull : d.isNull && members.any DataType.isNull with
    | true =>
      obtain ⟨hd, hmembers⟩ := Bool.and_eq_true_iff.mp hnull
      rw [if_pos hnull] at h
      cases h
      obtain rfl : d = .null := by
        cases d <;> first | rfl | cases hd
      refine ⟨.null, rfl, .null, ?_, .null, rfl, rfl⟩
      rw [Reads, decode_union only, if_pos hnull]
      rfl
    | false =>
      rw [hnull] at h
      obtain ⟨e, he⟩ := ih h
      have hu : u ∈ members := (List.mem_filter.mp (only ▸ List.mem_singleton_self u)).1
      refine ⟨e, he.written, he.json, ?_, .union hu he.trimmed, he.null, he.writtenNull⟩
      rw [Reads, decode_union only, he.writtenNull, hnull]
      exact he.again
  | @model name fields found =>
    obtain ⟨entries, values, rfl, rfl, hvalues⟩ := (reads_model found).mp h
    obtain ⟨distinct, hfields⟩ := portable name fields found
    cases json with
    | map htexts hdistinct hparts =>
      refine settles_model found distinct (fun f hf => (hfields f hf).2) ?_ hvalues
      intro f hf raw v hraw hv
      have hfound := (presentIn?_eq_some.mp hraw).1
      exact parts raw (sizeOf_lt_map hfound) (hparts _ (mem_of_lookupText hfound)) f.type v
        (hfields f hf).1 hv

/-- Data that are read as a portable type are settled, by induction on their size. -/
theorem settles_of_reads (portable : table.IsPortable) {d : Value} (json : d.IsJson)
    {t : DataType} (ht : t.Portable table) {v : Value} (h : Reads table t d v) :
    ∃ e, Settles zone table t d v e :=
  settles_of_parts portable json
    (fun d' _ json' _ _ ht' h' => settles_of_reads portable (d := d') json' ht' h') ht h
termination_by sizeOf d

/-- Whatever is read from JSON data as a portable type is written as JSON data, which are read as the
same value again, and which have at every model exactly the declared keys that were there with a
value that is not null, in the order of the model. -/
theorem written_reads_again (zone : Time.Zone) (table : TypeTable) (portable : table.IsPortable) {t : DataType}
    (ht : t.Portable table) {d v : Value} (json : d.IsJson)
    (h : (decode table t d).result = .ok v) :
    ∃ e, encode zone v = .ok e ∧ e.IsJson ∧ (decode table t e).result = .ok v ∧
      Trimmed table t d e := by
  obtain ⟨e, he⟩ := settles_of_reads portable json ht h
  exact ⟨e, he.written, he.json, he.again, he.trimmed⟩

/-! ## A list of coloured nodes -/

def nodeFields : List FieldType :=
  [⟨"id", "nodeId", .int, none⟩, ⟨"color", "color", .named "Color", none⟩,
    ⟨"key", "key", DataType.optional .bytes, some .null⟩,
    ⟨"next", "next", DataType.optional (.named "Node"), some .null⟩]

def nodeTable : TypeTable :=
  [("Color", .enum true [("RED", .int 1), ("BLUE", .int 2)]), ("Node", .model nodeFields)]

theorem isPortable_nodeTable : nodeTable.IsPortable := by
  intro name fields h
  have hnode : fields = nodeFields := by
    simp only [TypeTable.find?, nodeTable, List.find?_cons] at h
    cases hcolor : "Color" == name <;> cases hname : "Node" == name <;> simp_all
  subst hnode
  have hkeys : (nodeFields.map (·.key)).Nodup := by decide
  refine ⟨hkeys, fun f hf => ?_⟩
  have color : DataType.Portable nodeTable (.named "Color") := .enum rfl (by simp)
  have node : DataType.Portable nodeTable (.named "Node") := .model rfl
  have bytes : DataType.Portable nodeTable .bytes := .plain rfl
  simp only [nodeFields, List.mem_cons, List.not_mem_nil, or_false] at hf
  rcases hf with rfl | rfl | rfl | rfl
  · exact ⟨.plain rfl, by simp⟩
  · exact ⟨color, by simp⟩
  · exact ⟨bytes.optional, by simp⟩
  · exact ⟨node.optional, by simp⟩

/-- Two nodes, with colors that are given as true and with a key that no node declares. -/
def nodeData : Value :=
  .map [(.text "nodeId", .int 7), (.text "color", .bool true), (.text "note", .text "new"),
    (.text "next", .map [(.text "nodeId", .int 8), (.text "color", .bool true),
      (.text "key", .text "YQ==")])]

def nodeValue : Value :=
  .model "Node" [("id", "nodeId", .int 7), ("color", "color", .member "Color" "RED" (.int 1) true),
    ("key", "key", .null), ("next", "next", .model "Node" [("id", "nodeId", .int 8),
      ("color", "color", .member "Color" "RED" (.int 1) true), ("key", "key", .bytes [97]),
      ("next", "next", .null)])]

theorem isJson_nodeData : nodeData.IsJson := by
  have second : (Value.map [(.text "nodeId", .int 8), (.text "color", .bool true),
      (.text "key", .text "YQ==")]).IsJson := by
    refine .map (by simp) (by simp) ?_
    simp [Value.IsJson.int, Value.IsJson.text, Value.IsJson.bool]
  refine .map (by simp) (by simp) ?_
  simp [second, Value.IsJson.int, Value.IsJson.text, Value.IsJson.bool]

theorem reads_nodeData : Reads nodeTable (.named "Node") nodeData nodeValue := by
  have id (n : Int) : Reads nodeTable .int (.int n) (.int n) := (reads_plain rfl).mpr rfl
  have color : Reads nodeTable (.named "Color") (.bool true)
      (.member "Color" "RED" (.int 1) true) := by
    refine (reads_enum rfl).mpr ⟨rfl, ?_⟩
    simp [memberOf?, Value.isMemberOf, Value.same, Value.sameNumber, Value.quantity?,
      Quantity.same]
  have key : Reads nodeTable (DataType.optional .bytes) (.text "YQ==") (.bytes [97]) :=
    reads_union rfl rfl ((reads_plain rfl).mpr rfl)
  have next : Reads nodeTable (.named "Node")
      (.map [(.text "nodeId", .int 8), (.text "color", .bool true), (.text "key", .text "YQ==")])
      (.model "Node" [("id", "nodeId", .int 8),
        ("color", "color", .member "Color" "RED" (.int 1) true), ("key", "key", .bytes [97]),
        ("next", "next", .null)]) := by
    refine (reads_model rfl).mpr ⟨_, _, rfl, rfl, decodeFields_eq_ok.mpr ?_⟩
    exact .cons ⟨rfl, rfl, fieldReads_of_present rfl (id 8)⟩ <|
      .cons ⟨rfl, rfl, fieldReads_of_present rfl color⟩ <|
      .cons ⟨rfl, rfl, fieldReads_of_present rfl key⟩ <|
      .cons ⟨rfl, rfl, fieldReads_of_missing rfl rfl⟩ .nil
  refine (reads_model rfl).mpr ⟨_, _, rfl, rfl, decodeFields_eq_ok.mpr ?_⟩
  exact .cons ⟨rfl, rfl, fieldReads_of_present rfl (id 7)⟩ <|
    .cons ⟨rfl, rfl, fieldReads_of_present rfl color⟩ <|
    .cons ⟨rfl, rfl, fieldReads_of_missing rfl rfl⟩ <|
    .cons ⟨rfl, rfl, fieldReads_of_present rfl (reads_union rfl rfl next)⟩ .nil

/-- The nodes are written, and read again as the same nodes. -/
theorem written_reads_again_for_nodes :
    ∃ e, encode .utc nodeValue = .ok e ∧ e.IsJson ∧
      (decode nodeTable (.named "Node") e).result = .ok nodeValue ∧
      Trimmed nodeTable (.named "Node") nodeData e :=
  written_reads_again .utc nodeTable isPortable_nodeTable (.model rfl) isJson_nodeData reads_nodeData

end ApiSmith
