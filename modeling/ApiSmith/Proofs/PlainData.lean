import ApiSmith.Proofs.Decoding
import ApiSmith.Proofs.JsonData

/-!
# What is written

Writing leaves exactly JSON data as it is (`encode_eq_self_iff`), so the two are one question: is
what is written JSON data, and does it stay the same when it is written again. The keys of maps
become texts, and so do the keys of models, but a dynamic object is written under its keys as they
are. So the answer is yes if no dynamic object that gets into the writing, at whatever depth, has a
key that is no text (`written_is_plain_iff`).

Of several entries of a map under one text the last is written, at the place of the first, so the
rows of entries are compared after they are overlaid (`writtenEntries`, `writtenFields`).
-/

namespace ApiSmith

/-! ## Maps -/

/-- The entries of a map that are written, under texts. -/
def writtenEntries (entries : List (Value × Value)) : List (Value × Value) :=
  overlay [] (entries.map fun e => (.text e.1.display, e.2))

def writtenFields (fields : List (String × String × Value)) : List (Value × Value) :=
  overlay [] ((fields.filter fun f => !f.2.2.isNull).map fun f => (.text f.2.1, f.2.2))

variable {zone : Time.Zone}

/-- One row of entries is what is written of another. -/
def AreWritten (zone : Time.Zone) (es written : List (Value × Value)) : Prop :=
  List.Forall₂ (SameKey fun v e => encode zone v = .ok e) es written

theorem areWritten_of_encodeEntries {entries es : List (Value × Value)}
    (h : encodeEntries zone entries = .ok es) :
    AreWritten zone (entries.map fun e => (.text e.1.display, e.2)) es := by
  induction entries generalizing es with
  | nil =>
    cases h
    exact .nil
  | cons entry rest ih =>
    obtain ⟨e, he, h⟩ := bind_eq_ok.mp h
    obtain ⟨more, hmore, h⟩ := bind_eq_ok.mp h
    cases h
    exact .cons ⟨rfl, he⟩ (ih hmore)

theorem areWritten_of_encodeFields {fields : List (String × String × Value)}
    {es : List (Value × Value)} (h : encodeFields zone fields = .ok es) :
    AreWritten zone ((fields.filter fun f => !f.2.2.isNull).map fun f => (.text f.2.1, f.2.2)) es := by
  induction fields generalizing es with
  | nil =>
    cases h
    exact .nil
  | cons field rest ih =>
    obtain ⟨name, key, v⟩ := field
    rw [encodeFields] at h
    split at h
    · next hnull =>
      rw [List.filter_cons_of_neg (by simp [hnull])]
      exact ih h
    · next hnull =>
      obtain ⟨e, he, h⟩ := bind_eq_ok.mp h
      obtain ⟨more, hmore, h⟩ := bind_eq_ok.mp h
      cases h
      rw [List.filter_cons_of_pos (by simp [hnull])]
      exact .cons ⟨rfl, he⟩ (ih hmore)

theorem AreWritten.overlay {es written : List (Value × Value)} (texts : HasTextKeys es)
    (h : AreWritten zone es written) :
    AreWritten zone (overlay [] es) (overlay [] written) ∧ HasTextKeys (overlay [] written) ∧
      ((overlay [] written).map (·.1)).Nodup := by
  have hrow : AreWritten zone (ApiSmith.overlay [] es) (ApiSmith.overlay [] written) :=
    forall₂_overlay .nil h
  obtain ⟨distinct, hmem⟩ := overlay_nil_distinct texts
  have hkeys := keys_eq_of_forall₂ hrow
  refine ⟨hrow, fun e he => ?_, hkeys ▸ distinct⟩
  have hkey : e.1 ∈ (ApiSmith.overlay [] es).map (·.1) := hkeys ▸ List.mem_map_of_mem he
  obtain ⟨d, hd, hsame⟩ := List.mem_map.mp hkey
  obtain ⟨s, hs⟩ := texts d (hmem d hd)
  exact ⟨s, hsame.symm.trans hs⟩

theorem encode_map {entries : List (Value × Value)} {e : Value}
    (h : encode zone (.map entries) = .ok e) :
    ∃ es, e = .map es ∧ AreWritten zone (writtenEntries entries) es ∧ HasTextKeys es ∧
      (es.map (·.1)).Nodup := by
  rw [encode, map_eq_ok] at h
  obtain ⟨es, hes, rfl⟩ := h
  refine ⟨_, rfl, (areWritten_of_encodeEntries hes).overlay fun e he => ?_⟩
  obtain ⟨entry, -, rfl⟩ := List.mem_map.mp he
  exact ⟨_, rfl⟩

theorem encode_model {type : String} {fields : List (String × String × Value)} {e : Value}
    (h : encode zone (.model type fields) = .ok e) :
    ∃ es, e = .map es ∧ AreWritten zone (writtenFields fields) es ∧ HasTextKeys es ∧
      (es.map (·.1)).Nodup := by
  rw [encode, map_eq_ok] at h
  obtain ⟨es, hes, rfl⟩ := h
  refine ⟨_, rfl, (areWritten_of_encodeFields hes).overlay fun e he => ?_⟩
  obtain ⟨field, -, rfl⟩ := List.mem_map.mp he
  exact ⟨_, rfl⟩

/-! ## What stays as it is -/

theorem encode_map_eq_self_iff {es : List (Value × Value)} :
    encode zone (.map es) = .ok (.map es) ↔
      HasTextKeys es ∧ (es.map (·.1)).Nodup ∧ ∀ e ∈ es, encode zone e.2 = .ok e.2 := by
  have hkeys : HasTextKeys es → (es.map fun e => (Value.text e.1.display, e.2)) = es := by
    intro texts
    refine (List.map_congr_left fun e he => ?_).trans (List.map_id es)
    obtain ⟨s, hs⟩ := texts e he
    rw [hs, Value.display_text, ← hs]
    rfl
  constructor
  · intro h
    obtain ⟨es', heq, hrow, texts, distinct⟩ := encode_map h
    obtain rfl := Value.map.inj heq
    refine ⟨texts, distinct, fun e he => ?_⟩
    rw [writtenEntries, hkeys texts, overlay_nil texts distinct] at hrow
    exact (List.forall₂_same.mp hrow e he).value
  · rintro ⟨texts, distinct, parts⟩
    have hwritten : ∀ {ds : List (Value × Value)}, (∀ d ∈ ds, encode zone d.2 = .ok d.2) →
        encodeEntries zone ds = .ok (ds.map fun d => (.text d.1.display, d.2)) := by
      intro ds hds
      induction ds with
      | nil => rfl
      | cons d rest ih =>
        obtain ⟨hd, hrest⟩ := List.forall_mem_cons.mp hds
        exact bind_eq_ok.mpr ⟨d.2, hd, bind_eq_ok.mpr ⟨_, ih hrest, rfl⟩⟩
    rw [encode, map_eq_ok]
    exact ⟨_, hwritten parts, by rw [hkeys texts, overlay_nil texts distinct]⟩

theorem isJson_of_encode_eq_self : ∀ {e : Value}, encode zone e = .ok e → e.IsJson
  | .null, _ => .null
  | .bool b, _ => .bool b
  | .int n, _ => .int n
  | .float x, _ => .float x
  | .text s, _ => .text s
  | .list items, h => by
    obtain ⟨es, heq, hrow⟩ := encode_list.mp h
    obtain rfl := Value.list.inj heq
    exact .list fun v hv => isJson_of_encode_eq_self (List.forall₂_same.mp hrow v hv)
  | .map entries, h => by
    obtain ⟨texts, distinct, parts⟩ := encode_map_eq_self_iff.mp h
    exact .map texts distinct fun e he => isJson_of_encode_eq_self (parts e he)
  | .bytes octets, h => by
    rw [encode] at h
    cases h
  | .decimal d, h => by
    rw [encode] at h
    unfold encodeDecimal at h
    split at h
    · split at h <;> cases h
    all_goals cases h
  | .moment m, h => by
    rw [encode, encodeMoment] at h
    split at h <;> cases h
  | .tuple items, h => by
    rw [encode, map_eq_ok] at h
    obtain ⟨es, -, heq⟩ := h
    cases heq
  | .object fields, h => by
    rw [encode] at h
    cases h
  | .member type name value integral, h => by
    rw [encode] at h
    have hsize := congrArg sizeOf (Except.ok.inj h)
    simp only [Value.member.sizeOf_spec] at hsize
    omega
  | .model type fields, h => by
    obtain ⟨es, heq, -⟩ := encode_model h
    cases heq
  | .date d, h => by
    rw [encode] at h
    cases h
  | .foreign, h => by
    rw [encode] at h
    cases h
termination_by e => sizeOf e
decreasing_by
  · exact sizeOf_lt_list hv
  · have := List.sizeOf_lt_of_mem he
    have hpair : sizeOf e = 1 + sizeOf e.1 + sizeOf e.2 := rfl
    simp only [Value.map.sizeOf_spec]
    omega

/-- Writing leaves JSON data as it is, and nothing else. -/
theorem encode_eq_self_iff {e : Value} : encode zone e = .ok e ↔ e.IsJson := by
  refine ⟨isJson_of_encode_eq_self, fun h => ?_⟩
  induction h with
  | null | bool b | int n | float x | text s => rfl
  | list _ ih => exact encode_list.mpr ⟨_, rfl, List.forall₂_same.mpr ih⟩
  | map texts distinct _ ih => exact encode_map_eq_self_iff.mpr ⟨texts, distinct, ih⟩

/-! ## Dynamic objects -/

/-- A tagged value as it can be: objects in it have distinct keys. -/
inductive Tagged.IsDistinct : Tagged Value → Prop where
  | scalar (s : Scalar) : IsDistinct (.scalar s)
  | scalars (items : List Scalar) : IsDistinct (.scalars items)
  | object {fields : List (Value × Tagged Value)} (distinct : (fields.map (·.1)).Nodup)
      (parts : ∀ f ∈ fields, IsDistinct f.2) : IsDistinct (.object fields)
  | objects {items : List (List (Value × Tagged Value))}
      (parts : ∀ fields ∈ items, IsDistinct (.object fields)) : IsDistinct (.objects items)

/-- All keys in a tagged value are texts. -/
inductive Tagged.IsTextual : Tagged Value → Prop where
  | scalar (s : Scalar) : IsTextual (.scalar s)
  | scalars (items : List Scalar) : IsTextual (.scalars items)
  | object {fields : List (Value × Tagged Value)} (texts : HasTextKeys fields)
      (parts : ∀ f ∈ fields, IsTextual f.2) : IsTextual (.object fields)
  | objects {items : List (List (Value × Tagged Value))}
      (parts : ∀ fields ∈ items, IsTextual (.object fields)) : IsTextual (.objects items)

theorem Tagged.IsDistinct.isJson_plain_iff {t : Tagged Value} (h : t.IsDistinct) :
    t.plain.IsJson ↔ t.IsTextual := by
  induction h with
  | scalar s => exact iff_of_true s.isJson_value (.scalar s)
  | scalars items =>
    refine iff_of_true (.list fun v hv => ?_) (.scalars items)
    obtain ⟨s, -, rfl⟩ := List.mem_map.mp hv
    exact s.isJson_value
  | @object fields distinct _ ih =>
    rw [Tagged.plain, plainFields_eq_map]
    constructor
    · intro h
      cases h with
      | map texts _ parts =>
        rw [List.forall_mem_map] at texts parts
        exact .object texts fun f hf => (ih f hf).mp (parts f hf)
    · intro h
      cases h with
      | object texts parts =>
        refine .map (List.forall_mem_map.mpr texts) ?_
          (List.forall_mem_map.mpr fun f hf => (ih f hf).mpr (parts f hf))
        rwa [List.map_map, Function.comp_def]
  | @objects items _ ih =>
    rw [Tagged.plain, plainObjects_eq_map]
    constructor
    · intro h
      cases h with
      | list parts =>
        rw [List.forall_mem_map] at parts
        exact .objects fun fields hf => (ih fields hf).mp (parts fields hf)
    · intro h
      cases h with
      | objects parts =>
        exact .list (List.forall_mem_map.mpr fun fields hf => (ih fields hf).mpr (parts fields hf))

/-! ## All values -/

/-- A value as it can be: dynamic objects in it have distinct keys, and members of enums stand for
JSON data. -/
inductive Value.IsConsistent : Value → Prop where
  | null : IsConsistent .null
  | bool (b : Bool) : IsConsistent (.bool b)
  | int (n : Int) : IsConsistent (.int n)
  | float (x : Float) : IsConsistent (.float x)
  | text (s : String) : IsConsistent (.text s)
  | bytes (octets : List UInt8) : IsConsistent (.bytes octets)
  | decimal (d : Number.Decimal) : IsConsistent (.decimal d)
  | date (d : Time.Date) : IsConsistent (.date d)
  | moment (m : Time.Moment) : IsConsistent (.moment m)
  | foreign : IsConsistent .foreign
  | member {type name : String} {value : Value} {integral : Bool} (json : value.IsJson) :
      IsConsistent (.member type name value integral)
  | object {fields : DynamicObject} (distinct : (Tagged.object fields).IsDistinct) :
      IsConsistent (.object fields)
  | list {items : List Value} (parts : ∀ v ∈ items, IsConsistent v) : IsConsistent (.list items)
  | tuple {items : List Value} (parts : ∀ v ∈ items, IsConsistent v) : IsConsistent (.tuple items)
  | map {entries : List (Value × Value)} (parts : ∀ e ∈ entries, IsConsistent e.2) :
      IsConsistent (.map entries)
  | model {type : String} {fields : List (String × String × Value)}
      (parts : ∀ f ∈ fields, IsConsistent f.2.2) : IsConsistent (.model type fields)

/-- A dynamic object gets into what is written of a value. -/
inductive Value.Writes (object : DynamicObject) : Value → Prop where
  | here : Writes object (.object object)
  | item {items : List Value} {v : Value} (member : v ∈ items) (inside : Writes object v) :
      Writes object (.list items)
  | element {items : List Value} {v : Value} (member : v ∈ items) (inside : Writes object v) :
      Writes object (.tuple items)
  | entry {entries : List (Value × Value)} {e : Value × Value} (member : e ∈ writtenEntries entries)
      (inside : Writes object e.2) : Writes object (.map entries)
  | field {type : String} {fields : List (String × String × Value)} {e : Value × Value}
      (member : e ∈ writtenFields fields) (inside : Writes object e.2) :
      Writes object (.model type fields)

/-- All keys of the dynamic objects that are written are texts. -/
def Value.IsTextual (v : Value) : Prop := ∀ object, v.Writes object → (Tagged.object object).IsTextual

theorem isTextual_object {fields : DynamicObject} :
    (Value.object fields).IsTextual ↔ (Tagged.object fields).IsTextual := by
  refine ⟨fun h => h fields .here, fun h object hobject => ?_⟩
  cases hobject
  exact h

theorem isTextual_list {items : List Value} :
    (Value.list items).IsTextual ↔ ∀ v ∈ items, v.IsTextual := by
  refine ⟨fun h v hv object hobject => h object (.item hv hobject), fun h object hobject => ?_⟩
  cases hobject with
  | item hv inside => exact h _ hv object inside

theorem isTextual_tuple {items : List Value} :
    (Value.tuple items).IsTextual ↔ ∀ v ∈ items, v.IsTextual := by
  refine ⟨fun h v hv object hobject => h object (.element hv hobject), fun h object hobject => ?_⟩
  cases hobject with
  | element hv inside => exact h _ hv object inside

theorem isTextual_map {entries : List (Value × Value)} :
    (Value.map entries).IsTextual ↔ ∀ e ∈ writtenEntries entries, e.2.IsTextual := by
  refine ⟨fun h e he object hobject => h object (.entry he hobject), fun h object hobject => ?_⟩
  cases hobject with
  | entry he inside => exact h _ he object inside

theorem isTextual_model {type : String} {fields : List (String × String × Value)} :
    (Value.model type fields).IsTextual ↔ ∀ e ∈ writtenFields fields, e.2.IsTextual := by
  refine ⟨fun h e he object hobject => h object (.field he hobject), fun h object hobject => ?_⟩
  cases hobject with
  | field he inside => exact h _ he object inside

theorem exists_of_mem_writtenEntries {entries : List (Value × Value)} {e : Value × Value}
    (h : e ∈ writtenEntries entries) : ∃ entry ∈ entries, e.2 = entry.2 := by
  have texts : HasTextKeys (entries.map fun e => (Value.text e.1.display, e.2)) :=
    List.forall_mem_map.mpr fun _ _ => ⟨_, rfl⟩
  obtain ⟨entry, hentry, rfl⟩ := List.mem_map.mp ((overlay_nil_distinct texts).2 e h)
  exact ⟨entry, hentry, rfl⟩

theorem exists_of_mem_writtenFields {fields : List (String × String × Value)} {e : Value × Value}
    (h : e ∈ writtenFields fields) : ∃ f ∈ fields, e.2 = f.2.2 := by
  have texts : HasTextKeys ((fields.filter fun f => !f.2.2.isNull).map fun f =>
      (Value.text f.2.1, f.2.2)) :=
    List.forall_mem_map.mpr fun _ _ => ⟨_, rfl⟩
  obtain ⟨f, hf, rfl⟩ := List.mem_map.mp ((overlay_nil_distinct texts).2 e h)
  exact ⟨f, List.mem_of_mem_filter hf, rfl⟩

theorem forall_mem_iff_of_forall₂ {α β : Type} {R : α → β → Prop} {P : α → Prop} {Q : β → Prop}
    {xs : List α} {ys : List β} (h : List.Forall₂ R xs ys)
    (same : ∀ x ∈ xs, ∀ y, R x y → (Q y ↔ P x)) : (∀ y ∈ ys, Q y) ↔ ∀ x ∈ xs, P x := by
  induction h with
  | nil => simp
  | @cons x y _ _ hxy _ ih =>
    rw [List.forall_mem_cons, List.forall_mem_cons, same x List.mem_cons_self y hxy,
      ih fun z hz => same z (List.mem_cons_of_mem _ hz)]

theorem AreWritten.isJson_map_iff {es written : List (Value × Value)}
    (h : AreWritten zone es written)
    (texts : HasTextKeys written) (distinct : (written.map (·.1)).Nodup)
    (same : ∀ d ∈ es, ∀ e, encode zone d.2 = .ok e → (e.IsJson ↔ d.2.IsTextual)) :
    (Value.map written).IsJson ↔ ∀ d ∈ es, d.2.IsTextual := by
  have hparts : (∀ e ∈ written, e.2.IsJson) ↔ ∀ d ∈ es, d.2.IsTextual :=
    forall_mem_iff_of_forall₂ h fun d hd e hde => same d hd e.2 hde.value
  rw [← hparts]
  refine ⟨fun h => ?_, fun parts => .map texts distinct parts⟩
  cases h with
  | map _ _ parts => exact parts

theorem isJson_of_encodeDecimal {d : Number.Decimal} {e : Value} (h : encodeDecimal d = .ok e) :
    e.IsJson := by
  unfold encodeDecimal at h
  split at h
  · split at h
    · obtain rfl := Except.ok.inj h
      exact .int _
    · obtain rfl := Except.ok.inj h
      exact .float _
  · cases h
  · cases h
  · obtain rfl := Except.ok.inj h
    exact .float _

theorem isJson_of_encodeMoment {m : Time.Moment} {e : Value} (h : encodeMoment zone m = .ok e) :
    e.IsJson := by
  unfold encodeMoment at h
  split at h
  · obtain rfl := Except.ok.inj h
    exact .text _
  · cases h

theorem isJson_list_iff {vs es : List Value}
    (h : List.Forall₂ (fun v e => encode zone v = .ok e) vs es)
    (same : ∀ v ∈ vs, ∀ e, encode zone v = .ok e → (e.IsJson ↔ v.IsTextual)) :
    (Value.list es).IsJson ↔ ∀ v ∈ vs, v.IsTextual := by
  rw [← forall_mem_iff_of_forall₂ h same]
  refine ⟨fun h => ?_, fun parts => .list parts⟩
  cases h with
  | list parts => exact parts

/-- What is written of a value is JSON data exactly if all keys of the dynamic objects in it are
texts. -/
theorem isJson_iff_of_encode {v e : Value} (consistent : v.IsConsistent)
    (h : encode zone v = .ok e) :
    e.IsJson ↔ v.IsTextual := by
  induction consistent generalizing e with
  | null | bool _ | int _ | float _ | text _ =>
    rw [encode] at h
    obtain rfl := Except.ok.inj h
    exact iff_of_true (by constructor) fun _ inside => by cases inside
  | bytes octets =>
    rw [encode] at h
    obtain rfl := Except.ok.inj h
    exact iff_of_true (.text _) fun _ inside => by cases inside
  | decimal d =>
    rw [encode] at h
    exact iff_of_true (isJson_of_encodeDecimal h) fun _ inside => by cases inside
  | moment m =>
    rw [encode] at h
    exact iff_of_true (isJson_of_encodeMoment h) fun _ inside => by cases inside
  | date d =>
    rw [encode] at h
    cases h
  | foreign =>
    rw [encode] at h
    cases h
  | member json =>
    rw [encode] at h
    obtain rfl := Except.ok.inj h
    exact iff_of_true json fun _ inside => by cases inside
  | object distinct =>
    rw [encode] at h
    obtain rfl := Except.ok.inj h
    rw [isTextual_object]
    exact distinct.isJson_plain_iff
  | list _ ih =>
    obtain ⟨es, rfl, hrow⟩ := encode_list.mp h
    rw [isTextual_list]
    exact isJson_list_iff hrow fun v hv e => ih v hv
  | tuple _ ih =>
    rw [encode, map_eq_ok] at h
    obtain ⟨es, hes, rfl⟩ := h
    rw [isTextual_tuple]
    exact isJson_list_iff (encodeAll_eq_ok.mp hes) fun v hv e => ih v hv
  | map _ ih =>
    obtain ⟨es, rfl, hrow, texts, distinct⟩ := encode_map h
    rw [isTextual_map]
    refine hrow.isJson_map_iff texts distinct fun d hd e hde => ?_
    obtain ⟨entry, hentry, hvalue⟩ := exists_of_mem_writtenEntries hd
    rw [hvalue] at hde ⊢
    exact ih entry hentry hde
  | model _ ih =>
    obtain ⟨es, rfl, hrow, texts, distinct⟩ := encode_model h
    rw [isTextual_model]
    refine hrow.isJson_map_iff texts distinct fun d hd e hde => ?_
    obtain ⟨f, hf, hvalue⟩ := exists_of_mem_writtenFields hd
    rw [hvalue] at hde ⊢
    exact ih f hf hde

/-- What is written of a value is JSON data, and is written again as itself, exactly if all keys of
the dynamic objects that are written are texts. -/
theorem written_is_plain_iff (zone : Time.Zone) {v e : Value} (consistent : v.IsConsistent)
    (h : encode zone v = .ok e) :
    (e.IsJson ↔ v.IsTextual) ∧ (encode zone e = .ok e ↔ v.IsTextual) := by
  have hjson := isJson_iff_of_encode consistent h
  exact ⟨hjson, encode_eq_self_iff.trans hjson⟩

def numberedObject : DynamicObject := [(.text "a", .object [(.int 1, .scalar (.text "x"))])]

def taggedCard : Value :=
  .model "Card" [("owner", "owner", .null), ("tags", "tagList", .list [.object numberedObject])]

def writtenCard : Value :=
  .map [(.text "tagList", .list [.map [(.text "a", .map [(.int 1, .text "x")])]])]

theorem written_is_plain_iff_of_card : encode .utc taggedCard = .ok writtenCard ∧
    ¬ taggedCard.IsTextual ∧ ¬ writtenCard.IsJson ∧ encode .utc writtenCard ≠ .ok writtenCard := by
  have hinner : (Tagged.object [(.int 1, .scalar (.text "x"))]).IsDistinct :=
    .object (List.nodup_singleton _) (List.forall_mem_singleton.mpr (.scalar _))
  have hdistinct : (Tagged.object numberedObject).IsDistinct :=
    .object (List.nodup_singleton _) (List.forall_mem_singleton.mpr hinner)
  have hconsistent : taggedCard.IsConsistent := by
    refine .model (List.forall_mem_cons.mpr ⟨.null, List.forall_mem_singleton.mpr ?_⟩)
    exact .list (List.forall_mem_singleton.mpr (.object hdistinct))
  have hobject : taggedCard.Writes numberedObject :=
    .field (e := (.text "tagList", .list [.object numberedObject])) List.mem_cons_self
      (.item List.mem_cons_self .here)
  have huntextual : ¬ taggedCard.IsTextual := by
    intro h
    cases h numberedObject hobject with
    | object _ parts =>
      cases parts _ List.mem_cons_self with
      | object texts _ =>
        obtain ⟨s, hs⟩ := texts _ List.mem_cons_self
        cases hs
  have hwritten : encode .utc taggedCard = .ok writtenCard := rfl
  obtain ⟨hjson, hself⟩ := written_is_plain_iff .utc hconsistent hwritten
  exact ⟨hwritten, huntextual, fun h => huntextual (hjson.mp h), fun h => huntextual (hself.mp h)⟩

end ApiSmith
