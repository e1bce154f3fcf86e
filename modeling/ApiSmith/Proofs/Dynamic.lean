import Mathlib.Data.List.Nodup
import ApiSmith.Payload.Dynamic
import ApiSmith.Proofs.Keys
import ApiSmith.Proofs.Logged

/-!
# Dynamic objects read back

A dynamic object that is read from JSON data holds the data *pruned*: keys with values that it cannot
hold are left out, at every depth, and nothing else changes (`Value.IsJson.keeps`). What was read is
in a proper form (`Tagged.IsProper`): the scalars of a list are of one kind, a list of objects is not
empty, since an empty list is read as one of scalars, and the keys of an object are distinct texts. A
value in its proper form is written as JSON data, and reading these gives the value again, leniently
or strictly (`Tagged.IsProper.tag_plain`).
-/

namespace ApiSmith

/-! ## JSON data -/

/-- The data that JSON can say: keys are distinct texts. -/
inductive Value.IsJson : Value → Prop where
  | null : IsJson .null
  | bool (b : Bool) : IsJson (.bool b)
  | int (n : Int) : IsJson (.int n)
  | float (x : Float) : IsJson (.float x)
  | text (s : String) : IsJson (.text s)
  | list {items : List Value} (parts : ∀ v ∈ items, IsJson v) : IsJson (.list items)
  | map {entries : List (Value × Value)} (texts : ∀ e ∈ entries, ∃ s, e.1 = .text s)
    (distinct : (entries.map (·.1)).Nodup) (parts : ∀ e ∈ entries, IsJson e.2) :
    IsJson (.map entries)

theorem Scalar.isJson_value (s : Scalar) : s.value.IsJson := by
  cases s with
  | text s => exact .text s
  | bool b => exact .bool b
  | int n => exact .int n
  | float x => exact .float x

@[simp] theorem Scalar.scalar?_value (s : Scalar) : s.value.scalar? = some s := by
  cases s <;> rfl

theorem Value.IsJson.eq_of_scalar? {v : Value} (json : v.IsJson) {s : Scalar}
    (h : v.scalar? = some s) : v = s.value := by
  cases json <;> cases h <;> rfl

theorem mapM_scalar?_values (scalars : List Scalar) :
    (scalars.map Scalar.value).mapM Value.scalar? = some scalars := by
  induction scalars with
  | nil => rfl
  | cons s rest ih => simp [List.mapM_cons, ih]

/-! ## Pruned data -/

/-- The kinds of primitive values. -/
inductive Primitive where
  | text
  | bool
  | int
  | float
  deriving DecidableEq

namespace Value

def primitive? : Value → Option Primitive
  | .text _ => some .text
  | .bool _ => some .bool
  | .int _ => some .int
  | .float _ => some .float
  | _ => none

def isMap : Value → Bool
  | .map _ => true
  | _ => false

def areOfOneKind (items : List Value) : Bool :=
  [Primitive.text, .bool, .int, .float].any fun k => items.all fun v => v.primitive? = some k

/-- Whether a key with the value is left out: the value is null, or a list that neither is all of one
primitive kind nor all maps. -/
def isPruned : Value → Bool
  | .null => true
  | .list items => !(areOfOneKind items || items.all isMap)
  | _ => false

mutual

/-- A value without the keys that are left out, at every depth. -/
def prune : Value → Value
  | .map entries => .map (pruneEntries entries)
  | .list items => .list (pruneAll items)
  | v => v

def pruneEntries : List (Value × Value) → List (Value × Value)
  | [] => []
  | (k, v) :: rest =>
    if v.isPruned then pruneEntries rest else (k, v.prune) :: pruneEntries rest

def pruneAll : List Value → List Value
  | [] => []
  | v :: rest => v.prune :: pruneAll rest

end

theorem pruneAll_values (scalars : List Scalar) :
    pruneAll (scalars.map Scalar.value) = scalars.map Scalar.value := by
  induction scalars with
  | nil => rfl
  | cons s rest ih =>
    rw [List.map_cons, pruneAll, ih]
    cases s <;> rfl

end Value

/-! ## Lists of scalars -/

theorem areOfOneKind_cons {v : Value} {k : Primitive} (h : v.primitive? = some k)
    (rest : List Value) :
    Value.areOfOneKind (v :: rest) = rest.all fun w => w.primitive? = some k := by
  cases k <;> simp [Value.areOfOneKind, h]

theorem Scalar.exists_primitive (s : Scalar) :
    ∃ k, s.value.primitive? = some k ∧
      ∀ s' : Scalar, decide (s'.value.primitive? = some k) = s.alike s' := by
  cases s with
  | text s => exact ⟨.text, rfl, fun s' => by cases s' <;> rfl⟩
  | bool b => exact ⟨.bool, rfl, fun s' => by cases s' <;> rfl⟩
  | int n => exact ⟨.int, rfl, fun s' => by cases s' <;> rfl⟩
  | float x => exact ⟨.float, rfl, fun s' => by cases s' <;> rfl⟩

theorem areOfOneKind_values (s : Scalar) (rest : List Scalar) :
    Value.areOfOneKind ((s :: rest).map Scalar.value) = rest.all s.alike := by
  obtain ⟨k, hk, halike⟩ := s.exists_primitive
  rw [List.map_cons, areOfOneKind_cons hk, List.all_map]
  exact congrArg (rest.all ·) (funext halike)

theorem scalarsOf?_values (scalars : List Scalar) :
    scalarsOf? (scalars.map Scalar.value) =
      if Value.areOfOneKind (scalars.map Scalar.value) then some scalars else none := by
  rw [scalarsOf?, mapM_scalar?_values]
  cases scalars with
  | nil => rfl
  | cons s rest =>
    rw [areOfOneKind_values]
    rfl

theorem scalarsOf?_map_cons (entries : List (Value × Value)) (rest : List Value) :
    scalarsOf? (.map entries :: rest) = none := by
  simp [scalarsOf?, List.mapM_cons, Value.scalar?]

theorem scalar?_of_primitive? {v : Value} {k : Primitive} (h : v.primitive? = some k) :
    ∃ s, v.scalar? = some s := by
  cases v <;> first | exact ⟨_, rfl⟩ | cases h

theorem scalarsOf?_cases {items : List Value} (json : ∀ v ∈ items, v.IsJson) :
    (Value.areOfOneKind items = false ∧ scalarsOf? items = none) ∨
      ∃ scalars, Value.areOfOneKind items = true ∧ scalarsOf? items = some scalars ∧
        items = scalars.map Scalar.value := by
  cases hscalars : items.mapM Value.scalar? with
  | none =>
    refine .inl ⟨?_, by rw [scalarsOf?, hscalars]; rfl⟩
    rw [Bool.eq_false_iff]
    intro hkind
    obtain ⟨k, -, hk⟩ := List.any_eq_true.mp hkind
    have hall : ∀ v ∈ items, ∃ s, Value.scalar? v = some s := by
      intro v hv
      have hprimitive : v.primitive? = some k := by simpa using List.all_eq_true.mp hk v hv
      exact scalar?_of_primitive? hprimitive
    obtain ⟨scalars, hsome⟩ := exists_mapM_eq_some hall
    rw [hscalars] at hsome
    cases hsome
  | some scalars =>
    obtain rfl : items = scalars.map Scalar.value := by
      have hvalues := mapM_eq_some_iff.mp hscalars
      clear hscalars
      induction hvalues with
      | nil => rfl
      | cons hs _ ih =>
        rw [List.map_cons, ← (json _ List.mem_cons_self).eq_of_scalar? hs,
          ← ih fun v hv => json v (List.mem_cons_of_mem _ hv)]
    rw [scalarsOf?_values]
    cases hkind : Value.areOfOneKind (scalars.map Scalar.value) with
    | false => exact .inl ⟨rfl, rfl⟩
    | true => exact .inr ⟨scalars, rfl, rfl, rfl⟩

/-! ## Proper forms -/

/-- A tagged value in the form in which it is read. -/
inductive Tagged.IsProper : Tagged Value → Prop where
  | scalar (s : Scalar) : IsProper (.scalar s)
  | scalars {items : List Scalar}
      (alike : Value.areOfOneKind (items.map Scalar.value) = true) : IsProper (.scalars items)
  | object {fields : List (Value × Tagged Value)} (texts : HasTextKeys fields)
      (distinct : (fields.map (·.1)).Nodup) (parts : ∀ f ∈ fields, IsProper f.2) :
      IsProper (.object fields)
  | objects {items : List (List (Value × Tagged Value))} (nonempty : items ≠ [])
      (parts : ∀ fields ∈ items, IsProper (.object fields)) : IsProper (.objects items)

theorem plainFields_eq_map (fields : List (Value × Tagged Value)) :
    Tagged.plainFields fields = fields.map fun f => (f.1, f.2.plain) := by
  induction fields with
  | nil => rfl
  | cons f rest ih =>
    obtain ⟨k, t⟩ := f
    rw [Tagged.plainFields, List.map_cons, ih]

theorem keys_plainFields (fields : List (Value × Tagged Value)) :
    (Tagged.plainFields fields).map (·.1) = fields.map (·.1) := by
  rw [plainFields_eq_map, List.map_map, Function.comp_def]

theorem mem_plainFields {fields : List (Value × Tagged Value)} {e : Value × Value}
    (h : e ∈ Tagged.plainFields fields) : ∃ f ∈ fields, e = (f.1, f.2.plain) := by
  rw [plainFields_eq_map] at h
  obtain ⟨f, hf, rfl⟩ := List.mem_map.mp h
  exact ⟨f, hf, rfl⟩

theorem plainObjects_eq_map (items : List (List (Value × Tagged Value))) :
    Tagged.plainObjects items = items.map fun fields => (Tagged.object fields).plain := by
  induction items with
  | nil => rfl
  | cons fields rest ih => rw [Tagged.plainObjects, List.map_cons, ih, Tagged.plain]

theorem Tagged.IsProper.isJson_plain {t : Tagged Value} (h : t.IsProper) : t.plain.IsJson := by
  induction h with
  | scalar s => exact s.isJson_value
  | scalars alike =>
    refine .list fun v hv => ?_
    obtain ⟨s, -, rfl⟩ := List.mem_map.mp hv
    exact s.isJson_value
  | object texts distinct _ ih =>
    refine .map (fun e he => ?_) (by rwa [keys_plainFields]) fun e he => ?_
    · obtain ⟨f, hf, rfl⟩ := mem_plainFields he
      exact texts f hf
    · obtain ⟨f, hf, rfl⟩ := mem_plainFields he
      exact ih f hf
  | objects _ _ ih =>
    rw [Tagged.plain, plainObjects_eq_map]
    refine .list fun v hv => ?_
    obtain ⟨fields, hfields, rfl⟩ := List.mem_map.mp hv
    exact ih fields hfields

/-! ## Reading again -/

variable {strictness : Strictness}

theorem tag_map {entries : List (Value × Value)} {kept : Option (Tagged Value)} :
    (tag strictness (.map entries)).result = .ok kept ↔
      ∃ fields, (tagEntries strictness entries).result = .ok fields ∧
        kept = some (.object (settledFields strictness fields)) := by
  rw [tag, Logged.result_bind_eq_ok]
  constructor
  · rintro ⟨fields, hf, h⟩
    exact ⟨fields, hf, (Except.ok.inj h).symm⟩
  · rintro ⟨fields, hf, rfl⟩
    exact ⟨fields, hf, rfl⟩

theorem tagObjects_cons_map {entries : List (Value × Value)} {rest : List Value}
    {found : List (Option (List (Value × Tagged Value)))} :
    (tagObjects strictness (.map entries :: rest)).result = .ok found ↔
      ∃ fields more, (tagEntries strictness entries).result = .ok fields ∧
        (tagObjects strictness rest).result = .ok more ∧
          found = some (settledFields strictness fields) :: more := by
  rw [tagObjects, Logged.result_bind_eq_ok]
  constructor
  · rintro ⟨fields, hf, h⟩
    obtain ⟨more, hm, h⟩ := Logged.result_bind_eq_ok.mp h
    exact ⟨fields, more, hf, hm, (Except.ok.inj h).symm⟩
  · rintro ⟨fields, more, hf, hm, rfl⟩
    exact ⟨fields, hf, Logged.result_bind_eq_ok.mpr ⟨more, hm, rfl⟩⟩

theorem settledFields_eq {fields : List (Value × Tagged Value)} (texts : HasTextKeys fields)
    (distinct : (fields.map (·.1)).Nodup) : settledFields strictness fields = fields := by
  cases strictness with
  | lenient => rfl
  | strict =>
    have hkeys : (fields.map fun f => (Value.text f.1.display, f.2)) = fields := by
      refine (List.map_congr_left fun f hf => ?_).trans (List.map_id fields)
      obtain ⟨key, hkey⟩ := texts f hf
      rw [hkey, Value.display_text, ← hkey]
      rfl
    rw [settledFields, hkeys, overlay_nil texts distinct]

theorem tagEntries_cons_some {k v : Value} {t : Tagged Value} {rest : List (Value × Value)}
    {fields : List (Value × Tagged Value)} (hv : (tag strictness v).result = .ok (some t))
    (hrest : (tagEntries strictness rest).result = .ok fields) :
    (tagEntries strictness ((k, v) :: rest)).result = .ok ((k, t) :: fields) := by
  rw [tagEntries.eq_def, Logged.result_bind_eq_ok]
  exact ⟨some t, hv, Logged.result_bind_eq_ok.mpr ⟨fields, hrest, rfl⟩⟩

theorem tagEntries_plainFields {fields : List (Value × Tagged Value)}
    (parts : ∀ f ∈ fields, (tag strictness f.2.plain).result = .ok (some f.2)) :
    (tagEntries strictness (Tagged.plainFields fields)).result = .ok fields := by
  induction fields with
  | nil => rfl
  | cons f rest ih =>
    obtain ⟨k, t⟩ := f
    have hrest := ih fun f hf => parts f (List.mem_cons_of_mem _ hf)
    exact tagEntries_cons_some (parts (k, t) List.mem_cons_self) hrest

theorem tagObjects_plainObjects {items : List (List (Value × Tagged Value))}
    (parts : ∀ fields ∈ items,
      (tag strictness (Tagged.object fields).plain).result = .ok (some (.object fields))) :
    (tagObjects strictness (Tagged.plainObjects items)).result = .ok (items.map some) := by
  induction items with
  | nil => rfl
  | cons fields rest ih =>
    obtain ⟨found, hfound, heq⟩ := tag_map.mp (parts fields List.mem_cons_self)
    obtain rfl := Tagged.object.inj (Option.some.inj heq)
    have hrest := ih fun fields hfields => parts fields (List.mem_cons_of_mem _ hfields)
    exact tagObjects_cons_map.mpr ⟨found, _, hfound, hrest, rfl⟩

theorem allThere_map_some {α : Type} (xs : List α) : allThere (xs.map some) = some xs := by
  induction xs with
  | nil => rfl
  | cons x rest ih => simp [allThere, ih]

theorem Tagged.IsProper.tag_plain {t : Tagged Value} (h : t.IsProper) :
    (tag strictness t.plain).result = .ok (some t) := by
  induction h with
  | scalar s => cases s <;> rfl
  | @scalars items alike =>
    have hscalars : scalarsOf? (items.map Scalar.value) = some items := by
      rw [scalarsOf?_values, if_pos alike]
    simp only [Tagged.plain, tag, hscalars, Logged.result_pure]
  | object texts distinct _ ih =>
    rw [Tagged.plain, tag_map]
    exact ⟨_, tagEntries_plainFields ih, by rw [settledFields_eq texts distinct]⟩
  | @objects items nonempty _ ih =>
    have hobjects := tagObjects_plainObjects ih
    obtain ⟨fields, rest, rfl⟩ := List.exists_cons_of_ne_nil nonempty
    rw [Tagged.plainObjects] at hobjects
    simp only [Tagged.plain, Tagged.plainObjects, tag, scalarsOf?_map_cons]
    rw [Logged.result_bind_eq_ok]
    exact ⟨_, hobjects, by rw [allThere_map_some]; rfl⟩

/-! ## What is kept -/

/-- What is kept of a value: nothing if it is pruned, and else the pruned data in a proper form. -/
def Value.Keeps (v : Value) : Option (Tagged Value) → Prop
  | none => v.isPruned = true
  | some t => v.isPruned = false ∧ t.IsProper ∧ t.plain = v.prune

theorem keys_pruneEntries (entries : List (Value × Value)) :
    ((Value.pruneEntries entries).map (·.1)).Sublist (entries.map (·.1)) := by
  induction entries with
  | nil => exact .slnil
  | cons e rest ih =>
    obtain ⟨k, v⟩ := e
    rw [Value.pruneEntries]
    split
    · exact ih.cons k
    · exact ih.cons_cons k

theorem isProper_object {entries : List (Value × Value)} {fields : List (Value × Tagged Value)}
    (texts : ∀ e ∈ entries, ∃ s, e.1 = .text s) (distinct : (entries.map (·.1)).Nodup)
    (hplain : Tagged.plainFields fields = Value.pruneEntries entries)
    (parts : ∀ f ∈ fields, f.2.IsProper) : (Tagged.object fields).IsProper := by
  have hkeys : (fields.map (·.1)).Sublist (entries.map (·.1)) := by
    rw [← keys_plainFields, hplain]
    exact keys_pruneEntries entries
  refine .object (fun f hf => ?_) (distinct.sublist hkeys) parts
  obtain ⟨e, he, hkey⟩ := List.mem_map.mp (hkeys.subset (List.mem_map_of_mem hf))
  obtain ⟨s, hs⟩ := texts e he
  exact ⟨s, by rw [← hkey, hs]⟩

theorem tagEntries_keep {entries : List (Value × Value)}
    (parts : ∀ e ∈ entries, ∃ kept, (tag .lenient e.2).result = .ok kept ∧ e.2.Keeps kept) :
    ∃ fields, (tagEntries .lenient entries).result = .ok fields ∧
      Tagged.plainFields fields = Value.pruneEntries entries ∧ ∀ f ∈ fields, f.2.IsProper := by
  induction entries with
  | nil => exact ⟨[], rfl, rfl, by simp⟩
  | cons e rest ih =>
    obtain ⟨k, v⟩ := e
    obtain ⟨fields, hrest, hplain, hproper⟩ := ih fun e he => parts e (List.mem_cons_of_mem _ he)
    obtain ⟨kept, hv, hkept⟩ := parts (k, v) List.mem_cons_self
    cases kept with
    | none =>
      have hpruned : v.isPruned = true := hkept
      refine ⟨fields, ?_, by rw [hplain, Value.pruneEntries, if_pos hpruned], hproper⟩
      rw [tagEntries, Logged.result_bind_eq_ok]
      exact ⟨none, hv, Logged.result_bind_eq_ok.mpr ⟨(), rfl, hrest⟩⟩
    | some t =>
      obtain ⟨hleft, ht, hprune⟩ := hkept
      refine ⟨(k, t) :: fields, tagEntries_cons_some hv hrest, ?_, fun f hf => ?_⟩
      · rw [Tagged.plainFields, Value.pruneEntries, hplain, hprune, hleft]
        rfl
      · rcases List.mem_cons.mp hf with rfl | hf
        · exact ht
        · exact hproper f hf

theorem tagObjects_cons_other {v : Value} (json : v.IsJson) (other : v.isMap = false)
    (rest : List Value) :
    tagObjects strictness (v :: rest) =
      tagObjects strictness rest >>= fun more => pure (none :: more) := by
  cases json with
  | map => cases other
  | _ => rw [tagObjects] <;> simp

theorem tagObjects_keep {items : List Value} (json : ∀ v ∈ items, v.IsJson)
    (parts : ∀ v ∈ items, ∃ kept, (tag .lenient v).result = .ok kept ∧ v.Keeps kept) :
    ∃ found, (tagObjects .lenient items).result = .ok found ∧
      ((items.all Value.isMap = false ∧ allThere found = none) ∨
        items.all Value.isMap = true ∧ ∃ objects, allThere found = some objects ∧
          Tagged.plainObjects objects = Value.pruneAll items ∧
            ∀ fields ∈ objects, (Tagged.object fields).IsProper) := by
  induction items with
  | nil => exact ⟨[], rfl, .inr ⟨rfl, [], rfl, rfl, by simp⟩⟩
  | cons v rest ih =>
    obtain ⟨found, hfound, hcases⟩ := ih (fun w hw => json w (List.mem_cons_of_mem _ hw))
      fun w hw => parts w (List.mem_cons_of_mem _ hw)
    by_cases hmap : v.isMap = true
    · obtain ⟨kept, hv, hkept⟩ := parts v List.mem_cons_self
      cases v with
      | map entries =>
        obtain ⟨fields, hf, rfl⟩ := tag_map.mp hv
        obtain ⟨-, hproper, hplain⟩ := hkept
        refine ⟨_, tagObjects_cons_map.mpr ⟨fields, found, hf, hfound, rfl⟩, ?_⟩
        rcases hcases with ⟨hall, hnone⟩ | ⟨hall, objects, hthere, hobjects, hparts⟩
        · exact .inl ⟨by simpa [Value.isMap] using hall, by rw [allThere, hnone]; rfl⟩
        · refine .inr ⟨by simpa [Value.isMap] using hall, _ :: objects,
            by rw [allThere, hthere]; rfl, ?_, fun o ho => ?_⟩
          · rw [Tagged.plainObjects, Value.pruneAll, hobjects, ← hplain]
            rfl
          · rcases List.mem_cons.mp ho with rfl | ho
            · exact hproper
            · exact hparts o ho
      | _ => cases hmap
    · have hother : v.isMap = false := Bool.eq_false_iff.mpr hmap
      refine ⟨none :: found, ?_, .inl ⟨by simp [hother], rfl⟩⟩
      rw [tagObjects_cons_other (json v List.mem_cons_self) hother, Logged.result_bind_eq_ok]
      exact ⟨found, hfound, rfl⟩

/-- Reading JSON data leniently has a result, and it is what is to be kept. -/
theorem Value.IsJson.keeps {v : Value} (json : v.IsJson) :
    ∃ kept, (tag .lenient v).result = .ok kept ∧ v.Keeps kept := by
  induction json with
  | null => exact ⟨none, rfl, rfl⟩
  | bool b => exact ⟨some (.scalar (.bool b)), rfl, rfl, .scalar _, rfl⟩
  | int n => exact ⟨some (.scalar (.int n)), rfl, rfl, .scalar _, rfl⟩
  | float x => exact ⟨some (.scalar (.float x)), rfl, rfl, .scalar _, rfl⟩
  | text s => exact ⟨some (.scalar (.text s)), rfl, rfl, .scalar _, rfl⟩
  | @list items json ih =>
    rcases scalarsOf?_cases json with ⟨hkind, hnone⟩ | ⟨scalars, hkind, hsome, hitems⟩
    · obtain ⟨found, hfound, hcases⟩ := tagObjects_keep json ih
      have htag : (tag .lenient (.list items)).result = .ok ((allThere found).map .objects) := by
        simp only [tag, hnone]
        rw [Logged.result_bind_eq_ok]
        exact ⟨found, hfound, rfl⟩
      refine ⟨_, htag, ?_⟩
      rcases hcases with ⟨hall, hthere⟩ | ⟨hall, objects, hthere, hplain, hparts⟩
      · rw [hthere]
        show (!(Value.areOfOneKind items || items.all Value.isMap)) = true
        rw [hkind, hall]
        rfl
      · -- An empty list is one of scalars, so that there is an object in this one.
        have hnonempty : objects ≠ [] := by
          rintro rfl
          cases items with
          | nil => cases hkind
          | cons v rest => cases hplain
        rw [hthere]
        refine ⟨by rw [Value.isPruned, hkind, hall]; rfl, .objects hnonempty hparts, ?_⟩
        rw [Tagged.plain, hplain, Value.prune]
    · refine ⟨some (.scalars scalars), by simp only [tag, hsome, Logged.result_pure], ?_⟩
      refine ⟨by rw [Value.isPruned, hkind]; rfl, .scalars (hitems ▸ hkind), ?_⟩
      rw [Tagged.plain, Value.prune, hitems, Value.pruneAll_values]
  | map texts distinct _ ih =>
    obtain ⟨fields, hfields, hplain, hparts⟩ := tagEntries_keep ih
    refine ⟨_, tag_map.mpr ⟨fields, hfields, rfl⟩, rfl,
      isProper_object texts distinct hplain hparts, ?_⟩
    rw [Value.prune, ← hplain]
    rfl

theorem ofPayload_map {entries : List (Value × Value)} (json : (Value.map entries).IsJson) :
    ∃ o : DynamicObject, (DynamicObject.ofPayload (.map entries)).result = .ok o ∧
      o.plain = .map (Value.pruneEntries entries) ∧ (Tagged.object o).IsProper := by
  obtain ⟨kept, htag, hkept⟩ := json.keeps
  obtain ⟨fields, hfields, rfl⟩ := tag_map.mp htag
  obtain ⟨-, hproper, hplain⟩ := hkept
  exact ⟨fields, hfields, hplain, hproper⟩

theorem ofPayload_of_isProper {o : DynamicObject} (proper : (Tagged.object o).IsProper) :
    (DynamicObject.ofPayload o.plain).result = .ok o := by
  obtain ⟨fields, hfields, heq⟩ := tag_map.mp (@Tagged.IsProper.tag_plain .lenient _ proper)
  obtain rfl := Tagged.object.inj (Option.some.inj heq)
  exact hfields

/-- A dynamic object that was read from JSON data is JSON data when it is written, and is read from
that again. -/
theorem ofPayload_plain {d : Value} (json : d.IsJson) {fields : DynamicObject}
    (h : (DynamicObject.ofPayload d).result = .ok fields) :
    (DynamicObject.plain fields).IsJson ∧
      (DynamicObject.ofPayload (DynamicObject.plain fields)).result = .ok fields := by
  cases json with
  | map texts distinct parts =>
    obtain ⟨o, ho, -, hproper⟩ := ofPayload_map (.map texts distinct parts)
    obtain rfl := Except.ok.inj (ho.symm.trans h)
    exact ⟨hproper.isJson_plain, ofPayload_of_isProper hproper⟩
  | _ => cases h

end ApiSmith
