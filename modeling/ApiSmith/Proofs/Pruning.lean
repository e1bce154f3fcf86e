import ApiSmith.Proofs.Dynamic

/-!
# Objects of pruned data

The dynamic object of a JSON object (`ofPayload_holds_pruned`) is written as the pruned data, and
looking at it shows what is written. Both ways back lead to it: reading what is written, and
making an object of what is shown, which refuses what reading leaves out. An object is the same as
itself in the sense of `Value.same` as long as no number in it is a NaN.
-/

namespace ApiSmith

/-! ## Two walks over an object -/

namespace Tagged

mutual

theorem untag_eq_plain (t : Tagged Value) : t.untag = t.plain := by
  cases t with
  | scalar s => rfl
  | scalars items => rfl
  | object fields => rw [untag, plain, untagFields_eq_plainFields fields]
  | objects items => rw [untag, plain, untagObjects_eq_plainObjects items]

theorem untagFields_eq_plainFields (fields : List (Value × Tagged Value)) :
    untagFields fields = plainFields fields := by
  cases fields with
  | nil => rfl
  | cons f rest =>
    obtain ⟨k, t⟩ := f
    rw [untagFields, plainFields, untag_eq_plain t, untagFields_eq_plainFields rest]

theorem untagObjects_eq_plainObjects (items : List (List (Value × Tagged Value))) :
    untagObjects items = plainObjects items := by
  cases items with
  | nil => rfl
  | cons fields rest =>
    rw [untagObjects, plainObjects, untagFields_eq_plainFields fields,
      untagObjects_eq_plainObjects rest]

end

end Tagged

theorem DynamicObject.info_eq_plain (o : DynamicObject) : o.info = o.plain := by
  rw [info, plain, Tagged.untagFields_eq_plainFields]

/-- An object in its proper form is made of what is written of it: nothing in it is refused, and no
two of its keys are one. -/
theorem make_of_isProper {o : DynamicObject} (proper : (Tagged.object o).IsProper) :
    (DynamicObject.make o.plain).result = .ok o := by
  obtain ⟨fields, hfields, heq⟩ := tag_map.mp (@Tagged.IsProper.tag_plain .strict _ proper)
  have hsettled : o = settledFields .strict fields := Tagged.object.inj (Option.some.inj heq)
  show (tagEntries .strict (Tagged.plainFields o) >>= fun fields =>
    pure (settledFields .strict fields)).result = .ok o
  rw [Logged.result_bind_eq_ok]
  exact ⟨fields, hfields, by rw [← hsettled]; rfl⟩

/-! ## Sameness -/

/-- A number that is a NaN stands in JSON data. -/
inductive Value.HasNaN : Value → Prop where
  | float {x : Float} (nan : x.isNaN = true) : HasNaN (.float x)
  | element {items : List Value} {v : Value} (member : v ∈ items) (inside : HasNaN v) :
      HasNaN (.list items)
  | entry {entries : List (Value × Value)} {e : Value × Value} (member : e ∈ entries)
      (inside : HasNaN e.2) : HasNaN (.map entries)

theorem float_beq_self {x : Float} (h : x.isNaN = false) : (x == x) = true := by
  show (x.toModel.unpack.compare x.toModel.unpack == some .eq) = true
  have hnan : x.toModel.unpack.isNaN = false := h
  cases hx : x.toModel.unpack with
  | notANumber =>
    rw [hx] at hnan
    cases hnan
  | infinity sign => cases sign <;> rfl
  | zero sign => rfl
  | finite sign m e pos =>
    have hself : (compare e e).then (compare m m) = .eq := by simp
    cases sign with
    | negative =>
      show (some ((compare e e).then (compare m m)).swap == some .eq) = true
      rw [hself]
      rfl
    | positive =>
      show (some ((compare e e).then (compare m m)) == some .eq) = true
      rw [hself]
      rfl

theorem Scalar.same_self {s : Scalar} (h : ¬s.value.HasNaN) : s.same s = true := by
  cases s with
  | text s => exact beq_self_eq_true s
  | bool b => exact beq_self_eq_true b
  | int n => exact beq_self_eq_true n
  | float x => exact float_beq_self (Bool.eq_false_iff.mpr fun nan => h (.float nan))

theorem Scalar.sameAll_self {scalars : List Scalar}
    (h : ∀ s ∈ scalars, s.same s = true) : Scalar.sameAll scalars scalars = true := by
  induction scalars with
  | nil => rfl
  | cons s rest ih =>
    rw [Scalar.sameAll, h s List.mem_cons_self, ih fun s hs => h s (List.mem_cons_of_mem _ hs)]
    rfl

theorem sameFields_of_subset {part whole : List (Value × Tagged Value)} (subset : part ⊆ whole)
    (texts : HasTextKeys whole) (same : ∀ f ∈ whole, Value.sameTagged f.2 f.2 = true) :
    Value.sameFields part whole = true := by
  induction part with
  | nil => rw [Value.sameFields]
  | cons f rest ih =>
    obtain ⟨k, t⟩ := f
    have hf : (k, t) ∈ whole := subset List.mem_cons_self
    obtain ⟨s, hs⟩ := texts (k, t) hf
    have hkey : k.same k = true := by
      rw [show k = .text s from hs, Value.same_text, Value.isText_iff]
    rw [Value.sameFields, ih fun f hf => subset (List.mem_cons_of_mem _ hf), Bool.and_true]
    exact List.any_eq_true.mpr ⟨(k, t), hf, by rw [hkey, same (k, t) hf]; rfl⟩

theorem sameObjects_self {items : List (List (Value × Tagged Value))}
    (h : ∀ fields ∈ items, Value.sameFields fields fields = true) :
    Value.sameObjects items items = true := by
  induction items with
  | nil => rw [Value.sameObjects]
  | cons fields rest ih =>
    rw [Value.sameObjects, h fields List.mem_cons_self,
      ih fun fields hf => h fields (List.mem_cons_of_mem _ hf), beq_self_eq_true]
    rfl

theorem plain_mem_plainFields {fields : List (Value × Tagged Value)} {f : Value × Tagged Value}
    (h : f ∈ fields) : (f.1, f.2.plain) ∈ Tagged.plainFields fields := by
  rw [plainFields_eq_map]
  exact List.mem_map.mpr ⟨f, h, rfl⟩

theorem Tagged.IsProper.same_self {t : Tagged Value} (proper : t.IsProper)
    (numbers : ¬t.plain.HasNaN) : Value.sameTagged t t = true := by
  induction proper with
  | scalar s =>
    rw [Value.sameTagged]
    exact s.same_self numbers
  | @scalars items alike =>
    rw [Value.sameTagged]
    refine Scalar.sameAll_self fun s hs => s.same_self fun nan => ?_
    exact numbers (.element (List.mem_map_of_mem hs) nan)
  | @object fields texts distinct _ ih =>
    rw [Value.sameTagged, beq_self_eq_true, Bool.true_and]
    refine sameFields_of_subset (List.Subset.refl fields) texts fun f hf => ih f hf fun nan => ?_
    exact numbers (.entry (plain_mem_plainFields hf) nan)
  | @objects items _ _ ih =>
    rw [Value.sameTagged]
    refine sameObjects_self fun fields hfields => ?_
    have hsame : Value.sameTagged (.object fields) (.object fields) = true := by
      refine ih fields hfields fun nan => numbers ?_
      rw [Tagged.plain, plainObjects_eq_map]
      exact .element (List.mem_map_of_mem hfields) nan
    rw [Value.sameTagged, beq_self_eq_true, Bool.true_and] at hsame
    exact hsame

/-! ## Pruned data -/

theorem mem_pruneAll {items : List Value} {v : Value} (h : v ∈ Value.pruneAll items) :
    ∃ w ∈ items, v = w.prune := by
  induction items with
  | nil => cases h
  | cons w rest ih =>
    rcases List.mem_cons.mp h with rfl | h
    · exact ⟨w, List.mem_cons_self, rfl⟩
    · obtain ⟨w, hw, rfl⟩ := ih h
      exact ⟨w, List.mem_cons_of_mem _ hw, rfl⟩

theorem mem_pruneEntries {entries : List (Value × Value)} {e : Value × Value}
    (h : e ∈ Value.pruneEntries entries) :
    ∃ d ∈ entries, d.2.isPruned = false ∧ e = (d.1, d.2.prune) := by
  induction entries with
  | nil => cases h
  | cons d rest ih =>
    obtain ⟨k, v⟩ := d
    have later (h : e ∈ Value.pruneEntries rest) :
        ∃ d ∈ (k, v) :: rest, d.2.isPruned = false ∧ e = (d.1, d.2.prune) := by
      obtain ⟨d, hd, hleft⟩ := ih h
      exact ⟨d, List.mem_cons_of_mem _ hd, hleft⟩
    rw [Value.pruneEntries] at h
    split at h
    · exact later h
    · next hleft =>
      rcases List.mem_cons.mp h with rfl | h
      · exact ⟨(k, v), List.mem_cons_self, Bool.eq_false_iff.mpr hleft, rfl⟩
      · exact later h

theorem Value.HasNaN.of_prune {d : Value} (json : d.IsJson) (h : d.prune.HasNaN) : d.HasNaN := by
  induction json with
  | list _ ih =>
    rw [Value.prune] at h
    cases h with
    | element member inside =>
      obtain ⟨v, hv, rfl⟩ := mem_pruneAll member
      exact .element hv (ih v hv inside)
  | map _ _ _ ih =>
    rw [Value.prune] at h
    cases h with
    | entry member inside =>
      obtain ⟨e, he, -, rfl⟩ := mem_pruneEntries member
      exact .entry he (ih e he inside)
  | _ => exact h

/-- The dynamic object of a JSON object holds its pruned data: these are written, and shown; reading
what is written gives the object again, and so does making one of what is shown. Without a NaN in
the data, the object compares equal to itself. -/
theorem ofPayload_holds_pruned {entries : List (Value × Value)}
    (json : (Value.map entries).IsJson) :
    ∃ o : DynamicObject, (DynamicObject.ofPayload (.map entries)).result = .ok o ∧
      o.plain = (Value.map entries).prune ∧ o.info = o.plain ∧
      (DynamicObject.ofPayload o.plain).result = .ok o ∧
      (DynamicObject.make o.info).result = .ok o ∧
      (¬(Value.map entries).HasNaN → (Value.object o).same (.object o) = true) := by
  obtain ⟨o, hread, hplain, proper⟩ := ofPayload_map json
  have hmade : (DynamicObject.make o.info).result = .ok o := by
    rw [o.info_eq_plain]
    exact make_of_isProper proper
  refine ⟨o, hread, by rw [hplain, Value.prune], o.info_eq_plain, ofPayload_of_isProper proper,
    hmade, fun numbers => ?_⟩
  have hsame : Value.sameTagged (.object o) (.object o) = true := by
    refine proper.same_self fun nan => numbers (.of_prune json ?_)
    have hwritten : (Tagged.object o).plain = (Value.map entries).prune := by
      rw [Value.prune, ← hplain]
      rfl
    rwa [hwritten] at nan
  rwa [Value.same, ← Value.sameTagged]

/-- An account with an object, a list of objects, an empty list and a list of mixed kinds. -/
def accountData : List (Value × Value) :=
  [(.text "name", .text "card"),
    (.text "owner", .map [(.text "id", .int 1), (.text "memo", .null)]),
    (.text "tags", .list []),
    (.text "steps", .list [.map [(.text "sum", .int 2), (.text "note", .null)], .map []]),
    (.text "marks", .list [.bool true, .int 1])]

theorem isJson_accountData : (Value.map accountData).IsJson := by
  have howner : (Value.map [(.text "id", .int 1), (.text "memo", .null)]).IsJson :=
    .map (by simp) (by simp) (by simp [Value.IsJson.int, Value.IsJson.null])
  have hstep : (Value.map [(.text "sum", .int 2), (.text "note", .null)]).IsJson :=
    .map (by simp) (by simp) (by simp [Value.IsJson.int, Value.IsJson.null])
  have hempty : (Value.map []).IsJson := .map (by simp) (by simp) (by simp)
  have hmarks : (Value.list [.bool true, .int 1]).IsJson :=
    .list (by simp [Value.IsJson.bool, Value.IsJson.int])
  refine .map (by simp [accountData]) (by simp [accountData]) ?_
  simp [accountData, howner, hmarks, Value.IsJson.text, Value.IsJson.list, hstep, hempty]

/-- The memo, the note and the mixed list are left out. -/
theorem ofPayload_holds_pruned_for_account :
    ∃ o : DynamicObject, (DynamicObject.ofPayload (.map accountData)).result = .ok o ∧
      o.plain = .map [(.text "name", .text "card"), (.text "owner", .map [(.text "id", .int 1)]),
        (.text "tags", .list []),
        (.text "steps", .list [.map [(.text "sum", .int 2)], .map []])] ∧
      (DynamicObject.make o.info).result = .ok o := by
  obtain ⟨o, hread, hplain, -, -, hmade, -⟩ := ofPayload_holds_pruned isJson_accountData
  exact ⟨o, hread, hplain.trans rfl, hmade⟩

end ApiSmith
