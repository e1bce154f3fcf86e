import ApiSmith.Proofs.Pruning

/-!
# Strict objects and lenient ones

Making an object of JSON data and reading it from the data go over the data in one order. Reading
leaves keys out and says so; making stops at the first key that reading leaves out
(`make_refuses_dropped`). The order matters inside a list: its maps are gone over before it is known
that the list is none of objects, so a key in one of them comes before the key of the list. The two
are run side by side (`Agrees`), and what is left out is the same on both.
-/

namespace ApiSmith

/-! ## What is left out -/

namespace Value

mutual

/-- The entries that are left out inside a value, in the order in which they are met. -/
def dropped : Value → List (Value × Value)
  | .map entries => droppedOfEntries entries
  | .list items => droppedOfItems items
  | _ => []

def droppedOfEntries : List (Value × Value) → List (Value × Value)
  | [] => []
  | (key, value) :: rest =>
    value.dropped ++ (if value.isPruned then [(key, value)] else []) ++ droppedOfEntries rest

def droppedOfItems : List Value → List (Value × Value)
  | [] => []
  | .map entries :: rest => droppedOfEntries entries ++ droppedOfItems rest
  | _ :: rest => droppedOfItems rest

end

theorem droppedOfItems_cons_other {v : Value} (other : v.isMap = false) (rest : List Value) :
    droppedOfItems (v :: rest) = droppedOfItems rest := by
  cases v with
  | map => cases other
  | _ => rw [droppedOfItems]; simp

theorem droppedOfItems_values (scalars : List Scalar) :
    droppedOfItems (scalars.map Scalar.value) = [] := by
  induction scalars with
  | nil => rw [List.map_nil, droppedOfItems]
  | cons s rest ih =>
    rw [List.map_cons, droppedOfItems_cons_other (by cases s <;> rfl), ih]

theorem length_pruneEntries_le (entries : List (Value × Value)) :
    (pruneEntries entries).length ≤ entries.length := by
  simpa using (keys_pruneEntries entries).length_le

theorem pruneEntries_eq_iff {entries : List (Value × Value)}
    (parts : ∀ e ∈ entries, e.2.isPruned = false → (e.2.prune = e.2 ↔ e.2.dropped = [])) :
    pruneEntries entries = entries ↔ droppedOfEntries entries = [] := by
  induction entries with
  | nil => simp [pruneEntries, droppedOfEntries]
  | cons e rest ih =>
    obtain ⟨k, v⟩ := e
    have hrest := ih fun e he => parts e (List.mem_cons_of_mem _ he)
    cases hv : v.isPruned with
    | true =>
      refine iff_of_false (fun hsame => ?_) (by simp [droppedOfEntries, hv])
      rw [pruneEntries, if_pos hv] at hsame
      have hshort := length_pruneEntries_le rest
      rw [hsame, List.length_cons] at hshort
      omega
    | false =>
      have hpart : v.prune = v ↔ v.dropped = [] := parts (k, v) List.mem_cons_self hv
      simp [pruneEntries, droppedOfEntries, hv, hrest, hpart]

theorem pruneAll_eq_iff {items : List Value} (maps : ∀ v ∈ items, v.isMap = true)
    (parts : ∀ v ∈ items, v.isPruned = false → (v.prune = v ↔ v.dropped = [])) :
    pruneAll items = items ↔ droppedOfItems items = [] := by
  induction items with
  | nil => simp [pruneAll, droppedOfItems]
  | cons v rest ih =>
    have hrest := ih (fun w hw => maps w (List.mem_cons_of_mem _ hw))
      fun w hw => parts w (List.mem_cons_of_mem _ hw)
    have hv := maps v List.mem_cons_self
    cases v with
    | map entries =>
      have hpart := parts (.map entries) List.mem_cons_self rfl
      rw [dropped] at hpart
      simp [pruneAll, droppedOfItems, hpart, hrest]
    | _ => cases hv

theorem IsJson.prune_eq_iff {v : Value} (json : v.IsJson) (left : v.isPruned = false) :
    v.prune = v ↔ v.dropped = [] := by
  induction json with
  | @list items json ih =>
    rw [prune, dropped, Value.list.injEq]
    rcases scalarsOf?_cases json with ⟨hkind, -⟩ | ⟨scalars, -, -, rfl⟩
    · have hmaps : items.all isMap = true := by simpa [isPruned, hkind] using left
      exact pruneAll_eq_iff (List.all_eq_true.mp hmaps) ih
    · exact iff_of_true (pruneAll_values scalars) (droppedOfItems_values scalars)
  | map _ _ _ ih =>
    rw [prune, dropped, Value.map.injEq]
    exact pruneEntries_eq_iff ih
  | _ => exact iff_of_true rfl rfl

end Value

/-! ## Two runs side by side -/

def refusing {α : Type} (a : α) : List (Value × Value) → Except DynamicFault α
  | [] => .ok a
  | (key, value) :: _ => .error (.unsupported key value)

/-- A lenient run leaves entries out and says so, and has a result. A strict run stops at the first
of them, and has the same result if there is none. -/
def Agrees {α : Type} (lenient strict : Logged DynamicFault α)
    (dropped : List (Value × Value)) : Prop :=
  ∃ a, lenient.result = .ok a ∧
    lenient.log = dropped.flatMap (fun d => (droppedRecord d.1 d.2).log) ∧
    strict.result = refusing a dropped

namespace Agrees

variable {α β : Type} {lenient strict : Logged DynamicFault α} {ds es : List (Value × Value)}

theorem pure (a : α) : Agrees (Pure.pure a) (Pure.pure a) [] := ⟨a, rfl, rfl, rfl⟩

theorem bind {f g : α → Logged DynamicFault β} (h : Agrees lenient strict ds)
    (next : ∀ a, lenient.result = .ok a → Agrees (f a) (g a) es) :
    Agrees (lenient >>= f) (strict >>= g) (ds ++ es) := by
  obtain ⟨a, ha, hlog, hstrict⟩ := h
  obtain ⟨b, hb, hlog', hstrict'⟩ := next a ha
  refine ⟨b, Logged.result_bind_eq_ok.mpr ⟨a, ha, hb⟩, ?_, ?_⟩
  · rw [Logged.log_bind_of_ok ha, hlog, hlog', List.flatMap_append]
  · cases ds with
    | nil => rw [Logged.result_bind_of_ok hstrict, hstrict', List.nil_append]
    | cons d rest =>
      rw [Logged.result_bind_of_error hstrict]
      rfl

theorem map {f g : α → β} (h : Agrees lenient strict ds)
    (same : ∀ a, lenient.result = .ok a → f a = g a) :
    Agrees (lenient >>= fun a => Pure.pure (f a)) (strict >>= fun a => Pure.pure (g a)) ds := by
  have hbind : Agrees (lenient >>= fun a => Pure.pure (f a)) (strict >>= fun a => Pure.pure (g a))
      (ds ++ []) := by
    refine h.bind fun a ha => ?_
    rw [same a ha]
    exact .pure _
  rwa [List.append_nil] at hbind

theorem drop (h : Agrees lenient strict ds) (key value : Value) :
    Agrees (droppedRecord key value >>= fun _ => lenient) (.fail (.unsupported key value))
      ((key, value) :: ds) := by
  obtain ⟨a, ha, hlog, -⟩ := h
  have hnoted : (droppedRecord key value).result = .ok () := rfl
  refine ⟨a, Logged.result_bind_eq_ok.mpr ⟨(), hnoted, ha⟩, ?_, rfl⟩
  rw [Logged.log_bind_of_ok hnoted, hlog, List.flatMap_cons]

end Agrees

/-! ## Tagging on both sides -/

theorem Value.IsJson.of_entry {entries : List (Value × Value)} (json : (Value.map entries).IsJson) :
    ∀ e ∈ entries, e.2.IsJson := by
  cases json with
  | map _ _ parts => exact parts

theorem Value.IsJson.of_element {items : List Value} (json : (Value.list items).IsJson) :
    ∀ v ∈ items, v.IsJson := by
  cases json with
  | list parts => exact parts

theorem settledFields_of_tagEntries {entries : List (Value × Value)}
    (json : (Value.map entries).IsJson) {fields : List (Value × Tagged Value)}
    (h : (tagEntries .lenient entries).result = .ok fields) :
    settledFields .strict fields = fields := by
  obtain ⟨o, ho, -, proper⟩ := ofPayload_map json
  cases ho.symm.trans h
  cases proper with
  | object texts distinct => exact settledFields_eq texts distinct

mutual

theorem agrees_tag (v : Value) (json : v.IsJson) :
    Agrees (tag .lenient v) (tag .strict v) v.dropped := by
  cases v with
  | map entries =>
    rw [tag, tag, Value.dropped]
    refine (agrees_tagEntries entries json.of_entry).map fun fields hfields => ?_
    rw [settledFields_of_tagEntries json hfields]
    rfl
  | list items =>
    have parts : ∀ v ∈ items, v.IsJson := json.of_element
    rw [Value.dropped]
    rcases scalarsOf?_cases parts with ⟨-, hnone⟩ | ⟨scalars, -, hsome, hitems⟩
    · simp only [tag, hnone]
      exact (agrees_tagObjects items parts).map fun _ _ => rfl
    · simp only [tag, hsome]
      rw [hitems, Value.droppedOfItems_values]
      exact .pure _
  | null => exact .pure _
  | bool b => exact .pure _
  | int n => exact .pure _
  | float x => exact .pure _
  | text s => exact .pure _
  | _ => cases json

theorem agrees_tagEntries (entries : List (Value × Value)) (json : ∀ e ∈ entries, e.2.IsJson) :
    Agrees (tagEntries .lenient entries) (tagEntries .strict entries)
      (Value.droppedOfEntries entries) := by
  cases entries with
  | nil => exact .pure []
  | cons e rest =>
    obtain ⟨k, v⟩ := e
    have hfirst : v.IsJson := json (k, v) List.mem_cons_self
    have hrest := agrees_tagEntries rest fun e he => json e (List.mem_cons_of_mem _ he)
    obtain ⟨kept, htag, hkept⟩ := hfirst.keeps
    rw [tagEntries.eq_def, tagEntries.eq_def .strict, Value.droppedOfEntries, List.append_assoc]
    refine (agrees_tag v hfirst).bind fun kept' htag' => ?_
    cases htag.symm.trans htag'
    cases kept with
    | none =>
      have hpruned : v.isPruned = true := hkept
      rw [if_pos hpruned]
      exact hrest.drop k v
    | some t =>
      rw [hkept.1]
      exact hrest.map fun _ _ => rfl

theorem agrees_tagObjects (items : List Value) (json : ∀ v ∈ items, v.IsJson) :
    Agrees (tagObjects .lenient items) (tagObjects .strict items)
      (Value.droppedOfItems items) := by
  cases items with
  | nil => exact .pure []
  | cons v rest =>
    have hfirst : v.IsJson := json v List.mem_cons_self
    have hrest := agrees_tagObjects rest fun v hv => json v (List.mem_cons_of_mem _ hv)
    cases hmap : v.isMap with
    | false =>
      rw [tagObjects_cons_other hfirst hmap, tagObjects_cons_other hfirst hmap,
        Value.droppedOfItems_cons_other hmap]
      exact hrest.map fun _ _ => rfl
    | true =>
      cases v with
      | map entries =>
        rw [tagObjects, tagObjects, Value.droppedOfItems]
        refine (agrees_tagEntries entries hfirst.of_entry).bind fun fields hfields => ?_
        rw [settledFields_of_tagEntries hfirst hfields]
        exact hrest.map fun _ _ => rfl
      | _ => cases hmap

end

/-! ## Strictly made objects -/

theorem exists_refusing_eq_error_iff {α : Type} {a : α} {dropped : List (Value × Value)} :
    (∃ fault, refusing a dropped = .error fault) ↔ dropped ≠ [] := by
  cases dropped with
  | nil => exact iff_of_false nofun fun h => h rfl
  | cons d rest => exact iff_of_true ⟨_, rfl⟩ (List.cons_ne_nil d rest)

/-- An object of JSON data is refused exactly if reading it from the data leaves an entry out, and
the refusal names the first entry that does. If none is left out, reading and making give one
object, and what is written of it is the data. Without a NaN in the data it compares equal to
itself. -/
theorem make_refuses_dropped {entries : List (Value × Value)}
    (json : (Value.map entries).IsJson) :
    ∃ o : DynamicObject, (DynamicObject.ofPayload (.map entries)).result = .ok o ∧
      (DynamicObject.ofPayload (.map entries)).log =
        (Value.map entries).dropped.flatMap (fun d => (droppedRecord d.1 d.2).log) ∧
      (o.plain = .map entries ↔ (Value.map entries).dropped = []) ∧
      ((∃ fault, (DynamicObject.make (.map entries)).result = .error fault) ↔
        (Value.map entries).dropped ≠ []) ∧
      (DynamicObject.make (.map entries)).result = refusing o (Value.map entries).dropped ∧
      (¬(Value.map entries).HasNaN → (Value.object o).same (.object o) = true) := by
  obtain ⟨o, hread, hplain, -, -, -, hsame⟩ := ofPayload_holds_pruned json
  have hentries := agrees_tagEntries entries json.of_entry
  have hmake : Agrees (DynamicObject.ofPayload (.map entries)) (DynamicObject.make (.map entries))
      (Value.map entries).dropped := by
    have hmap := hentries.map (f := id) (g := settledFields .strict) fun fields hfields =>
      (settledFields_of_tagEntries json hfields).symm
    rw [Value.dropped]
    rwa [show (tagEntries .lenient entries >>= fun fields => pure (id fields)) =
      tagEntries .lenient entries from bind_pure _] at hmap
  obtain ⟨o', hread', hlog, hstrict⟩ := hmake
  cases hread.symm.trans hread'
  refine ⟨o, hread, hlog, ?_, ?_, hstrict, hsame⟩
  · rw [hplain]
    exact json.prune_eq_iff rfl
  · rw [hstrict]
    exact exists_refusing_eq_error_iff

def mixedData : List (Value × Value) :=
  [(.text "n", .int 1), (.text "a", .list [.int 1, .map [(.text "b", .null)]])]

theorem isJson_mixedData : (Value.map mixedData).IsJson := by
  have hinner : (Value.map [(.text "b", .null)]).IsJson :=
    .map (by simp) (by simp) (by simp [Value.IsJson.null])
  have hlist : (Value.list [.int 1, .map [(.text "b", .null)]]).IsJson :=
    .list (by simp [Value.IsJson.int, hinner])
  refine .map (by simp [mixedData]) (by simp [mixedData]) ?_
  simp [mixedData, Value.IsJson.int, hlist]

/-- The null in the object is met before the list that it stands in. -/
theorem make_refuses_dropped_of_mixed :
    (DynamicObject.make (.map mixedData)).result = .error (.unsupported (.text "b") .null) ∧
    (DynamicObject.ofPayload (.map mixedData)).log.map (·.text) =
      ["Dropping key 'b' with unsupported value None",
        "Dropping key 'a' with unsupported value [1, \x7b'b': None\x7d]"] ∧
    ∃ o, (DynamicObject.ofPayload (.map [(.text "n", .int 1)])).result = .ok o ∧
      (DynamicObject.make (.map [(.text "n", .int 1)])).result = .ok o := by
  have hclean : (Value.map [(.text "n", .int 1)]).IsJson :=
    .map (by simp) (by simp) (by simp [Value.IsJson.int])
  obtain ⟨o, -, hlog, -, -, hmixed, -⟩ := make_refuses_dropped isJson_mixedData
  obtain ⟨o', hread, -, -, -, hmade, -⟩ := make_refuses_dropped hclean
  refine ⟨hmixed, ?_, o', hread, hmade⟩
  rw [hlog]
  decide +kernel

end ApiSmith
