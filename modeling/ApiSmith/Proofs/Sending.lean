import ApiSmith.Proofs.Inhabitants

/-!
# What was read and is sent

Not every value that was read can be written again (`received_is_sent_iff`). Reading lets through
decimals that are infinite or signal, and moments without an offset that the time zone of the
process has no place for; none of these has a written form, and a value is written exactly if none of
them stands anywhere in it. Nothing else can go wrong, since a value of a type that generated code names
has no part of a kind that is never written.
-/

namespace ApiSmith

open Time (Zone)

/-- A value stands somewhere in another one. -/
inductive Value.StandsIn (leaf : Value) : Value → Prop where
  | here : StandsIn leaf leaf
  | element {items : List Value} {v : Value} (member : v ∈ items) (inside : StandsIn leaf v) :
      StandsIn leaf (.list items)
  | field {type : String} {fields : List (String × String × Value)}
      {x : String × String × Value} (member : x ∈ fields) (inside : StandsIn leaf x.2.2) :
      StandsIn leaf (.model type fields)

/-- A moment without an offset that the zone has no place for. -/
def Time.Moment.IsUnsent (zone : Zone) (m : Time.Moment) : Prop :=
  m.offset = none ∧ zone.place? m = none

/-- The values that are read and have no written form in a process with a time zone. -/
inductive Value.IsUnwritable (zone : Zone) : Value → Prop where
  | infinite (negative : Bool) : IsUnwritable zone (.decimal (.infinite negative))
  | signalling (negative : Bool) (payload : Nat) :
      IsUnwritable zone (.decimal (.nan negative true payload))
  | unsent {m : Time.Moment} (unsent : m.IsUnsent zone) : IsUnwritable zone (.moment m)

variable {zone : Zone}

/-! ## Faults of writing -/

theorem encodeMoment_cases (zone : Zone) (m : Time.Moment) :
    (m.IsUnsent zone ∧ encodeMoment zone m = .error .noOffset) ∨
      ¬ m.IsUnsent zone ∧ ∃ s, encodeMoment zone m = .ok (.text s) := by
  unfold encodeMoment Time.Moment.sendText? Time.Moment.located? Time.Moment.IsUnsent
  cases hoffset : m.offset with
  | some o =>
    simp only [Option.bind_eq_bind, Option.bind_some, hoffset]
    exact .inr ⟨nofun, _, rfl⟩
  | none =>
    cases hplace : zone.place? m with
    | none => exact .inl ⟨⟨rfl, rfl⟩, rfl⟩
    | some p =>
      obtain ⟨o, ho⟩ := Option.isSome_iff_exists.mp (zone.offset_isSome hplace)
      simp only [Option.bind_eq_bind, Option.bind_some, ho]
      exact .inr ⟨nofun, _, rfl⟩

theorem error_of_encodeAll {vs : List Value} {f : EncodeFault} (h : encodeAll zone vs = .error f) :
    ∃ v ∈ vs, encode zone v = .error f := by
  induction vs with
  | nil =>
    rw [encodeAll] at h
    cases h
  | cons v rest ih =>
    rw [encodeAll] at h
    rcases bind_eq_error.mp h with hv | ⟨e, -, h⟩
    · exact ⟨v, List.mem_cons_self, hv⟩
    · rcases bind_eq_error.mp h with hrest | ⟨more, -, h⟩
      · obtain ⟨w, hw, hf⟩ := ih hrest
        exact ⟨w, List.mem_cons_of_mem _ hw, hf⟩
      · cases h

theorem error_of_encodeFields {xs : List (String × String × Value)} {f : EncodeFault}
    (h : encodeFields zone xs = .error f) : ∃ x ∈ xs, encode zone x.2.2 = .error f := by
  induction xs with
  | nil =>
    rw [encodeFields] at h
    cases h
  | cons x rest ih =>
    obtain ⟨name, key, v⟩ := x
    have later (hrest : encodeFields zone rest = .error f) :
        ∃ x ∈ (name, key, v) :: rest, encode zone x.2.2 = .error f := by
      obtain ⟨y, hy, hf⟩ := ih hrest
      exact ⟨y, List.mem_cons_of_mem _ hy, hf⟩
    rw [encodeFields] at h
    split at h
    · exact later h
    · rcases bind_eq_error.mp h with hv | ⟨e, -, h⟩
      · exact ⟨_, List.mem_cons_self, hv⟩
      · rcases bind_eq_error.mp h with hrest | ⟨more, -, h⟩
        · exact later hrest
        · cases h

theorem written_of_encodeFields {xs : List (String × String × Value)} {es : List (Value × Value)}
    (h : encodeFields zone xs = .ok es) {x : String × String × Value} (hx : x ∈ xs) :
    ∃ e, encode zone x.2.2 = .ok e := by
  induction xs generalizing es with
  | nil => cases hx
  | cons y rest ih =>
    obtain ⟨name, key, v⟩ := y
    rw [encodeFields] at h
    split at h
    · next hnull =>
      rcases List.mem_cons.mp hx with rfl | hx
      · obtain rfl : v = .null := by
          cases v <;> first | rfl | cases hnull
        exact ⟨.null, rfl⟩
      · exact ih h hx
    · obtain ⟨e, he, h⟩ := bind_eq_ok.mp h
      obtain ⟨more, hmore, -⟩ := bind_eq_ok.mp h
      rcases List.mem_cons.mp hx with rfl | hx
      · exact ⟨e, he⟩
      · exact ih hmore hx

/-- Whatever stands in a value that is written is written itself. -/
theorem Value.StandsIn.written {leaf v e : Value} (inside : leaf.StandsIn v)
    (h : encode zone v = .ok e) : ∃ e', encode zone leaf = .ok e' := by
  induction inside generalizing e with
  | here => exact ⟨e, h⟩
  | element member _ ih =>
    obtain ⟨es, -, hes⟩ := encode_list.mp h
    obtain ⟨e', -, he'⟩ := exists_of_mem_forall₂ hes.flip member
    exact ih he'
  | field member _ ih =>
    rw [encode, map_eq_ok] at h
    obtain ⟨es, hes, -⟩ := h
    obtain ⟨e', he'⟩ := written_of_encodeFields hes member
    exact ih he'

theorem Value.IsUnwritable.error {leaf : Value} (h : leaf.IsUnwritable zone) :
    ∃ f, encode zone leaf = .error f := by
  cases h with
  | infinite negative => exact ⟨.infinite, rfl⟩
  | signalling negative payload => exact ⟨.signalling, rfl⟩
  | @unsent m unsent =>
    rcases encodeMoment_cases zone m with ⟨-, hm⟩ | ⟨hsent, -⟩
    · exact ⟨.noOffset, hm⟩
    · exact absurd unsent hsent

/-- Nine hours ahead of UTC, the last second of the calendar has no place. -/
example : (Value.moment ⟨9999, 12, 31, 23, 59, 59, 0, none, by decide⟩).IsUnwritable
    (.fixed (9 * 3600 * 1000000)) :=
  .unsent ⟨rfl, by decide⟩

/-! ## Values of types -/

theorem decimal_cases (x : Number.Decimal) :
    (∃ e, encode zone (.decimal x) = .ok e) ∨ (Value.decimal x).IsUnwritable zone := by
  cases x with
  | finite negative c e =>
    rw [encode, encodeDecimal]
    split <;> exact .inl ⟨_, rfl⟩
  | infinite negative => exact .inr (.infinite negative)
  | nan negative signaling payload =>
    cases signaling with
    | true => exact .inr (.signalling negative payload)
    | false => exact .inl ⟨_, rfl⟩

theorem moment_cases (m : Time.Moment) :
    (∃ e, encode zone (.moment m) = .ok e) ∨ (Value.moment m).IsUnwritable zone := by
  rcases encodeMoment_cases zone m with ⟨hunsent, -⟩ | ⟨-, s, hm⟩
  · exact .inr (.unsent hunsent)
  · exact .inl ⟨_, hm⟩

variable {table : TypeTable}

/-- A fault in writing a value of a type is that of something in it that has no written form. -/
theorem unwritable_of_error {t : DataType} {v : Value} (h : Inhabits table t v) {f : EncodeFault}
    (hf : encode zone v = .error f) :
    ∃ leaf, leaf.StandsIn v ∧ leaf.IsUnwritable zone ∧ encode zone leaf = .error f := by
  have alone {v : Value} (hf : encode zone v = .error f)
      (hcases : (∃ e, encode zone v = .ok e) ∨ v.IsUnwritable zone) :
      ∃ leaf, leaf.StandsIn v ∧ leaf.IsUnwritable zone ∧ encode zone leaf = .error f := by
    rcases hcases with ⟨e, he⟩ | hv
    · rw [he] at hf
      cases hf
    · exact ⟨v, .here, hv, hf⟩
  induction h with
  | int n => cases hf
  | text s => cases hf
  | bool b => cases hf
  | decimal x => exact alone hf (decimal_cases x)
  | moment m => exact alone hf (moment_cases m)
  | bytes octets => cases hf
  | object json => cases hf
  | list parts ih =>
    rw [encode, map_eq_error] at hf
    obtain ⟨v, hv, hvf⟩ := error_of_encodeAll hf
    obtain ⟨leaf, inside, hleaf⟩ := ih v hv hvf
    exact ⟨leaf, .element hv inside, hleaf⟩
  | null nullable => cases hf
  | union member inhabits ih => exact ih hf
  | enum found member => cases hf
  | @model name fields values found labels parts ih =>
    rw [encode, map_eq_error] at hf
    obtain ⟨x, hx, hxf⟩ := error_of_encodeFields hf
    have hlength : values.length ≤ fields.length := by
      have := congrArg List.length labels
      simp only [List.length_map] at this
      omega
    -- Every value of the model stands beside the field that it is of.
    obtain ⟨p, hp, rfl⟩ : ∃ p ∈ fields.zip values, p.2 = x :=
      List.mem_map.mp (by rwa [List.map_snd_zip hlength])
    obtain ⟨leaf, inside, hleaf⟩ := ih p hp hxf
    exact ⟨leaf, .field hx inside, hleaf⟩

/-- A value that was read from JSON data as a type that generated code names is written exactly if
nothing stands in it that has no written form: no infinite or signalling decimal, and no moment
without an offset that the time zone has no place for. A fault in writing it is the fault of such a
part. -/
theorem received_is_sent_iff (zone : Zone) (table : TypeTable) (htable : table.IsGenerated)
    (fitting : table.HasFittingFallbacks) {t : DataType} (ht : t.Generated table) {d v : Value}
    (json : d.IsJson) (h : (decode table t d).result = .ok v) :
    ((∃ e, encode zone v = .ok e) ↔ ∀ leaf : Value, leaf.StandsIn v → ¬leaf.IsUnwritable zone) ∧
      ∀ f, encode zone v = .error f →
        ∃ leaf, leaf.StandsIn v ∧ leaf.IsUnwritable zone ∧ encode zone leaf = .error f := by
  have hfault : ∀ f, encode zone v = .error f →
      ∃ leaf, leaf.StandsIn v ∧ leaf.IsUnwritable zone ∧ encode zone leaf = .error f := fun _ hf =>
    unwritable_of_error (inhabits_of_reads htable fitting json ht h) hf
  refine ⟨⟨?_, fun hleaves => ?_⟩, hfault⟩
  · rintro ⟨e, he⟩ leaf inside hleaf
    obtain ⟨e', he'⟩ := inside.written he
    obtain ⟨f, hf⟩ := hleaf.error
    rw [he'] at hf
    cases hf
  · cases he : encode zone v with
    | ok e => exact ⟨e, rfl⟩
    | error f =>
      obtain ⟨leaf, inside, hleaf, -⟩ := hfault f he
      exact absurd hleaf (hleaves leaf inside)

/-- An account with an infinite balance is read, and is not written. -/
theorem received_is_sent_iff_for_infinite_balance :
    ∃ v, (decode accountTable (.named "Account") (.map [(.text "b", .text "Infinity")])).result =
      .ok v ∧ ¬∃ e, encode .utc v = .ok e := by
  have hread : Reads accountTable (.named "Account") (.map [(.text "b", .text "Infinity")])
      (.model "Account" [("balance", "b", .decimal (.infinite false)), ("opened", "o", .null),
        ("parent", "p", .null)]) :=
    reads_account rfl (reads_decimal.mpr ⟨_, _, rfl, rfl, rfl⟩)
  have json : (Value.map [(.text "b", .text "Infinity")]).IsJson :=
    .map (by simp) (by simp) (by simp [Value.IsJson.text])
  obtain ⟨hiff, -⟩ := received_is_sent_iff .utc accountTable isGenerated_accountTable
    fitting_accountTable (.named rfl) json hread
  refine ⟨_, hread, fun hsent => hiff.mp hsent (.decimal (.infinite false)) ?_ (.infinite false)⟩
  exact .field List.mem_cons_self .here

end ApiSmith
