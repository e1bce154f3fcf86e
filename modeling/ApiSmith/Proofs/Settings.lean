import ApiSmith.Profile
import ApiSmith.Proofs.Logged

/-!
# What settings come to

A profile that is configured is its preset with single fields replaced, three of them by rules of
their own, and with entries set in its table of primitive types (`IsConfigured`). So settings that
differ in added primitive types lead to profiles that differ in these (`AddsTypes.widens`).
-/

namespace ApiSmith.Profile

/-! ## Tables of primitive types -/

theorem mem_keys_setType {key other : TypeKey} {kind : PrimitiveKind}
    {table : List (TypeKey × PrimitiveKind)} :
    other ∈ (setType key kind table).map (·.1) ↔ other = key ∨ other ∈ table.map (·.1) := by
  induction table with
  | nil => simp [setType]
  | cons e rest ih =>
    obtain ⟨k, v⟩ := e
    rw [setType]
    split
    · next heq => simp [heq]
    · rw [List.map_cons, List.mem_cons, ih, List.map_cons, List.mem_cons]
      exact or_left_comm

def setTypes (table extra : List (TypeKey × PrimitiveKind)) : List (TypeKey × PrimitiveKind) :=
  extra.foldl (fun table e => setType e.1 e.2 table) table

theorem mem_keys_setTypes {other : TypeKey} {table extra : List (TypeKey × PrimitiveKind)} :
    other ∈ (setTypes table extra).map (·.1) ↔
      other ∈ table.map (·.1) ∨ other ∈ extra.map (·.1) := by
  induction extra generalizing table with
  | nil => simp [setTypes]
  | cons e rest ih =>
    rw [setTypes, List.foldl_cons, ← setTypes, ih, mem_keys_setType, List.map_cons, List.mem_cons]
    tauto

theorem mem_keys_typeEntries {entries : List (Value × Value)}
    {extra : List (TypeKey × PrimitiveKind)} (h : typeEntries entries = .ok extra) {key : TypeKey} :
    key ∈ extra.map (·.1) ↔ ∃ s, .text s ∈ entries.map (·.1) ∧ key = typeKey s.toList := by
  induction entries generalizing extra with
  | nil =>
    cases h
    simp
  | cons e rest ih =>
    obtain ⟨name, kind⟩ := e
    unfold typeEntries at h
    extract_lets named at h
    cases name with
    | text s =>
      obtain ⟨own, hown, h⟩ := bind_eq_ok.mp h
      cases hown
      simp only [named] at h
      split at h
      · obtain ⟨k, -, h⟩ := bind_eq_ok.mp h
        obtain ⟨more, hmore, h⟩ := bind_eq_ok.mp h
        cases h
        simp [ih hmore]
      · cases h
    | _ => cases h

/-! ## Configured profiles -/

def typesIn (es : List (Value × Value)) : List (Value × Value) :=
  match lookupText "primitive_types" es with
  | some (.map types) => types
  | _ => []

def IsOverlaid (table : List (Value × Value)) : Option Value → List (Value × Value) → Prop
  | none, result => result = table
  | some v, result => ∃ more, v = .map more ∧ result = overlay table more

def IsPolicy (policy : DefaultPolicy) : Option Value → DefaultPolicy → Prop
  | none, result => result = policy
  | some v, result => v.text?.bind DefaultPolicy.ofName? = some result

/-- What a profile comes to by settings. -/
structure IsConfigured (p : Profile) (es : List (Value × Value)) (q : Profile) : Prop where
  policy : IsPolicy p.defaultPolicy (lookupText "default_policy" es) q.defaultPolicy
  aliases : IsOverlaid p.nameAliases (lookupText "name_aliases" es) q.nameAliases
  replacements :
    IsOverlaid p.commentReplacements (lookupText "comment_replacements" es) q.commentReplacements
  types : ∃ extra, typeEntries (typesIn es) = .ok extra ∧
    q.primitiveTypes = setTypes p.primitiveTypes extra
  /-- The other fields are replaced one by one. -/
  rest : q = { p.withFields es with
    defaultPolicy := q.defaultPolicy
    nameAliases := q.nameAliases
    commentReplacements := q.commentReplacements
    primitiveTypes := q.primitiveTypes }

section

variable {q : Profile}

theorem exists_policy {policy : DefaultPolicy} {setting : Option Value}
    {next : DefaultPolicy → Except Fault Profile}
    (h : (match setting with
      | none => pure policy >>= next
      | some v =>
        match v.text?.bind DefaultPolicy.ofName? with
        | some d => pure d >>= next
        | none => .error (.unknownPolicy v) >>= next) = .ok q) :
    ∃ result, IsPolicy policy setting result ∧ next result = .ok q := by
  cases setting with
  | none => exact ⟨policy, rfl, h⟩
  | some v =>
    simp only at h
    split at h
    · next d hd => exact ⟨d, hd, h⟩
    · cases h

theorem exists_overlaid {table : List (Value × Value)} {setting : Option Value}
    {next : List (Value × Value) → Except Fault Profile}
    (h : (match setting with
      | none => pure table >>= next
      | some v => (mapEntries v).map (overlay table) >>= next) = .ok q) :
    ∃ result, IsOverlaid table setting result ∧ next result = .ok q := by
  cases setting with
  | none => exact ⟨table, rfl, h⟩
  | some v =>
    cases v with
    | map more => exact ⟨overlay table more, ⟨more, rfl, rfl⟩, h⟩
    | _ => cases h

theorem exists_types {table : List (TypeKey × PrimitiveKind)} {es : List (Value × Value)}
    {next : List (TypeKey × PrimitiveKind) → Except Fault Profile}
    (h : (match lookupText "primitive_types" es with
      | none => pure table >>= next
      | some v => do
        let extra ← mapEntries v >>= typeEntries
        pure (setTypes table extra) >>= next) = .ok q) :
    ∃ extra, typeEntries (typesIn es) = .ok extra ∧
      next (setTypes table extra) = .ok q := by
  unfold typesIn
  cases hsetting : lookupText "primitive_types" es with
  | none =>
    rw [hsetting] at h
    exact ⟨[], rfl, h⟩
  | some v =>
    rw [hsetting] at h
    obtain ⟨extra, hextra, hnext⟩ := bind_eq_ok.mp h
    obtain ⟨types, htypes, hentries⟩ := bind_eq_ok.mp hextra
    cases v with
    | map entries =>
      cases htypes
      exact ⟨extra, hentries, hnext⟩
    | _ => cases htypes

theorem isConfigured_of_configure {p : Profile} {es : List (Value × Value)}
    (h : p.configure (.map es) = .ok q) : IsConfigured p es q := by
  unfold configure at h
  split at h
  · next habsent =>
    cases h
    cases es with
    | nil => exact ⟨rfl, rfl, rfl, ⟨[], rfl, rfl⟩, rfl⟩
    | cons e rest => cases habsent
  · obtain ⟨entries, hentries, h⟩ := bind_eq_ok.mp h
    cases hentries
    obtain ⟨policy, hpolicy, h⟩ := exists_policy h
    obtain ⟨aliases, haliases, h⟩ := exists_overlaid h
    obtain ⟨replacements, hreplacements, h⟩ := exists_overlaid h
    obtain ⟨extra, hextra, h⟩ := exists_types h
    obtain ⟨unknown, -, h⟩ := bind_eq_ok.mp h
    split at h
    · cases h
    · cases h
      exact ⟨hpolicy, haliases, hreplacements, ⟨extra, hextra, rfl⟩, rfl⟩

end

/-! ## Added primitive types -/

/-- The second profile has every primitive type of the first one, though perhaps of another kind,
and nothing else sets them apart. -/
structure Widens (p q : Profile) : Prop where
  rest : q = { p with primitiveTypes := q.primitiveTypes }
  keys : p.primitiveTypes.map (·.1) ⊆ q.primitiveTypes.map (·.1)

/-- Settings that add primitive types to others, or change the kinds of theirs. -/
structure AddsTypes (es es' : List (Value × Value)) : Prop where
  rest : ∀ key ≠ "primitive_types", lookupText key es' = lookupText key es
  types : (typesIn es).map (·.1) ⊆ (typesIn es').map (·.1)

theorem IsPolicy.unique {policy a b : DefaultPolicy} {setting : Option Value}
    (ha : IsPolicy policy setting a) (hb : IsPolicy policy setting b) : a = b := by
  cases setting with
  | none => exact Eq.trans ha (Eq.symm hb)
  | some v => exact Option.some.inj (Eq.trans (Eq.symm ha) hb)

theorem IsOverlaid.unique {table as bs : List (Value × Value)} {setting : Option Value}
    (ha : IsOverlaid table setting as) (hb : IsOverlaid table setting bs) : as = bs := by
  cases setting with
  | none => exact Eq.trans ha (Eq.symm hb)
  | some v =>
    obtain ⟨more, rfl, rfl⟩ := ha
    obtain ⟨_, heq, rfl⟩ := hb
    cases heq
    rfl

/-- Adding primitive types to settings adds them to the profile. -/
theorem AddsTypes.widens {p q r : Profile} {es es' : List (Value × Value)} (h : AddsTypes es es')
    (hq : IsConfigured p es q) (hr : IsConfigured p es' r) : q.Widens r := by
  constructor
  · have hfields : p.withFields es' = p.withFields es := by
      simp only [withFields, h.rest, ne_eq, String.reduceEq, not_false_eq_true]
    have hpolicy := hr.policy
    have haliases := hr.aliases
    have hreplacements := hr.replacements
    rw [h.rest _ (by decide)] at hpolicy haliases hreplacements
    rw [hr.rest, hfields, hpolicy.unique hq.policy, haliases.unique hq.aliases,
      hreplacements.unique hq.replacements]
    conv_rhs => rw [hq.rest]
  · obtain ⟨extra, hextra, hqtypes⟩ := hq.types
    obtain ⟨extra', hextra', hrtypes⟩ := hr.types
    rw [hqtypes, hrtypes]
    intro key hkey
    rw [mem_keys_setTypes] at hkey ⊢
    refine hkey.imp_right fun hkey => ?_
    obtain ⟨s, hs, rfl⟩ := (mem_keys_typeEntries hextra).mp hkey
    exact (mem_keys_typeEntries hextra').mpr ⟨s, h.types hs, rfl⟩

end ApiSmith.Profile
