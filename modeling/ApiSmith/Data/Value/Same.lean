import ApiSmith.Data.Value

/-!
# Sameness of values

Numbers are compared by their value across kinds, so the integer 1, the double 1.0 and true are the
same key. Lists are compared element by element, maps without regard to order, moments by the
instant they denote. Map entries are found and replaced by sameness of keys.
-/

namespace ApiSmith

open Number Time

/-- The number that a numeric value denotes. -/
inductive Quantity where
  /-- The number `num / den` with a sign. -/
  | ratio (negative : Bool) (num den : Nat)
  | infinite (negative : Bool)

/-- A signed number `n * base ^ e`. -/
def Quantity.scaled (negative : Bool) (n base : Nat) (e : Int) : Quantity :=
  let r := Ratio.scaled n base e
  .ratio negative r.num r.den

/-- Whether two quantities are one number; zero has no sign. -/
def Quantity.same : Quantity → Quantity → Bool
  | .ratio s₁ n₁ d₁, .ratio s₂ n₂ d₂ => (s₁ == s₂ || n₁ == 0) && n₁ * d₂ == n₂ * d₁
  | .infinite s₁, .infinite s₂ => s₁ == s₂
  | _, _ => false

def Quantity.ofFloat? (x : Float) : Option Quantity :=
  match DoubleParts.ofFloat x with
  | .nan => none
  | .infinite negative => some (.infinite negative)
  | .finite negative m q _ => some (.scaled negative m 2 q)

/-- The instant of a moment in microseconds, as its own clock counts them. -/
def clockMicros (m : Moment) : Int :=
  let days := daysBeforeYear m.year + daysBeforeMonth m.year m.month + (m.day - 1)
  ((days * 86400 + m.hour * 3600 + m.minute * 60 + m.second : Nat) : Int) * 1000000 + m.micro

/-- Whether two moments are one instant. A moment without offset is never one with. -/
def sameMoment (a b : Moment) : Bool :=
  match a.offset, b.offset with
  | none, none => clockMicros a == clockMicros b
  | some o, some p => clockMicros a - o == clockMicros b - p
  | _, _ => false

def Scalar.same : Scalar → Scalar → Bool
  | .text a, .text b => a == b
  | .bool a, .bool b => a == b
  | .int a, .int b => a == b
  | .float a, .float b => a == b
  | _, _ => false

def Scalar.sameAll : List Scalar → List Scalar → Bool
  | [], [] => true
  | a :: as, b :: bs => a.same b && sameAll as bs
  | _, _ => false

namespace Value

def quantity? : Value → Option Quantity
  | .bool b => some (.ratio false (if b then 1 else 0) 1)
  | .int n => some (.ratio (n < 0) n.natAbs 1)
  | .member _ _ (.int n) true => some (.ratio (n < 0) n.natAbs 1)
  | .float x => Quantity.ofFloat? x
  | .decimal (.finite negative c e) => some (.scaled negative c 10 e)
  | .decimal (.infinite negative) => some (.infinite negative)
  | _ => none

def sameNumber (a b : Value) : Bool :=
  match a.quantity?, b.quantity? with
  | some p, some q => p.same q
  | _, _ => false

mutual

def same : Value → Value → Bool
  | .null, .null => true
  | .text a, .text b => a == b
  | .bytes a, .bytes b => a == b
  | .date a, .date b => a == b
  | .moment a, .moment b => sameMoment a b
  | .list a, .list b => sameAll a b
  | .tuple a, .tuple b => sameAll a b
  | .map a, .map b => a.length == b.length && sameEntries a b
  | .object a, .object b => a.length == b.length && sameFields a b
  | .member t n v true, b => sameNumber (.member t n v true) b
  | .member t n _ false, .member t' n' _ false => t == t' && n == n'
  | .model t fs, .model t' fs' => t == t' && sameModelFields fs fs'
  | a, b => sameNumber a b

def sameAll : List Value → List Value → Bool
  | [], [] => true
  | a :: as, b :: bs => a.same b && sameAll as bs
  | _, _ => false

/-- Whether every entry of the first map is one of the second. -/
def sameEntries : List (Value × Value) → List (Value × Value) → Bool
  | [], _ => true
  | (k, v) :: rest, b => b.any (fun e => k.same e.1 && v.same e.2) && sameEntries rest b

def sameFields : List (Value × Tagged Value) → List (Value × Tagged Value) → Bool
  | [], _ => true
  | (k, t) :: rest, b => b.any (fun e => k.same e.1 && sameTagged t e.2) && sameFields rest b

def sameTagged : Tagged Value → Tagged Value → Bool
  | .scalar a, .scalar b => a.same b
  | .scalars a, .scalars b => Scalar.sameAll a b
  | .object a, .object b => a.length == b.length && sameFields a b
  | .objects a, .objects b => sameObjects a b
  | _, _ => false

def sameObjects :
    List (List (Value × Tagged Value)) → List (List (Value × Tagged Value)) → Bool
  | [], [] => true
  | a :: as, b :: bs => a.length == b.length && sameFields a b && sameObjects as bs
  | _, _ => false

def sameModelFields : List (String × String × Value) → List (String × String × Value) → Bool
  | [], [] => true
  | (_, _, a) :: as, (_, _, b) :: bs => a.same b && sameModelFields as bs
  | _, _ => false

end

end Value

/-! ## Entries by key -/

def lookup {α : Type} (key : Value) (entries : List (Value × α)) : Option α :=
  (entries.find? fun e => e.1.same key).map (·.2)

def lookupText {α : Type} (key : String) (entries : List (Value × α)) : Option α :=
  (entries.find? fun e => e.1.isText key).map (·.2)

theorem sizeOf_lookupText {key : String} {es : List (Value × Value)} {v : Value}
    (h : lookupText key es = some v) : sizeOf v < sizeOf es := by
  unfold lookupText at h
  obtain ⟨e, he, rfl⟩ := Option.map_eq_some_iff.1 h
  have := List.sizeOf_lt_of_mem (List.mem_of_find?_eq_some he)
  obtain ⟨k, v⟩ := e
  simp only [Prod.mk.sizeOf_spec] at this
  simp only
  omega

theorem sizeOf_lt_list {items : List Value} {v : Value} (h : v ∈ items) :
    sizeOf v < sizeOf (Value.list items) := by
  have := List.sizeOf_lt_of_mem h
  simp only [Value.list.sizeOf_spec]
  omega

theorem sizeOf_lt_map {key : String} {es : List (Value × Value)} {v : Value}
    (h : lookupText key es = some v) : sizeOf v < sizeOf (Value.map es) := by
  have := sizeOf_lookupText h
  simp only [Value.map.sizeOf_spec]
  omega

/-- The entries with the value under a key replaced in place, or appended where the key is new. -/
def insertEntry {α : Type} (key : Value) (value : α) : List (Value × α) → List (Value × α)
  | [] => [(key, value)]
  | (k, v) :: rest =>
    if k.same key then (k, value) :: rest else (k, v) :: insertEntry key value rest

/-- The first entries overlaid with the second. -/
def overlay {α : Type} (base extra : List (Value × α)) : List (Value × α) :=
  extra.foldl (fun es e => insertEntry e.1 e.2 es) base

def HasDistinctKeys {α : Type} (entries : List (Value × α)) : Prop :=
  entries.Pairwise fun d e => d.1.same e.1 = false

instance {α : Type} (entries : List (Value × α)) : Decidable (HasDistinctKeys entries) :=
  inferInstanceAs (Decidable (entries.Pairwise fun d e => d.1.same e.1 = false))

theorem mem_insertEntry_cases {α : Type} {key : Value} {value : α} {es : List (Value × α)}
    {e : Value × α} (h : e ∈ insertEntry key value es) : e.1 = key ∨ ∃ d ∈ es, d.1 = e.1 := by
  induction es with
  | nil => exact .inl (congrArg Prod.fst (List.mem_singleton.mp h))
  | cons d rest ih =>
    rw [insertEntry] at h
    split at h
    · rcases List.mem_cons.mp h with rfl | h
      · exact .inr ⟨d, List.mem_cons_self, rfl⟩
      · exact .inr ⟨e, List.mem_cons_of_mem _ h, rfl⟩
    · rcases List.mem_cons.mp h with rfl | h
      · exact .inr ⟨d, List.mem_cons_self, rfl⟩
      · exact (ih h).imp_right fun ⟨d', hd', heq⟩ => ⟨d', List.mem_cons_of_mem _ hd', heq⟩

theorem HasDistinctKeys.insertEntry {α : Type} {es : List (Value × α)} (h : HasDistinctKeys es)
    (key : Value) (value : α) : HasDistinctKeys (insertEntry key value es) := by
  induction es with
  | nil => exact List.pairwise_singleton _ _
  | cons d rest ih =>
    obtain ⟨hfirst, hrest⟩ := List.pairwise_cons.mp h
    rw [ApiSmith.insertEntry]
    split
    · exact List.pairwise_cons.mpr ⟨hfirst, hrest⟩
    · next hnew =>
      refine List.pairwise_cons.mpr ⟨fun e he => ?_, ih hrest⟩
      rcases mem_insertEntry_cases he with heq | ⟨d', hd', heq⟩
      · rw [heq]
        exact Bool.eq_false_iff.mpr hnew
      · rw [← heq]
        exact hfirst d' hd'

theorem HasDistinctKeys.overlay {α : Type} {base : List (Value × α)} (h : HasDistinctKeys base)
    (extra : List (Value × α)) : HasDistinctKeys (overlay base extra) := by
  induction extra generalizing base with
  | nil => exact h
  | cons e rest ih => exact ih (h.insertEntry e.1 e.2)

end ApiSmith
