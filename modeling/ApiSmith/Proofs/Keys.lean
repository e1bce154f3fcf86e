import Mathlib.Data.List.Forall2
import ApiSmith.Data.Value.Same

/-!
# Text keys

Maps of descriptions and of JSON have texts as keys. For these, sameness is equality: an entry is
found under its key (`lookupText_of_mem`), entries with distinct text keys can be put on top of
nothing without being merged (`overlay_nil`), and entries that are put on top of each other have
distinct keys in the end (`overlay_distinct`).
-/

namespace ApiSmith

namespace Value

@[simp] theorem isText_iff {v : Value} {s : String} : v.isText s = true ↔ v = .text s := by
  cases v <;> simp [isText]

theorem text?_eq_some {v : Value} {s : String} : v.text? = some s ↔ v = .text s := by
  cases v <;> simp [text?]

@[simp] theorem text_same (s : String) (v : Value) : (text s).same v = v.isText s := by
  cases v with
  | text t => simp only [same, isText, Bool.beq_comm]
  | _ => simp [same, isText, sameNumber, quantity?]

@[simp] theorem same_text (v : Value) (s : String) : v.same (text s) = v.isText s := by
  cases v with
  | text t => simp only [same, isText]
  | member t n w integral => cases integral <;> simp [same, isText, sameNumber, quantity?]
  | _ => simp [same, isText, sameNumber, quantity?]

end Value

variable {α : Type}

def HasTextKeys (entries : List (Value × α)) : Prop := ∀ e ∈ entries, ∃ s, e.1 = .text s

theorem lookupText_cons (key : String) (e : Value × α) (es : List (Value × α)) :
    lookupText key (e :: es) = if e.1.isText key then some e.2 else lookupText key es := by
  simp only [lookupText, List.find?_cons]
  cases e.1.isText key <;> rfl

theorem mem_of_lookupText {key : String} {es : List (Value × α)} {x : α}
    (h : lookupText key es = some x) : (.text key, x) ∈ es := by
  induction es with
  | nil => cases h
  | cons e es ih =>
    rw [lookupText_cons] at h
    split at h
    · rename_i he
      cases h
      rw [← Value.isText_iff.mp he]
      exact List.mem_cons_self
    · exact List.mem_cons_of_mem _ (ih h)

theorem lookupText_eq_none {key : String} {es : List (Value × α)}
    (h : ∀ e ∈ es, e.1 ≠ .text key) : lookupText key es = none := by
  induction es with
  | nil => rfl
  | cons e es ih =>
    rw [lookupText_cons, if_neg fun he => h e List.mem_cons_self (Value.isText_iff.mp he)]
    exact ih fun e' he' => h e' (List.mem_cons_of_mem _ he')

theorem lookupText_of_mem {key : String} {es : List (Value × α)} {x : α}
    (distinct : (es.map (·.1)).Nodup) (h : (.text key, x) ∈ es) : lookupText key es = some x := by
  induction es with
  | nil => cases h
  | cons e es ih =>
    obtain ⟨hnew, hrest⟩ := List.nodup_cons.mp distinct
    rw [lookupText_cons]
    rcases List.mem_cons.mp h with rfl | h
    · rw [if_pos (Value.isText_iff.mpr rfl)]
    · have hne : e.1 ≠ .text key := by
        intro he
        exact hnew (List.mem_map.mpr ⟨_, h, he.symm⟩)
      rw [if_neg fun he => hne (Value.isText_iff.mp he)]
      exact ih hrest h

theorem insertEntry_of_new {key : String} {x : α} {es : List (Value × α)}
    (h : ∀ e ∈ es, e.1 ≠ .text key) : insertEntry (.text key) x es = es ++ [(.text key, x)] := by
  induction es with
  | nil => rfl
  | cons e es ih =>
    have hne : e.1.same (.text key) = false := by
      rw [Value.same_text]
      exact Bool.eq_false_iff.mpr fun he => h e List.mem_cons_self (Value.isText_iff.mp he)
    simp only [insertEntry, hne, List.cons_append]
    rw [if_neg (by simp), ih fun e' he' => h e' (List.mem_cons_of_mem _ he')]

theorem overlay_of_distinct {base extra : List (Value × α)} (texts : HasTextKeys extra)
    (distinct : ((base ++ extra).map (·.1)).Nodup) : overlay base extra = base ++ extra := by
  induction extra generalizing base with
  | nil => simp [overlay]
  | cons e extra ih =>
    obtain ⟨s, hs⟩ := texts e List.mem_cons_self
    have hnew : ∀ b ∈ base, b.1 ≠ .text s := by
      intro b hb he
      rw [List.map_append, List.nodup_append] at distinct
      exact distinct.2.2 b.1 (List.mem_map_of_mem hb) e.1 (by simp) (he.trans hs.symm)
    have hstep : overlay base (e :: extra) = overlay (base ++ [e]) extra := by
      obtain ⟨k, x⟩ := e
      simp only at hs
      subst hs
      simp only [overlay, List.foldl_cons, insertEntry_of_new hnew]
    rw [hstep, ih (fun e' he' => texts e' (List.mem_cons_of_mem _ he')) (by simpa using distinct)]
    simp

theorem mem_insertEntry {key : String} {x : α} {es : List (Value × α)} {e : Value × α}
    (h : e ∈ insertEntry (.text key) x es) : e = (.text key, x) ∨ e ∈ es := by
  induction es with
  | nil => exact .inl (List.mem_singleton.mp h)
  | cons d es ih =>
    obtain ⟨k, y⟩ := d
    rw [insertEntry] at h
    split at h
    · next hk =>
      rw [Value.same_text, Value.isText_iff] at hk
      rcases List.mem_cons.mp h with rfl | h
      · exact .inl (by rw [hk])
      · exact .inr (List.mem_cons_of_mem _ h)
    · rcases List.mem_cons.mp h with rfl | h
      · exact .inr List.mem_cons_self
      · exact (ih h).imp id (List.mem_cons_of_mem _)

theorem nodup_insertEntry {key : String} {x : α} {es : List (Value × α)}
    (distinct : (es.map (·.1)).Nodup) :
    ((insertEntry (.text key) x es).map (·.1)).Nodup := by
  induction es with
  | nil => simp [insertEntry]
  | cons d es ih =>
    obtain ⟨k, y⟩ := d
    obtain ⟨hnew, hrest⟩ := List.nodup_cons.mp distinct
    rw [insertEntry]
    split
    · exact distinct
    · next hk =>
      rw [Value.same_text, Value.isText_iff] at hk
      refine List.nodup_cons.mpr ⟨fun hmem => ?_, ih hrest⟩
      obtain ⟨e, he, hkey⟩ := List.mem_map.mp hmem
      rcases mem_insertEntry he with rfl | he
      · exact hk hkey.symm
      · exact hnew (List.mem_map.mpr ⟨e, he, hkey⟩)

/-- Overlaid entries with text keys have distinct keys, and each of them was there. -/
theorem overlay_distinct {base extra : List (Value × α)} (texts : HasTextKeys extra)
    (distinct : (base.map (·.1)).Nodup) :
    ((overlay base extra).map (·.1)).Nodup ∧
      ∀ e ∈ overlay base extra, e ∈ base ∨ e ∈ extra := by
  induction extra generalizing base with
  | nil => exact ⟨distinct, fun e he => .inl he⟩
  | cons d extra ih =>
    obtain ⟨key, hkey⟩ := texts d List.mem_cons_self
    have hstep : overlay base (d :: extra) = overlay (insertEntry (.text key) d.2 base) extra := by
      rw [← hkey]
      rfl
    obtain ⟨hnodup, hmem⟩ :=
      ih (fun e he => texts e (List.mem_cons_of_mem _ he)) (nodup_insertEntry (x := d.2) distinct)
    rw [hstep]
    refine ⟨hnodup, fun e he => ?_⟩
    rcases hmem e he with he | he
    · rcases mem_insertEntry he with rfl | he
      · exact .inr (List.mem_cons.mpr (.inl (Prod.ext hkey.symm rfl)))
      · exact .inl he
    · exact .inr (List.mem_cons_of_mem _ he)

theorem overlay_nil_distinct {extra : List (Value × α)} (texts : HasTextKeys extra) :
    ((overlay [] extra).map (·.1)).Nodup ∧ ∀ e ∈ overlay [] extra, e ∈ extra := by
  obtain ⟨distinct, hmem⟩ := @overlay_distinct _ [] extra texts List.nodup_nil
  exact ⟨distinct, fun e he => (hmem e he).resolve_left List.not_mem_nil⟩

theorem overlay_nil {extra : List (Value × α)} (texts : HasTextKeys extra)
    (distinct : (extra.map (·.1)).Nodup) : overlay [] extra = extra :=
  overlay_of_distinct texts distinct

/-! ## Rows of entries -/

section

variable {β : Type} {R : α → β → Prop}

/-- Two entries have one key, and their values are related. -/
structure SameKey (R : α → β → Prop) (e : Value × α) (d : Value × β) : Prop where
  key : e.1 = d.1
  value : R e.2 d.2

theorem keys_eq_of_forall₂ {es : List (Value × α)} {ds : List (Value × β)}
    (h : List.Forall₂ (SameKey R) es ds) : es.map (·.1) = ds.map (·.1) := by
  induction h with
  | nil => rfl
  | cons he _ ih => rw [List.map_cons, List.map_cons, he.key, ih]

theorem forall₂_insertEntry {base : List (Value × α)} {base' : List (Value × β)} {e : Value × α}
    {d : Value × β} (hbase : List.Forall₂ (SameKey R) base base') (he : SameKey R e d) :
    List.Forall₂ (SameKey R) (insertEntry e.1 e.2 base) (insertEntry d.1 d.2 base') := by
  induction hbase with
  | nil => exact .cons he .nil
  | @cons b b' _ _ hb hrest ih =>
    obtain ⟨k, x⟩ := b
    obtain ⟨k', x'⟩ := b'
    obtain rfl : k = k' := hb.key
    rw [insertEntry, insertEntry, he.key]
    split
    · exact .cons ⟨rfl, he.value⟩ hrest
    · rw [he.key] at ih
      exact .cons hb ih

theorem forall₂_overlay {base extra : List (Value × α)} {base' extra' : List (Value × β)}
    (hbase : List.Forall₂ (SameKey R) base base') (hextra : List.Forall₂ (SameKey R) extra extra') :
    List.Forall₂ (SameKey R) (overlay base extra) (overlay base' extra') := by
  induction hextra generalizing base base' with
  | nil => exact hbase
  | cons he _ ih => exact ih (forall₂_insertEntry hbase he)

end

end ApiSmith
