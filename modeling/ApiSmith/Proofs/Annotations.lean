import ApiSmith.Package.Page
import ApiSmith.Proofs.Logged

/-!
# Names in annotations

The annotation of a field or of a result is a name under lists and options. `Annotation.named` reads
this name off the text, so what a page names can be said of its text and not of the types that it was
made of. For the presets it is the text of the leaf of a type (`named_typeText`): their class names
start with a capital that no bracketed annotation starts with, so no class name is taken apart.
-/

namespace ApiSmith

namespace Annotation

/-- What a text holds between an opening and its last character, if it starts with the opening. -/
def inside? (opening cs : List Char) : Option (List Char) :=
  if opening.isPrefixOf cs then some (cs.drop opening.length).dropLast else none

def openings : List (List Char) := ["list[".toList, "Optional[".toList]

def held? (cs : List Char) : Option (List Char) := openings.findSome? fun o => inside? o cs

theorem length_inside {opening cs inner : List Char} (hne : opening ≠ [])
    (h : inside? opening cs = some inner) : inner.length < cs.length := by
  unfold inside? at h
  split at h
  · rename_i hp
    have hlength := (List.isPrefixOf_iff_prefix.mp hp).length_le
    have hpos := List.length_pos_iff.mpr hne
    cases h
    simp only [List.length_dropLast, List.length_drop]
    omega
  · cases h

theorem length_held {cs inner : List Char} (h : held? cs = some inner) :
    inner.length < cs.length := by
  obtain ⟨o, ho, hinner⟩ := List.exists_of_findSome?_eq_some h
  refine length_inside ?_ hinner
  simp only [openings, List.mem_cons, List.not_mem_nil, or_false] at ho
  rcases ho with rfl | rfl <;> simp

def namedText (cs : List Char) : List Char :=
  match _h : held? cs with
  | some inner => namedText inner
  | none => cs
termination_by cs.length
decreasing_by exact length_held ‹_›

def named (t : String) : String := String.ofList (namedText t.toList)

theorem namedText_of_held {cs inner : List Char} (h : held? cs = some inner) :
    namedText cs = namedText inner := by
  rw [namedText]
  split <;> rename_i h'
  · rw [h] at h'
    cases h'
    rfl
  · rw [h] at h'
    cases h'

theorem namedText_of_plain {cs : List Char} (h : held? cs = none) : namedText cs = cs := by
  rw [namedText]
  split <;> rename_i h'
  · rw [h] at h'
    cases h'
  · rfl

theorem inside_append (opening t : List Char) (c : Char) :
    inside? opening (opening ++ (t ++ [c])) = some t := by
  rw [inside?, if_pos (List.isPrefixOf_iff_prefix.mpr (List.prefix_append _ _)), List.drop_left,
    List.dropLast_concat]

theorem inside_of_head {a : Char} {opening cs : List Char} (h : ∀ c, cs.head? = some c → c ≠ a) :
    inside? (a :: opening) cs = none := by
  cases cs with
  | nil => rfl
  | cons c rest =>
    have hne : (a == c) = false := by simpa using (h c rfl).symm
    simp [inside?, List.isPrefixOf, hne]

@[simp] theorem named_list (t : String) : named ("list[" ++ t ++ "]") = named t := by
  have hlist : inside? "list[".toList ("list[".toList ++ (t.toList ++ "]".toList)) =
      some t.toList := inside_append _ _ ']'
  have hheld : held? ("list[" ++ t ++ "]").toList = some t.toList := by
    rw [String.toList_append, String.toList_append, List.append_assoc, held?, openings,
      List.findSome?_cons, hlist]
  rw [named, namedText_of_held hheld, named]

@[simp] theorem named_optional (t : String) : named ("Optional[" ++ t ++ "]") = named t := by
  have hlist : inside? "list[".toList ("Optional[".toList ++ (t.toList ++ "]".toList)) = none :=
    inside_of_head fun c hc => by
      cases hc
      decide
  have hoption : inside? "Optional[".toList ("Optional[".toList ++ (t.toList ++ "]".toList)) =
      some t.toList := inside_append _ _ ']'
  have hheld : held? ("Optional[" ++ t ++ "]").toList = some t.toList := by
    rw [String.toList_append, String.toList_append, List.append_assoc, held?, openings,
      List.findSome?_cons, hlist, List.findSome?_cons, hoption]
  rw [named, namedText_of_held hheld, named]

theorem named_of_head {s : String} (h : ∀ c, s.toList.head? = some c → c ≠ 'l' ∧ c ≠ 'O') :
    named s = s := by
  have hheld : held? s.toList = none := by
    rw [held?, openings, List.findSome?_cons, List.findSome?_cons]
    have hlist : inside? "list[".toList s.toList = none := inside_of_head fun c hc => (h c hc).1
    have hopt : inside? "Optional[".toList s.toList = none := inside_of_head fun c hc => (h c hc).2
    rw [hlist, hopt, List.findSome?_nil]
  rw [named, namedText_of_plain hheld, String.ofList_toList]

end Annotation

open Annotation

/-! ## Class names of the presets -/

def classLetters : List Char := ['C', 'P']

theorem head_append {c : Char} {s : String} (t : String) (h : s.toList.head? = some c) :
    (s ++ t).toList.head? = some c := by
  rw [String.toList_append, List.head?_append, h]
  rfl

section

variable {p : Profile}

theorem head_of_start (hp : p ∈ Profile.presets) {v : Value} {c : String}
    (h : p.modelStart.concat? v = some c) : ∃ a ∈ classLetters, c.toList.head? = some a := by
  obtain ⟨start, t, hstart, -, rfl⟩ : ∃ s t, p.modelStart = .text s ∧ v = .text t ∧ s ++ t = c := by
    unfold Value.concat? at h
    split at h
    · rename_i s t hs
      cases h
      exact ⟨s, t, hs, rfl, rfl⟩
    · cases h
  simp only [Profile.presets, List.mem_cons, List.not_mem_nil, or_false] at hp
  rcases hp with rfl | rfl
  · cases hstart
    exact ⟨'C', by decide, head_append t (by decide)⟩
  · cases hstart
    exact ⟨'P', by decide, head_append t (by decide)⟩

theorem head_of_modelClass (hp : p ∈ Profile.presets) {v : Value} {c : String}
    (h : p.modelClass? v = some c) : ∃ a ∈ classLetters, c.toList.head? = some a :=
  head_of_start hp h

theorem head_of_enumClass (hp : p ∈ Profile.presets) {spec : EnumSpec} {c : String}
    (h : p.enumClass? spec = some c) : ∃ a ∈ classLetters, c.toList.head? = some a := by
  simp only [Profile.enumClass?, Option.bind_eq_bind, Option.bind_eq_some_iff] at h
  obtain ⟨start, hstart, h⟩ := h
  obtain ⟨a, ha, hhead⟩ := head_of_start hp hstart
  unfold Value.concat? at h
  split at h
  · rename_i s t hs _
    cases hs
    cases h
    exact ⟨a, ha, head_append t hhead⟩
  · cases h

theorem named_of_class {c : String} (h : ∃ a ∈ classLetters, c.toList.head? = some a) :
    named c = c := by
  obtain ⟨a, ha, hhead⟩ := h
  refine named_of_head fun b hb => ?_
  cases hhead.symm.trans hb
  simp only [classLetters, List.mem_cons, List.not_mem_nil, or_false] at ha
  rcases ha with rfl | rfl <;> decide

theorem named_kind (k : PrimitiveKind) : named k.typeText = k.typeText := by
  refine named_of_head fun c hc => ?_
  cases k <;> cases hc <;> decide

theorem class_ne_kind {c : String} (h : ∃ a ∈ classLetters, c.toList.head? = some a)
    (k : PrimitiveKind) : c ≠ k.typeText := by
  rintro rfl
  obtain ⟨a, ha, hhead⟩ := h
  cases k <;> cases hhead <;> revert ha <;> decide

end

/-! ## The name of a type -/

@[simp] theorem kinds_leaf (d : Descriptor) : d.leaf.kinds = d.kinds := by
  induction d with
  | array d ih => simpa [Descriptor.leaf, Descriptor.kinds] using ih
  | _ => rfl

@[simp] theorem references_leaf (d : Descriptor) : d.leaf.references = d.references := by
  induction d with
  | array d ih => simpa [Descriptor.leaf, Descriptor.references] using ih
  | _ => rfl

@[simp] theorem enums_leaf (d : Descriptor) : d.leaf.enums = d.enums := by
  induction d with
  | array d ih => simpa [Descriptor.leaf, Descriptor.enums] using ih
  | _ => rfl

theorem leaf_ne_array (d e : Descriptor) : d.leaf ≠ .array e := by
  induction d with
  | array d ih => exact ih
  | _ => nofun

section

variable {p : Profile} {d : Descriptor} {t : String}

theorem named_typeText (hp : p ∈ Profile.presets) (h : d.typeText? p = some t) :
    d.leaf.typeText? p = some (named t) := by
  induction d generalizing t with
  | primitive k =>
    cases h
    exact congrArg some (named_kind k).symm
  | reference ref => rwa [named_of_class (head_of_modelClass hp h)]
  | enum spec => rwa [named_of_class (head_of_enumClass hp h)]
  | array d ih =>
    obtain ⟨inner, hinner, rfl⟩ := Option.map_eq_some_iff.mp h
    rw [named_list]
    exact ih hinner

theorem named_cases (hp : p ∈ Profile.presets) (h : d.typeText? p = some t) :
    (∃ k : PrimitiveKind, named t = k.typeText) ∨
      (∃ ref ∈ d.references, p.modelClass? (.text ref) = some (named t)) ∨
      ∃ spec ∈ d.enums, p.enumClass? spec = some (named t) := by
  have hleaf := named_typeText hp h
  rw [← references_leaf, ← enums_leaf]
  cases hd : d.leaf with
  | primitive k =>
    rw [hd] at hleaf
    exact .inl ⟨k, (Option.some.inj hleaf).symm⟩
  | reference ref =>
    rw [hd] at hleaf
    exact .inr (.inl ⟨ref, List.mem_singleton_self ref, hleaf⟩)
  | enum spec =>
    rw [hd] at hleaf
    exact .inr (.inr ⟨spec, List.mem_singleton_self spec, hleaf⟩)
  | array e => exact absurd hd (leaf_ne_array d e)

/-- A type uses a kind exactly if it names it, for a kind whose name is its own. -/
theorem uses_iff_named (hp : p ∈ Profile.presets) (h : d.typeText? p = some t)
    {k : PrimitiveKind} (own : ∀ j : PrimitiveKind, j.typeText = k.typeText → j = k) :
    d.uses k = true ↔ named t = k.typeText := by
  have hleaf := named_typeText hp h
  rw [Descriptor.uses, List.contains_iff_mem, ← kinds_leaf]
  cases hd : d.leaf with
  | primitive j =>
    rw [hd] at hleaf
    rw [← Option.some.inj hleaf, Descriptor.kinds, List.mem_singleton]
    exact ⟨fun hkj => hkj ▸ rfl, fun hname => (own j hname).symm⟩
  | reference ref =>
    rw [hd] at hleaf
    exact iff_of_false List.not_mem_nil (class_ne_kind (head_of_modelClass hp hleaf) k)
  | enum spec =>
    rw [hd] at hleaf
    exact iff_of_false List.not_mem_nil (class_ne_kind (head_of_enumClass hp hleaf) k)
  | array e => exact absurd hd (leaf_ne_array d e)

end

end ApiSmith
