import ApiSmith.Payload.Answer
import ApiSmith.Proofs.Dynamic
import ApiSmith.Proofs.Keys

/-!
# What JSON texts say

Whatever is read from a JSON text is JSON data (`isJson_of_read`). Keys are texts, and since a later
entry takes the place of an earlier one with its key, they are distinct. Values, elements and entries
are read by three functions that call each other with less fuel, so the induction is on the fuel and
carries all three at once (`ReadsJson`).
-/

namespace ApiSmith.Json

theorem isJson_map_overlay {es : List (Value × Value)} (texts : HasTextKeys es)
    (parts : ∀ e ∈ es, e.2.IsJson) : (Value.map (overlay [] es)).IsJson := by
  obtain ⟨distinct, hes⟩ := overlay_nil_distinct texts
  exact .map (fun e he => texts e (hes e he)) distinct fun e he => parts e (hes e he)

theorem isJson_of_number {cs rest : List Char} {v : Value} (h : number cs = .ok (v, rest)) :
    v.IsJson := by
  unfold number at h
  simp only at h
  -- The sign of an integer makes one case more than the kind of the number.
  split_ifs at h <;> obtain rfl := (Prod.mk.inj (Except.ok.inj h)).1
  · exact .int _
  · exact .int _
  · exact .float _

theorem isJson_of_atom {cs rest : List Char} {v : Value} (h : atom cs = .ok (v, rest)) :
    v.IsJson := by
  unfold atom at h
  simp only at h
  split at h
  · next r hr =>
    obtain rfl : r = (v, rest) := Except.ok.inj h
    obtain ⟨w, hw, hword⟩ := List.exists_of_findSome?_eq_some hr
    obtain ⟨rest', -, heq⟩ := Option.map_eq_some_iff.mp hword
    obtain rfl : w.2 = v := (Prod.mk.inj heq).1
    simp only [List.mem_cons, List.not_mem_nil, or_false] at hw
    rcases hw with rfl | rfl | rfl | rfl | rfl | rfl
    · exact .null
    · exact .bool true
    · exact .bool false
    all_goals exact .float _
  · exact isJson_of_number h

/-- What is read with some fuel is JSON data. -/
structure ReadsJson (fuel : Nat) : Prop where
  value : ∀ cs v rest, value fuel cs = .ok (v, rest) → v.IsJson
  items : ∀ cs vs rest, items fuel cs = .ok (vs, rest) → ∀ v ∈ vs, v.IsJson
  entries : ∀ cs es rest, entries fuel cs = .ok (es, rest) →
    HasTextKeys es ∧ ∀ e ∈ es, e.2.IsJson

namespace ReadsJson

variable {fuel : Nat}

theorem value_succ (h : ReadsJson fuel) {cs rest : List Char} {v : Value}
    (hv : Json.value (fuel + 1) cs = .ok (v, rest)) : v.IsJson := by
  rw [Json.value.eq_def] at hv
  simp only at hv
  split at hv
  · obtain ⟨⟨s, rest'⟩, -, hv⟩ := bind_eq_ok.mp hv
    cases hv
    exact .text s
  · split at hv
    · cases hv
      exact .list (by simp)
    · obtain ⟨⟨vs, rest'⟩, hvs, hv⟩ := bind_eq_ok.mp hv
      cases hv
      exact .list (h.items _ _ _ hvs)
  · split at hv
    · cases hv
      exact .map (by simp) (by simp) (by simp)
    · obtain ⟨⟨es, rest'⟩, hes, hv⟩ := bind_eq_ok.mp hv
      cases hv
      obtain ⟨texts, parts⟩ := h.entries _ _ _ hes
      exact isJson_map_overlay texts parts
  · exact isJson_of_atom hv

theorem items_succ (h : ReadsJson fuel) {cs rest : List Char} {vs : List Value}
    (hvs : Json.items (fuel + 1) cs = .ok (vs, rest)) : ∀ v ∈ vs, v.IsJson := by
  rw [Json.items] at hvs
  obtain ⟨⟨v, rest'⟩, hv, hvs⟩ := bind_eq_ok.mp hvs
  have first := h.value _ _ _ hv
  simp only at hvs
  split at hvs
  · cases hvs
    exact List.forall_mem_singleton.mpr first
  · obtain ⟨⟨more, rest''⟩, hmore, hvs⟩ := bind_eq_ok.mp hvs
    cases hvs
    exact List.forall_mem_cons.mpr ⟨first, h.items _ _ _ hmore⟩
  · cases hvs

theorem entries_succ (h : ReadsJson fuel) {cs rest : List Char} {es : List (Value × Value)}
    (hes : Json.entries (fuel + 1) cs = .ok (es, rest)) :
    HasTextKeys es ∧ ∀ e ∈ es, e.2.IsJson := by
  rw [Json.entries.eq_def] at hes
  simp only at hes
  split at hes
  · obtain ⟨⟨key, rest'⟩, -, hes⟩ := bind_eq_ok.mp hes
    simp only at hes
    split at hes
    · obtain ⟨⟨v, rest''⟩, hv, hes⟩ := bind_eq_ok.mp hes
      have first := h.value _ _ _ hv
      simp only at hes
      split at hes
      · cases hes
        exact ⟨List.forall_mem_singleton.mpr ⟨key, rfl⟩, List.forall_mem_singleton.mpr first⟩
      · obtain ⟨⟨more, rest'''⟩, hmore, hes⟩ := bind_eq_ok.mp hes
        cases hes
        obtain ⟨texts, parts⟩ := h.entries _ _ _ hmore
        exact ⟨List.forall_mem_cons.mpr ⟨⟨key, rfl⟩, texts⟩,
          List.forall_mem_cons.mpr ⟨first, parts⟩⟩
      · cases hes
    · cases hes
  · cases hes

end ReadsJson

theorem readsJson (fuel : Nat) : ReadsJson fuel := by
  induction fuel with
  | zero =>
    refine ⟨fun cs v rest h => ?_, fun cs vs rest h => ?_, fun cs es rest h => ?_⟩
    · rw [value] at h
      cases h
    · rw [items] at h
      cases h
    · rw [entries] at h
      cases h
  | succ fuel ih =>
    exact ⟨fun _ _ _ h => ih.value_succ h, fun _ _ _ h => ih.items_succ h,
      fun _ _ _ h => ih.entries_succ h⟩

/-- What a JSON text says is JSON data. -/
theorem isJson_of_read {cs : List Char} {v : Value} (h : read cs = .ok v) : v.IsJson := by
  unfold read at h
  obtain ⟨⟨w, rest⟩, hw, h⟩ := bind_eq_ok.mp h
  simp only at h
  split at h
  · cases h
    exact (readsJson _).value _ _ _ hw
  · cases h

end ApiSmith.Json

namespace ApiSmith

theorem isJson_of_jsonBody {body : List UInt8} {v : Value} (h : jsonBody body = .ok v) :
    v.IsJson := by
  unfold jsonBody at h
  split at h
  · next w hw =>
    obtain rfl := Except.ok.inj h
    obtain ⟨cs, -, hread⟩ := Option.map_eq_some_iff.mp hw
    exact Json.isJson_of_read hread
  · cases h

end ApiSmith
