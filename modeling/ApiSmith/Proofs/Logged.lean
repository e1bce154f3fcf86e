import ApiSmith.Defect
import Mathlib.Data.List.Forall2

/-!
# Results of logged computations

A logged computation has a result exactly if its parts have, and what it logs does not matter for
that. `result_bind_eq_ok` takes a computation apart at a bind and `result_mapM_eq_ok` takes one over
a list apart into one result for each element, so that proofs about compiling need not open the
monad.
-/

namespace ApiSmith

namespace Logged

variable {ε α β : Type}

theorem ext_iff {x y : Logged ε α} : x = y ↔ x.result = y.result ∧ x.log = y.log := by
  cases x
  cases y
  simp

theorem log_bind_of_ok {x : Logged ε α} {f : α → Logged ε β} {a : α} (h : x.result = .ok a) :
    (x >>= f).log = x.log ++ (f a).log := by
  show (andThen x f).log = _
  rw [andThen, h]

theorem log_bind_of_error {x : Logged ε α} {f : α → Logged ε β} {e : ε}
    (h : x.result = .error e) : (x >>= f).log = x.log := by
  show (andThen x f).log = _
  rw [andThen, h]

instance : LawfulMonad (Logged ε) := by
  refine LawfulMonad.mk' (Logged ε) ?_ ?_ ?_
  · intro α x
    show andThen x (fun a => pure a) = x
    rw [ext_iff]
    unfold andThen
    cases h : x.result with
    | error e => simp
    | ok a =>
      show Except.ok a = .ok a ∧ x.log ++ [] = x.log
      simp
  · intro α β a f
    rw [ext_iff]
    exact ⟨rfl, rfl⟩
  · intro α β γ x f g
    rw [ext_iff]
    cases hx : x.result with
    | error e =>
      rw [log_bind_of_error (x := x) (f := fun a => f a >>= g) hx,
        log_bind_of_error (e := e) (by simp [hx, Except.bind]), log_bind_of_error hx]
      simp [hx, Except.bind]
    | ok a =>
      cases hf : (f a).result with
      | error e =>
        rw [log_bind_of_error (e := e) (by simp [hx, hf, Except.bind]), log_bind_of_ok hx,
          log_bind_of_ok hx, log_bind_of_error hf]
        simp [hx, hf, Except.bind]
      | ok b =>
        rw [log_bind_of_ok (a := b) (by simp [hx, hf, Except.bind]), log_bind_of_ok hx,
          log_bind_of_ok hx, log_bind_of_ok hf]
        simp [hx, hf, Except.bind]

theorem result_bind_eq_ok {x : Logged ε α} {f : α → Logged ε β} {b : β} :
    (x >>= f).result = .ok b ↔ ∃ a, x.result = .ok a ∧ (f a).result = .ok b := by
  rw [result_bind]
  cases h : x.result with
  | error e => simp [Except.bind]
  | ok a => simp [Except.bind]

theorem result_bind_of_ok {x : Logged ε α} {f : α → Logged ε β} {a : α} (h : x.result = .ok a) :
    (x >>= f).result = (f a).result := by
  rw [result_bind, h]
  rfl

theorem result_bind_of_error {x : Logged ε α} {f : α → Logged ε β} {e : ε}
    (h : x.result = .error e) : (x >>= f).result = .error e := by
  rw [result_bind, h]
  rfl

theorem result_note_when {b : Prop} [Decidable b] (level : Level) (channel : Channel)
    (text : String) (k : Unit → Logged ε α) :
    (if b then note level channel text >>= k else k ()).result = (k ()).result := by
  split
  · exact result_bind_of_ok rfl
  · rfl

/-- A computation over a list has a result exactly if it has one at every element. -/
theorem result_mapM_eq_ok {f : α → Logged ε β} {xs : List α} {ys : List β} :
    (xs.mapM f).result = .ok ys ↔ List.Forall₂ (fun x y => (f x).result = .ok y) xs ys := by
  induction xs generalizing ys with
  | nil => cases ys <;> simp
  | cons x xs ih =>
    rw [List.mapM_cons, result_bind_eq_ok]
    constructor
    · rintro ⟨y, hy, h⟩
      obtain ⟨zs, hzs, h⟩ := result_bind_eq_ok.mp h
      cases h
      exact .cons hy (ih.mp hzs)
    · intro h
      cases h with
      | cons hy hys => exact ⟨_, hy, result_bind_eq_ok.mpr ⟨_, ih.mpr hys, rfl⟩⟩

theorem result_mapM_of_ok {f : α → Logged ε β} {g : α → β} (h : ∀ x, (f x).result = .ok (g x))
    (xs : List α) : (xs.mapM f).result = .ok (xs.map g) := by
  rw [result_mapM_eq_ok]
  induction xs with
  | nil => exact .nil
  | cons x xs ih => exact .cons (h x) ih

end Logged

namespace Compile

variable {α : Type}

theorem result_shaped_eq_ok {x : Option α} {a : α} :
    (Compile.shaped x).result = .ok a ↔ x = some a := by
  cases x <;> simp

@[simp] theorem result_defect (cause : Cause) (location : String) :
    (Compile.defect cause location : Compile α).result = .error (.defect ⟨cause, location⟩) := rfl

end Compile

theorem bind_eq_ok {ε α β : Type} {x : Except ε α} {f : α → Except ε β} {b : β} :
    (x >>= f) = .ok b ↔ ∃ a, x = .ok a ∧ f a = .ok b := by
  cases x <;> simp [bind, Except.bind]

theorem bind_eq_error {ε α β : Type} {x : Except ε α} {f : α → Except ε β} {e : ε} :
    (x >>= f) = .error e ↔ x = .error e ∨ ∃ a, x = .ok a ∧ f a = .error e := by
  cases x <;> simp [bind, Except.bind]

theorem exists_of_isOk {ε α : Type} {r : Except ε α} (h : r.isOk = true) : ∃ a, r = .ok a := by
  cases r with
  | error e => cases h
  | ok a => exact ⟨a, rfl⟩

theorem toOption_eq_some {ε α : Type} {r : Except ε α} {a : α} :
    r.toOption = some a ↔ r = .ok a := by
  cases r <;> simp [Except.toOption]

theorem mapM_eq_some_iff {α β : Type} {f : α → Option β} {xs : List α} {ys : List β} :
    xs.mapM f = some ys ↔ List.Forall₂ (fun x y => f x = some y) xs ys := by
  induction xs generalizing ys with
  | nil => cases ys <;> simp
  | cons x xs ih =>
    simp only [List.mapM_cons, Option.pure_def, Option.bind_eq_bind, Option.bind_eq_some_iff,
      Option.some.injEq]
    constructor
    · rintro ⟨y, hy, zs, hzs, rfl⟩
      exact .cons hy (ih.mp hzs)
    · intro h
      cases h with
      | cons hy hys => exact ⟨_, hy, _, ih.mpr hys, rfl⟩

theorem exists_mapM_eq_some {α β : Type} {f : α → Option β} {xs : List α}
    (h : ∀ x ∈ xs, ∃ y, f x = some y) : ∃ ys, xs.mapM f = some ys := by
  induction xs with
  | nil => exact ⟨[], rfl⟩
  | cons x xs ih =>
    obtain ⟨y, hy⟩ := h x List.mem_cons_self
    obtain ⟨ys, hys⟩ := ih fun x hx => h x (List.mem_cons_of_mem _ hx)
    exact ⟨y :: ys, mapM_eq_some_iff.mpr (.cons hy (mapM_eq_some_iff.mp hys))⟩

theorem exists_of_mem_forall₂ {α β : Type} {R : α → β → Prop} {xs : List α} {ys : List β}
    (h : List.Forall₂ R xs ys) {y : β} (hy : y ∈ ys) : ∃ x ∈ xs, R x y := by
  induction h with
  | nil => cases hy
  | cons hx _ ih =>
    rcases List.mem_cons.mp hy with rfl | hy
    · exact ⟨_, List.mem_cons_self, hx⟩
    · obtain ⟨x, hmem, hxy⟩ := ih hy
      exact ⟨x, List.mem_cons_of_mem _ hmem, hxy⟩

theorem getElem?_of_forall₂ {α β : Type} {R : α → β → Prop} {as : List α} {bs : List β}
    (h : List.Forall₂ R as bs) {i : Nat} {a : α} (ha : as[i]? = some a) :
    ∃ b, bs[i]? = some b ∧ R a b := by
  induction h generalizing i with
  | nil => cases ha
  | cons hfirst _ ih =>
    cases i with
    | zero =>
      cases ha
      exact ⟨_, rfl, hfirst⟩
    | succ i => exact ih ha

theorem exists_of_mem_mapM {α β : Type} {f : α → Option β} {xs : List α} {ys : List β}
    (h : xs.mapM f = some ys) {y : β} (hy : y ∈ ys) : ∃ x ∈ xs, f x = some y :=
  exists_of_mem_forall₂ (mapM_eq_some_iff.mp h) hy

theorem exists_of_mapM_of_mem {α β : Type} {f : α → Option β} {xs : List α} {ys : List β}
    (h : xs.mapM f = some ys) {x : α} (hx : x ∈ xs) : ∃ y ∈ ys, f x = some y :=
  exists_of_mem_forall₂ (mapM_eq_some_iff.mp h).flip hx

theorem map_eq_of_mapM {α β γ : Type} {f : α → Option β} {g : β → γ} {k : α → γ} {xs : List α}
    {ys : List β} (h : xs.mapM f = some ys) (hk : ∀ x y, f x = some y → g y = k x) :
    ys.map g = xs.map k := by
  rw [mapM_eq_some_iff] at h
  induction h with
  | nil => rfl
  | cons hx _ ih => rw [List.map_cons, List.map_cons, hk _ _ hx, ih]

end ApiSmith
