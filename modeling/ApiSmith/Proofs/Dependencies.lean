import ApiSmith.Package.Dependencies
import ApiSmith.Proofs.Keys

/-!
# What is left of a table of models

`settle` goes through a table again and again and takes models out while it goes, each with a
reference that was missing at that moment. The order in which they go does not matter: what is left
is the greatest part of the table whose references stay in the part (`settle_settled`).

Two facts about one pass carry everything. A model that belongs to a part whose references are
closed finds all of them among the names at hand, so no pass takes it out (`mem_sweep_of_closed`).
And a name that is missing when a model is taken out stays missing, since names only go
(`not_isNamedIn_of_mem_sweep`). Both are said of `sweep` with arbitrary names at hand and carried
over to `settle` by induction on its passes.
-/

namespace ApiSmith.Model

/-! ## Tables -/

def names (ms : List Model) : List Value := ms.map (·.name)

def IsTable (ms : List Model) : Prop := ms.Pairwise fun a b => a.name.same b.name = false

theorem isNamedIn_iff {vs : List Value} {ref : String} :
    isNamedIn vs ref = true ↔ .text ref ∈ vs := by
  simp only [isNamedIn, List.any_eq_true, Value.isText_iff]
  constructor
  · rintro ⟨v, hv, rfl⟩
    exact hv
  · intro h
    exact ⟨_, h, rfl⟩

theorem isNamedIn_names {ms : List Model} {ref : String} :
    isNamedIn (names ms) ref = true ↔ ∃ m ∈ ms, m.name = .text ref := by
  rw [isNamedIn_iff, names, List.mem_map]

theorem isNamedIn_without {vs : List Value} {v : Value} {ref : String} :
    isNamedIn (vs.filter fun n => !n.same v) ref = true ↔
      isNamedIn vs ref = true ∧ v ≠ .text ref := by
  simp only [isNamedIn_iff, List.mem_filter, Value.text_same, Bool.not_eq_true', ne_eq,
    ← Value.isText_iff, Bool.not_eq_true]

theorem missingIn_eq_none {vs : List Value} {refs : List String} :
    missingIn vs refs = none ↔ ∀ ref ∈ refs, isNamedIn vs ref = true := by
  simp [missingIn, List.find?_eq_none]

theorem missingIn_eq_some {vs : List Value} {refs : List String} {ref : String}
    (h : missingIn vs refs = some ref) : ref ∈ refs ∧ isNamedIn vs ref = false := by
  unfold missingIn at h
  exact ⟨List.mem_of_find?_eq_some h, by simpa using List.find?_some h⟩

theorem IsTable.ne_of_other {before rest : List Model} {m n : Model} {ref : String}
    (table : IsTable (before ++ m :: rest)) (hn : n ∈ before ++ rest) (hm : m.name = .text ref) :
    n.name ≠ .text ref := by
  intro hnr
  obtain ⟨-, hlate, hcross⟩ := List.pairwise_append.mp table
  rcases List.mem_append.mp hn with hn | hn
  · have := hcross n hn m List.mem_cons_self
    simp [hm, hnr, Value.isText] at this
  · have := (List.pairwise_cons.mp hlate).1 n hn
    simp [hm, hnr, Value.isText] at this

theorem IsTable.eq_of_name {ms : List Model} (table : IsTable ms) {m n : Model} {ref : String}
    (hm : m ∈ ms) (hn : n ∈ ms) (hmr : m.name = .text ref) (hnr : n.name = .text ref) :
    m = n := by
  obtain ⟨before, rest, rfl⟩ := List.append_of_mem hm
  rcases List.mem_append.mp hn with hb | hr
  · exact absurd hnr (table.ne_of_other (List.mem_append_left _ hb) hmr)
  · rcases List.mem_cons.mp hr with rfl | hr
    · rfl
    · exact absurd hnr (table.ne_of_other (List.mem_append_right _ hr) hmr)

theorem IsTable.filter_of_sublist {part ms : List Model} (table : IsTable ms)
    (sub : part.Sublist ms) (texts : ∀ m ∈ part, ∃ s, m.name = .text s) {keep : Model → Bool}
    (hkeep : ∀ m ∈ ms, keep m = true ↔ m.name ∈ names part) : ms.filter keep = part := by
  have differ : ∀ (k : Model) (rest : List Model), IsTable ([] ++ k :: rest) →
      ∀ s, k.name = .text s → ∀ n ∈ rest, n.name ≠ .text s :=
    fun _ _ table _ hk _ hn => table.ne_of_other hn hk
  induction sub with
  | slnil => rfl
  | @cons part rest k sub ih =>
    have hout : ¬ keep k = true := by
      intro hk
      obtain ⟨n, hn, hnk⟩ := List.mem_map.mp ((hkeep k List.mem_cons_self).mp hk)
      obtain ⟨s, hs⟩ := texts n hn
      exact differ k rest table s (hnk.symm.trans hs) n (sub.subset hn) hs
    rw [List.filter_cons_of_neg hout]
    exact ih (List.Pairwise.of_cons table) texts fun m hm => hkeep m (List.mem_cons_of_mem _ hm)
  | @cons_cons part rest k sub ih =>
    obtain ⟨s, hs⟩ := texts k List.mem_cons_self
    rw [List.filter_cons_of_pos ((hkeep k List.mem_cons_self).mpr List.mem_cons_self)]
    refine congrArg _ (ih (List.Pairwise.of_cons table)
      (fun m hm => texts m (List.mem_cons_of_mem _ hm)) fun m hm => ?_)
    rw [hkeep m (List.mem_cons_of_mem _ hm), names, List.map_cons, List.mem_cons, hs]
    exact or_iff_right (differ k rest table s hs m hm)

/-! ## One pass -/

theorem sweep_cons_of_present {vs : List Value} {m : Model} {rest : List Model}
    (h : missingIn vs m.references = none) :
    sweep vs (m :: rest) = (m :: (sweep vs rest).1, (sweep vs rest).2) := by
  rw [sweep, h]

theorem sweep_cons_of_missing {vs : List Value} {m : Model} {rest : List Model} {ref : String}
    (h : missingIn vs m.references = some ref) :
    sweep vs (m :: rest) =
      ((sweep (vs.filter fun n => !n.same m.name) rest).1,
        (m, ref) :: (sweep (vs.filter fun n => !n.same m.name) rest).2) := by
  rw [sweep, h]

theorem sweep_sublist (vs : List Value) (ms : List Model) : (sweep vs ms).1.Sublist ms := by
  induction ms generalizing vs with
  | nil => exact List.Sublist.refl _
  | cons m rest ih =>
    cases h : missingIn vs m.references with
    | none =>
      rw [sweep_cons_of_present h]
      exact (ih vs).cons_cons m
    | some ref =>
      rw [sweep_cons_of_missing h]
      exact (ih _).cons m

theorem sweep_perm (vs : List Value) (ms : List Model) :
    ((sweep vs ms).1 ++ (sweep vs ms).2.map (·.1)).Perm ms := by
  induction ms generalizing vs with
  | nil => exact List.Perm.refl _
  | cons m rest ih =>
    cases h : missingIn vs m.references with
    | none =>
      rw [sweep_cons_of_present h]
      exact (ih vs).cons m
    | some ref =>
      rw [sweep_cons_of_missing h]
      exact List.perm_middle.trans ((ih _).cons m)

theorem references_of_sweep_eq_nil {vs : List Value} {ms : List Model}
    (h : (sweep vs ms).2 = []) :
    (sweep vs ms).1 = ms ∧ ∀ m ∈ ms, ∀ ref ∈ m.references, isNamedIn vs ref = true := by
  induction ms with
  | nil => exact ⟨rfl, by simp⟩
  | cons m rest ih =>
    cases hm : missingIn vs m.references with
    | none =>
      rw [sweep_cons_of_present hm] at h ⊢
      obtain ⟨hleft, hrefs⟩ := ih h
      refine ⟨by rw [hleft], fun k hk => ?_⟩
      rcases List.mem_cons.mp hk with rfl | hk
      · exact missingIn_eq_none.mp hm
      · exact hrefs k hk
    | some ref =>
      rw [sweep_cons_of_missing hm] at h
      cases h

/-- A pass keeps a part of the table whose references lead to names `K` that are at hand and that
nothing outside of the part has. -/
theorem mem_sweep_of_closed (part : Model → Prop) (K : String → Prop) {vs : List Value}
    {ms : List Model} (present : ∀ ref, K ref → isNamedIn vs ref = true)
    (closed : ∀ m ∈ ms, part m → ∀ ref ∈ m.references, K ref)
    (own : ∀ m ∈ ms, ∀ ref, K ref → m.name = .text ref → part m) :
    ∀ m ∈ ms, part m → m ∈ (sweep vs ms).1 := by
  induction ms generalizing vs with
  | nil => simp
  | cons k rest ih =>
    have hclosed : ∀ m ∈ rest, part m → ∀ ref ∈ m.references, K ref :=
      fun m hm => closed m (List.mem_cons_of_mem _ hm)
    have hown : ∀ m ∈ rest, ∀ ref, K ref → m.name = .text ref → part m :=
      fun m hm => own m (List.mem_cons_of_mem _ hm)
    intro m hm hpart
    cases hk : missingIn vs k.references with
    | none =>
      rw [sweep_cons_of_present hk]
      rcases List.mem_cons.mp hm with rfl | hm
      · exact List.mem_cons_self
      · exact List.mem_cons_of_mem _ (ih present hclosed hown m hm hpart)
    | some ref =>
      rw [sweep_cons_of_missing hk]
      obtain ⟨href, hmissing⟩ := missingIn_eq_some hk
      -- the model that goes is not of the part, so the names `K` stay at hand
      have hout : ¬ part k := by
        intro hp
        have := present ref (closed k List.mem_cons_self hp ref href)
        rw [hmissing] at this
        cases this
      have hstay : ∀ r, K r → isNamedIn (vs.filter fun n => !n.same k.name) r = true :=
        fun r hr => isNamedIn_without.mpr
          ⟨present r hr, fun he => hout (own k List.mem_cons_self r hr he)⟩
      rcases List.mem_cons.mp hm with rfl | hm
      · exact absurd hpart hout
      · exact ih hstay hclosed hown m hm hpart

/-- What a model is taken out for is a reference of its own to no model that the pass leaves.
`before` are the models that the pass left so far. -/
theorem not_isNamedIn_of_mem_sweep {vs : List Value} (before : List Model) {ms : List Model}
    (table : IsTable (before ++ ms))
    (hand : ∀ ref, isNamedIn (names (before ++ ms)) ref = true → isNamedIn vs ref = true)
    {d : Model × String} (h : d ∈ (sweep vs ms).2) :
    d.2 ∈ d.1.references ∧ isNamedIn (names (before ++ (sweep vs ms).1)) d.2 = false := by
  induction ms generalizing vs before with
  | nil => cases h
  | cons m rest ih =>
    cases hm : missingIn vs m.references with
    | none =>
      rw [sweep_cons_of_present hm] at h ⊢
      have := ih (before ++ [m]) (by simpa using table) (by simpa using hand) h
      simpa using this
    | some ref =>
      rw [sweep_cons_of_missing hm] at h ⊢
      obtain ⟨href, hmissing⟩ := missingIn_eq_some hm
      have hsub : (before ++ rest).Sublist (before ++ m :: rest) :=
        (List.Sublist.refl before).append (List.sublist_cons_self m rest)
      rcases List.mem_cons.mp h with rfl | h
      · refine ⟨href, Bool.eq_false_iff.mpr fun hnamed => ?_⟩
        obtain ⟨n, hn, hnr⟩ := isNamedIn_names.mp hnamed
        have hleft : n ∈ before ++ m :: rest :=
          hsub.subset (((List.Sublist.refl before).append (sweep_sublist _ rest)).subset hn)
        have := hand ref (isNamedIn_names.mpr ⟨n, hleft, hnr⟩)
        rw [hmissing] at this
        cases this
      · refine ih before (table.sublist hsub) (fun r hr => isNamedIn_without.mpr ?_) h
        obtain ⟨n, hn, hnr⟩ := isNamedIn_names.mp hr
        exact ⟨hand r (isNamedIn_names.mpr ⟨n, hsub.subset hn, hnr⟩),
          fun he => table.ne_of_other hn he hnr⟩

/-! ## All passes -/

/-- A part of a table: every reference of its models is to one of them. -/
def IsClosed (ms : List Model) : Prop :=
  ∀ m ∈ ms, ∀ ref ∈ m.references, isNamedIn (names ms) ref = true

theorem settle_of_stable {ms : List Model} (h : (pass ms).2 = []) : settle ms = pass ms := by
  rw [settle, if_pos (by simp [h])]

theorem settle_of_unstable {ms : List Model} (h : (pass ms).2 ≠ []) :
    settle ms = ((settle (pass ms).1).1, (pass ms).2 ++ (settle (pass ms).1).2) := by
  rw [settle, if_neg (by simp [h])]

/-- What holds of a table that a pass does not change, and of a table if it holds of what a pass
leaves of it, holds of every table. -/
theorem settle_induction {P : List Model → Prop} (stable : ∀ ms, (pass ms).2 = [] → P ms)
    (unstable : ∀ ms, (pass ms).2 ≠ [] → P (pass ms).1 → P ms) (ms : List Model) : P ms := by
  fun_induction settle ms with
  | case1 ms h => exact stable ms (by simpa using h)
  | case2 ms h _ ih => exact unstable ms (by simpa using h) ih

theorem settle_sublist (ms : List Model) : (settle ms).1.Sublist ms := by
  induction ms using settle_induction with
  | stable ms h =>
    rw [settle_of_stable h]
    exact sweep_sublist _ ms
  | unstable ms h ih =>
    rw [settle_of_unstable h]
    exact ih.trans (sweep_sublist _ ms)

theorem settle_perm (ms : List Model) : ((settle ms).1 ++ (settle ms).2.map (·.1)).Perm ms := by
  induction ms using settle_induction with
  | stable ms h =>
    rw [settle_of_stable h]
    exact sweep_perm _ ms
  | unstable ms h ih =>
    rw [settle_of_unstable h]
    -- what this pass takes out is moved behind what the later ones do
    rw [List.map_append]
    refine (List.perm_append_comm.append_left _).trans ?_
    rw [← List.append_assoc]
    exact (ih.append_right _).trans (sweep_perm _ ms)

theorem settle_closed (ms : List Model) : IsClosed (settle ms).1 := by
  induction ms using settle_induction with
  | stable ms h =>
    obtain ⟨hleft, hrefs⟩ := references_of_sweep_eq_nil h
    rw [settle_of_stable h]
    intro m hm ref href
    rw [pass, hleft] at hm ⊢
    exact hrefs m hm ref href
  | unstable ms h ih =>
    rw [settle_of_unstable h]
    exact ih

theorem sweep_of_present {vs : List Value} {ms : List Model}
    (h : ∀ m ∈ ms, ∀ ref ∈ m.references, isNamedIn vs ref = true) : sweep vs ms = (ms, []) := by
  induction ms with
  | nil => rfl
  | cons m rest ih =>
    rw [sweep_cons_of_present (missingIn_eq_none.mpr (h m List.mem_cons_self)),
      ih fun k hk => h k (List.mem_cons_of_mem _ hk)]

theorem settle_of_closed {ms : List Model} (h : IsClosed ms) : settle ms = (ms, []) := by
  have hpass : pass ms = (ms, []) := sweep_of_present h
  rw [settle_of_stable (by rw [hpass]), hpass]

theorem mem_settle_of_closed {ms part : List Model} (table : IsTable ms) (sub : part ⊆ ms)
    (closed : IsClosed part) : part ⊆ (settle ms).1 := by
  have hpass : ∀ ms, IsTable ms → part ⊆ ms → part ⊆ (pass ms).1 := by
    intro ms table sub m hm
    refine mem_sweep_of_closed (· ∈ part) (fun ref => isNamedIn (names part) ref = true)
      ?_ ?_ ?_ m (sub hm) hm
    · intro ref href
      obtain ⟨n, hn, hnr⟩ := isNamedIn_names.mp href
      exact isNamedIn_names.mpr ⟨n, sub hn, hnr⟩
    · intro k _ hk
      exact closed k hk
    · intro k hk ref href hkr
      obtain ⟨n, hn, hnr⟩ := isNamedIn_names.mp href
      exact table.eq_of_name hk (sub hn) hkr hnr ▸ hn
  induction ms using settle_induction with
  | stable ms h =>
    rw [settle_of_stable h]
    exact hpass ms table sub
  | unstable ms h ih =>
    rw [settle_of_unstable h]
    exact ih (table.sublist (sweep_sublist _ ms)) (hpass ms table sub)

theorem not_isNamedIn_of_mem_settle {ms : List Model} (table : IsTable ms) {d : Model × String}
    (h : d ∈ (settle ms).2) :
    d.2 ∈ d.1.references ∧ isNamedIn (names (settle ms).1) d.2 = false := by
  have hpass : ∀ ms, IsTable ms → d ∈ (pass ms).2 →
      d.2 ∈ d.1.references ∧ isNamedIn (names (pass ms).1) d.2 = false :=
    fun ms table => not_isNamedIn_of_mem_sweep [] table fun _ => id
  induction ms using settle_induction with
  | stable ms hs =>
    rw [settle_of_stable hs] at h ⊢
    exact hpass ms table h
  | unstable ms hs ih =>
    rw [settle_of_unstable hs] at h ⊢
    rcases List.mem_append.mp h with h | h
    · obtain ⟨href, hmissing⟩ := hpass ms table h
      refine ⟨href, Bool.eq_false_iff.mpr fun hnamed => ?_⟩
      obtain ⟨n, hn, hnr⟩ := isNamedIn_names.mp hnamed
      have := isNamedIn_names.mpr ⟨n, (settle_sublist _).subset hn, hnr⟩
      rw [hmissing] at this
      cases this
    · exact ih (table.sublist (sweep_sublist _ ms)) h

/-! ## Chains of references -/

/-- A chain of references that starts at a model and goes through models of the table leads to a
name. -/
inductive Leads (ms : List Model) : Model → String → Prop
  /-- The model refers to the name. -/
  | here {m : Model} {ref : String} : ref ∈ m.references → Leads ms m ref
  /-- The model refers to another one, from which a chain leads to the name. -/
  | there {m n : Model} {ref target : String} : ref ∈ m.references → n ∈ ms →
      n.name = .text ref → Leads ms n target → Leads ms m target

theorem isNamedIn_of_leads {ms : List Model} (table : IsTable ms) {m : Model} {target : String}
    (chain : Leads ms m target) (hm : m ∈ (settle ms).1) :
    isNamedIn (names (settle ms).1) target = true := by
  induction chain with
  | here href => exact settle_closed ms _ hm _ href
  | there href hn hnr _ ih =>
    obtain ⟨k, hk, hkr⟩ := isNamedIn_names.mp (settle_closed ms _ hm _ href)
    exact ih (table.eq_of_name ((settle_sublist ms).subset hk) hn hkr hnr ▸ hk)

/-- A model is left exactly if every name that a chain of references from it leads to is in the
table. -/
theorem mem_settle_iff {ms : List Model} (table : IsTable ms) {m : Model} (hm : m ∈ ms) :
    m ∈ (settle ms).1 ↔ ∀ target, Leads ms m target → isNamedIn (names ms) target = true := by
  constructor
  · intro hleft target chain
    obtain ⟨n, hn, hnr⟩ := isNamedIn_names.mp (isNamedIn_of_leads table chain hleft)
    exact isNamedIn_names.mpr ⟨n, (settle_sublist ms).subset hn, hnr⟩
  · intro hall
    classical
    let part := ms.filter fun n =>
      decide (∀ target, Leads ms n target → isNamedIn (names ms) target = true)
    have hmem : ∀ n, n ∈ part ↔ n ∈ ms ∧
        ∀ target, Leads ms n target → isNamedIn (names ms) target = true := by
      intro n
      simp [part]
    refine mem_settle_of_closed table (fun n hn => ((hmem n).mp hn).1) ?_ ((hmem m).mpr ⟨hm, hall⟩)
    intro n hn ref href
    obtain ⟨_, hgood⟩ := (hmem n).mp hn
    obtain ⟨k, hk, hkr⟩ := isNamedIn_names.mp (hgood ref (.here href))
    exact isNamedIn_names.mpr
      ⟨k, (hmem k).mpr ⟨hk, fun target chain => hgood target (.there href hk hkr chain)⟩, hkr⟩

/-- What is left of a table, and what is taken out with the reference that was missing. -/
structure Settled (table left : List Model) (out : List (Model × String)) : Prop where
  /-- What is left is unchanged and in order. -/
  sublist : left.Sublist table
  /-- Every model is left or taken out once. -/
  perm : (left ++ out.map (·.1)).Perm table
  /-- A model is left exactly if no chain of references leads out of the table. -/
  chains : ∀ m ∈ table,
    (m ∈ left ↔ ∀ target, Leads table m target → isNamedIn (names table) target = true)
  /-- References stay in what is left. -/
  closed : IsClosed left
  /-- Any other part with this property is smaller. -/
  greatest : ∀ part, part ⊆ table → IsClosed part → part ⊆ left
  /-- A model is taken out for a reference of its own to nothing that is left. -/
  missing : ∀ d ∈ out, d.2 ∈ d.1.references ∧ isNamedIn (names left) d.2 = false

theorem settle_settled {ms : List Model} (table : IsTable ms) :
    Settled ms (settle ms).1 (settle ms).2 where
  sublist := settle_sublist ms
  perm := settle_perm ms
  chains := fun _ hm => mem_settle_iff table hm
  closed := settle_closed ms
  greatest := fun _ sub closed => mem_settle_of_closed table sub closed
  missing := fun _ hd => not_isNamedIn_of_mem_settle table hd

end ApiSmith.Model
