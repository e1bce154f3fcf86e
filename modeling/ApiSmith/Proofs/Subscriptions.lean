import Mathlib.Data.List.Basic
import ApiSmith.Proofs.Posts

/-!
# Which subscriptions stand

Each subscription returns a function that takes it back. A registry does not know this function: it
takes out the first equal subscription, and does so at every call. A registry that loses exactly the
subscription whose function is called would be kept in a `Book`, where each one is marked on its
own. The two agree as long as no call does harm (`Book.IsHarmless`), and a call can do harm in two
ways.

* The function was called before. Then an equal subscription that stands goes in place of the one
  that is gone.
* An equal subscription was made earlier and stands. Then this one goes, and the observer keeps the
  later place. It shows if another observer stands in between.

Both need an observer that is subscribed twice under one name, so nothing of the kind can happen
where all subscriptions differ (`Performs.standing_of_distinct`).

The argument is by one deal (`agrees_deal_iff`): from books that agree, it leads to books that agree
exactly if it does no harm. For the second way, `erase_standing_iff` follows the book down to the
first equal subscription that stands; from there on, that one goes to the end of a row, which
changes nothing only if the row is one of equal observers.
-/

namespace ApiSmith.Notices

variable {ε : Type}

/-! ## The book of a run -/

/-- All subscriptions that were ever made, oldest first, and whether the function that each returned
was not called yet. -/
abbrev Book := List (Subscription × Bool)

namespace Book

def deal (b : Book) : Deal → Book
  | .subscribe s => b ++ [(s, true)]
  | .takeBack n => b.modify n fun e => (e.1, false)

def dealAll (b : Book) (ds : List Deal) : Book := ds.foldl deal b

/-- The subscriptions whose own function was not called. -/
def standing (b : Book) : Registry := (b.filter (·.2)).map (·.1)

/-- What a registry is that loses a subscription exactly when its own function is called. -/
def Agrees (b : Book) (r : Registry) : Prop :=
  ∀ name, r.observers name = b.standing.observers name

/-- What makes a call of the function of a subscription end this one only, or nothing if it was
called before. -/
structure IsHarmless (b : Book) (n : Nat) : Prop where
  /-- Once it was called, no equal subscription stands. -/
  again : ∀ s, b[n]? = some (s, false) → (s, true) ∉ b
  /-- When it is called first, whatever stands under the name between an equal subscription and this
  one is equal too. -/
  first : ∀ s, b[n]? = some (s, true) → ∀ us vs, b.take n = us ++ (s, true) :: vs →
    ∀ t, (t, true) ∈ vs → t.name = s.name → t = s

theorem made_deal {b : Book} {d : Desk} (h : b.map (·.1) = d.made) (a : Deal) :
    (b.deal a).map (·.1) = (d.deal a).made := by
  cases a with
  | subscribe s => simp [deal, Desk.deal, h]
  | takeBack n =>
    have hmade : (d.deal (.takeBack n)).made = d.made := by
      simp only [Desk.deal]
      split <;> rfl
    rw [hmade, ← h, deal]
    refine List.ext_getElem? fun i => ?_
    simp only [List.getElem?_map, List.getElem?_modify]
    split
    · cases b[i]? <;> rfl
    · simp

theorem standing_append (b c : Book) : standing (b ++ c) = b.standing ++ c.standing := by
  simp [standing]

end Book

theorem Registry.observers_append (r t : Registry) (name : String) :
    Registry.observers (r ++ t) name = r.observers name ++ t.observers name := by
  simp [Registry.observers]

/-! ## One call -/

theorem append_singleton_eq_cons_iff {α : Type} {a : α} {xs : List α} :
    xs ++ [a] = a :: xs ↔ ∀ x ∈ xs, x = a := by
  induction xs with
  | nil => simp
  | cons x xs ih =>
    rw [List.cons_append, List.cons.injEq, List.forall_mem_cons]
    constructor
    · rintro ⟨rfl, h⟩
      exact ⟨rfl, ih.mp h⟩
    · rintro ⟨rfl, h⟩
      exact ⟨rfl, ih.mpr h⟩

theorem mem_observers_standing {b : Book} {name o : String} :
    o ∈ b.standing.observers name ↔ (⟨name, o⟩, true) ∈ b := by
  simp only [Book.standing, Registry.observers, List.mem_map, List.mem_filter]
  constructor
  · rintro ⟨_, ⟨⟨⟨s, st⟩, ⟨hmem, rfl⟩, rfl⟩, hname⟩, rfl⟩
    rwa [← beq_iff_eq.mp hname]
  · intro h
    exact ⟨⟨name, o⟩, ⟨⟨_, ⟨h, rfl⟩, rfl⟩, by simp⟩, rfl⟩

theorem observers_standing_cons (e : Subscription × Bool) (b : Book) (name : String) :
    (Book.standing (e :: b)).observers name =
      if e.2 = true ∧ e.1.name = name then e.1.observer :: b.standing.observers name
      else b.standing.observers name := by
  obtain ⟨t, stands⟩ := e
  cases stands <;> by_cases hname : t.name = name <;>
    simp [Book.standing, Registry.observers, hname]

/-- Taking out the first of the equal subscriptions that stand, instead of the one behind them,
makes no difference exactly if all that stands after the first one is equal to it. -/
theorem erase_standing_iff (b : Book) (s : Subscription) (later : List String) :
    (b.standing.observers s.name ++ s.observer :: later).erase s.observer =
        b.standing.observers s.name ++ later ↔
      ∀ us vs, b = us ++ (s, true) :: vs → ∀ t, (t, true) ∈ vs → t.name = s.name → t = s := by
  induction b with
  | nil => simp [Book.standing]
  | cons e rest ih =>
    rw [observers_standing_cons]
    have hsplit : (∀ us vs, e :: rest = us ++ (s, true) :: vs →
          ∀ t, (t, true) ∈ vs → t.name = s.name → t = s) ↔
        (e = (s, true) → ∀ t, (t, true) ∈ rest → t.name = s.name → t = s) ∧
          ∀ us vs, rest = us ++ (s, true) :: vs →
            ∀ t, (t, true) ∈ vs → t.name = s.name → t = s := by
      constructor
      · intro h
        refine ⟨fun he => h [] rest (by rw [he]; rfl), fun us vs hrest => h (e :: us) vs ?_⟩
        rw [hrest]
        rfl
      · rintro ⟨hfirst, hrest⟩ us vs heq
        rcases List.cons_eq_append_iff.mp heq with ⟨rfl, hcons⟩ | ⟨us, rfl, htail⟩
        · obtain ⟨he, rfl⟩ := List.cons.inj hcons
          exact hfirst he.symm
        · exact hrest us vs htail
    rw [hsplit]
    -- an equal subscription that stands is the one that erasing takes out, and nothing behind it
    by_cases he : e = (s, true)
    · subst he
      have hall : (∀ o ∈ (Book.standing rest).observers s.name, o = s.observer) ↔
          ∀ t, (t, true) ∈ rest → t.name = s.name → t = s := by
        constructor
        · intro h t ht hname
          have hobs := h t.observer (mem_observers_standing.mpr (by rwa [← hname]))
          exact Subscription.ext hname hobs
        · intro h o ho
          rw [← h _ (mem_observers_standing.mp ho) rfl]
      rw [if_pos ⟨rfl, rfl⟩, List.cons_append, List.cons_append, List.erase_cons_head,
        List.append_cons, ← List.cons_append, List.append_left_inj, append_singleton_eq_cons_iff,
        hall]
      refine ⟨fun h => ⟨fun _ => h, fun us vs hrest t ht => h t ?_⟩, fun h => h.1 rfl⟩
      rw [hrest]
      exact List.mem_append_right _ (List.mem_cons_of_mem _ ht)
    · have hother : (e = (s, true) → ∀ t, (t, true) ∈ rest → t.name = s.name → t = s) ↔ True :=
        ⟨fun _ => trivial, fun _ h => absurd h he⟩
      rw [hother, true_and, ← ih]
      by_cases hin : e.2 = true ∧ e.1.name = s.name
      · have hne : e.1.observer ≠ s.observer := fun hobs =>
          he (Prod.ext (Subscription.ext hin.2 hobs) hin.1)
        rw [if_pos hin, List.cons_append, List.cons_append,
          List.erase_cons_tail (by simpa using hne), List.cons_inj_right]
      · rw [if_neg hin]

namespace Book

theorem standing_takeBack {b : Book} {n : Nat} {s : Subscription} (h : b[n]? = some (s, true)) :
    b.standing = standing (b.take n) ++ s :: standing (b.drop (n + 1)) ∧
      (b.deal (.takeBack n)).standing = standing (b.take n) ++ standing (b.drop (n + 1)) := by
  obtain ⟨hlt, hget⟩ := List.getElem?_eq_some_iff.mp h
  have hb : b = b.take n ++ (s, true) :: b.drop (n + 1) := by
    rw [← hget, List.getElem_cons_drop, List.take_append_drop]
  have hdeal : b.deal (.takeBack n) = b.take n ++ (s, false) :: b.drop (n + 1) := by
    rw [deal, List.modify_eq_take_cons_drop hlt, hget]
  constructor
  · conv_lhs => rw [hb]
    rw [standing_append]
    rfl
  · rw [hdeal, standing_append]
    rfl

theorem deal_takeBack_again {b : Book} {n : Nat} {s : Subscription}
    (h : b[n]? = some (s, false)) : b.deal (.takeBack n) = b := by
  refine List.ext_getElem? fun i => ?_
  rw [deal, List.getElem?_modify]
  split
  · next heq => rw [← heq, h]; rfl
  · simp

end Book

/-! ## One deal -/

theorem agrees_unsubscribe_iff {b b' : Book} {r : Registry} {s : Subscription} (h : b.Agrees r)
    (other : ∀ name, s.name ≠ name → b'.standing.observers name = b.standing.observers name) :
    b'.Agrees (r.unsubscribe s) ↔
      (b.standing.observers s.name).erase s.observer = b'.standing.observers s.name := by
  constructor
  · intro hafter
    rw [← hafter s.name, Registry.observers_unsubscribe_self, h s.name]
  · intro hself name
    by_cases hname : s.name = name
    · subst hname
      rw [Registry.observers_unsubscribe_self, h s.name, hself]
    · rw [Registry.observers_unsubscribe_of_ne r s hname, other name hname, h name]

theorem agrees_again_iff {b : Book} {r : Registry} {s : Subscription} (h : b.Agrees r) :
    b.Agrees (r.unsubscribe s) ↔ (s, true) ∉ b := by
  rw [agrees_unsubscribe_iff h fun _ _ => rfl, List.erase_eq_self_iff, mem_observers_standing]

theorem agrees_first_iff {b : Book} {r : Registry} {n : Nat} {s : Subscription} (h : b.Agrees r)
    (hentry : b[n]? = some (s, true)) :
    (b.deal (.takeBack n)).Agrees (r.unsubscribe s) ↔
      ∀ us vs, b.take n = us ++ (s, true) :: vs →
        ∀ t, (t, true) ∈ vs → t.name = s.name → t = s := by
  obtain ⟨hbefore, hafter⟩ := Book.standing_takeBack hentry
  have hobservers : ∀ name, b.standing.observers name =
      (Book.standing (b.take n)).observers name ++
        (Registry.observers [s] name ++ (Book.standing (b.drop (n + 1))).observers name) := by
    intro name
    rw [hbefore, ← List.singleton_append, Registry.observers_append, Registry.observers_append]
  have hself : Registry.observers [s] s.name = [s.observer] := by simp [Registry.observers]
  rw [agrees_unsubscribe_iff h, hafter, Registry.observers_append, hobservers, hself,
    List.singleton_append, erase_standing_iff]
  intro name hname
  have hnone : Registry.observers [s] name = [] := by simp [Registry.observers, hname]
  rw [hafter, Registry.observers_append, hobservers, hnone, List.nil_append]

theorem agrees_deal_iff {b : Book} {d : Desk} (hmade : b.map (·.1) = d.made)
    (h : b.Agrees d.registry) (a : Deal) :
    (b.deal a).Agrees (d.deal a).registry ↔ ∀ n, a = .takeBack n → b.IsHarmless n := by
  cases a with
  | subscribe s =>
    refine ⟨fun _ n hn => (by cases hn), fun _ name => ?_⟩
    have hstanding : (b.deal (.subscribe s)).standing = b.standing ++ [s] :=
      Book.standing_append b [(s, true)]
    have hregistry : (d.deal (.subscribe s)).registry = d.registry ++ [s] := rfl
    rw [hstanding, hregistry, Registry.observers_append, Registry.observers_append, h name]
  | takeBack n =>
    have hnumber : (∀ m, Deal.takeBack n = .takeBack m → b.IsHarmless m) ↔ b.IsHarmless n :=
      ⟨fun hall => hall n rfl, fun hn m hm => Deal.takeBack.inj hm ▸ hn⟩
    have hget : d.made[n]? = b[n]?.map (·.1) := by rw [← hmade, List.getElem?_map]
    rw [hnumber]
    rcases hentry : b[n]? with _ | ⟨s, stands⟩
    · have hdesk : (d.deal (.takeBack n)).registry = d.registry := by
        simp [Desk.deal, hget, hentry]
      have hbook : b.deal (.takeBack n) = b :=
        List.modify_eq_self (List.getElem?_eq_none_iff.mp hentry)
      rw [hdesk, hbook]
      exact ⟨fun _ => ⟨by simp [hentry], by simp [hentry]⟩, fun _ => h⟩
    · have hdesk : (d.deal (.takeBack n)).registry = d.registry.unsubscribe s := by
        simp [Desk.deal, hget, hentry]
      rw [hdesk]
      cases stands with
      | false =>
        rw [Book.deal_takeBack_again hentry, agrees_again_iff h]
        constructor
        · intro hout
          exact ⟨by simpa [hentry] using hout, by simp [hentry]⟩
        · intro hharm
          exact hharm.again s hentry
      | true =>
        rw [agrees_first_iff h hentry]
        constructor
        · intro hbetween
          refine ⟨by simp [hentry], fun t ht => ?_⟩
          rw [hentry] at ht
          cases ht
          exact hbetween
        · intro hharm
          exact hharm.first s hentry

/-! ## Runs of deals -/

/-- At every point of a row of deals the registry is as it ought to be, exactly if none of the calls
in it does harm where it is made. -/
theorem agrees_dealAll_iff {b : Book} {d : Desk} (hmade : b.map (·.1) = d.made)
    (h : b.Agrees d.registry) (ds : List Deal) :
    (∀ before, before <+: ds → (b.dealAll before).Agrees (d.dealAll before).registry) ↔
      ∀ before n, before ++ [.takeBack n] <+: ds → (b.dealAll before).IsHarmless n := by
  induction ds generalizing b d with
  | nil =>
    constructor
    · intro _ before n hbefore
      simp at hbefore
    · intro _ before hbefore
      rw [List.prefix_nil.mp hbefore]
      exact h
  | cons a rest ih =>
    have hstep := agrees_deal_iff hmade h a
    constructor
    · intro hall before n hbefore
      have hafter : (b.deal a).Agrees (d.deal a).registry := hall [a] ⟨rest, rfl⟩
      cases before with
      | nil =>
        obtain ⟨rfl, -⟩ := List.cons_prefix_cons.mp hbefore
        exact hstep.mp hafter n rfl
      | cons a' before =>
        obtain ⟨rfl, htail⟩ := List.cons_prefix_cons.mp hbefore
        refine (ih (Book.made_deal hmade a') hafter).mp (fun before' hbefore' => ?_) before n htail
        exact hall (a' :: before') (List.cons_prefix_cons.mpr ⟨rfl, hbefore'⟩)
    · intro hall before hbefore
      cases before with
      | nil => exact h
      | cons a' before =>
        obtain ⟨rfl, htail⟩ := List.cons_prefix_cons.mp hbefore
        have hafter : (b.deal a').Agrees (d.deal a').registry := hstep.mpr fun n hn =>
          hall [] n (List.cons_prefix_cons.mpr ⟨hn.symm, List.nil_prefix⟩)
        refine (ih (Book.made_deal hmade a') hafter).mpr (fun before' n hbefore' => ?_) before htail
        exact hall (a' :: before') n (List.cons_prefix_cons.mpr ⟨rfl, hbefore'⟩)

/-! ## Distinct subscriptions -/

theorem Book.isHarmless_of_nodup {b : Book} (h : (b.map (·.1)).Nodup) (n : Nat) :
    b.IsHarmless n := by
  -- An equal subscription would be at another place of the book.
  have hplace : ∀ {i j : Nat} {s : Subscription} {x y : Bool}, b[i]? = some (s, x) →
      b[j]? = some (s, y) → i = j := by
    intro i j s x y hi hj
    have hlt : i < (b.map (·.1)).length := by
      simpa using (List.getElem?_eq_some_iff.mp hi).1
    exact (List.getElem?_inj hlt h).mp (by simp [hi, hj])
  constructor
  · intro s hn hs
    obtain ⟨i, hi⟩ := List.mem_iff_getElem?.mp hs
    obtain rfl := hplace hi hn
    rw [hn] at hi
    cases hi
  · intro s hn us vs htake
    have hlt : us.length < n := by
      have hlen := congrArg List.length htake
      simp only [List.length_take, List.length_append, List.length_cons] at hlen
      omega
    have hus : b[us.length]? = some (s, true) := by
      rw [← List.getElem?_take_of_lt hlt, htake]
      simp
    exact absurd (hplace hus hn) (Nat.ne_of_lt hlt)

theorem Book.made_dealAll {b : Book} {d : Desk} (h : b.map (·.1) = d.made) (ds : List Deal) :
    (b.dealAll ds).map (·.1) = (d.dealAll ds).made := by
  induction ds generalizing b d with
  | nil => exact h
  | cons a rest ih => exact ih (made_deal h a)

theorem Desk.made_prefix_dealAll (d : Desk) (ds : List Deal) : d.made <+: (d.dealAll ds).made := by
  induction ds generalizing d with
  | nil => exact List.prefix_rfl
  | cons a rest ih =>
    refine List.IsPrefix.trans ?_ (ih (d.deal a))
    cases a with
    | subscribe s => exact List.prefix_append _ _
    | takeBack n =>
      simp only [deal]
      split <;> exact List.prefix_rfl

/-- In a run that makes no two equal subscriptions, the registry is as it ought to be at every
point. -/
theorem Performs.standing_of_distinct {depth : Nat} {actions : List (Action ε)} {ds : List Deal}
    {es : List (Event ε)} {c : Center ε} (h : Performs depth .empty actions ds es c)
    (distinct : c.made.Nodup) {before : List Deal} (hbefore : before <+: ds) :
    (Book.dealAll [] before).Agrees (Desk.empty.dealAll before).registry := by
  have hmade : c.made = (Desk.empty.dealAll ds).made := congrArg Desk.made h.desk
  refine (agrees_dealAll_iff (b := []) (d := .empty) rfl (fun _ => rfl) ds).mpr ?_ before hbefore
  intro start n hstart
  obtain ⟨rest, rfl⟩ := (List.prefix_append start _).trans hstart
  refine Book.isHarmless_of_nodup ?_ n
  rw [Book.made_dealAll (d := .empty) rfl]
  rw [hmade, Desk.dealAll_append] at distinct
  exact distinct.sublist (Desk.made_prefix_dealAll _ rest).sublist

/-! ## Any run -/

/-- Take any run of subscriptions, calls of the functions that they returned, and posts, on a center
that begins empty, whatever observers do in the calls of posts. It goes through a row of deals, and
at every point of this row the observers under each name are those of the subscriptions whose own
function was not called, in their order, exactly if no call in the row does harm: no call that
repeats an earlier one finds an equal subscription standing, and no first call finds an equal
subscription before its own, with another one of this name between them. -/
theorem standing_iff_harmless (depth : Nat) (actions : List (Action ε)) :
    let run := Center.empty.run depth actions
    ∃ ds, Performs (depth + 1) .empty actions ds run.events run.center ∧
      run.center.desk = Desk.empty.dealAll ds ∧
      ((∀ before, before <+: ds → ∀ name,
          (Desk.empty.dealAll before).registry.observers name =
            (Book.dealAll [] before).standing.observers name) ↔
        ∀ before n, before ++ [.takeBack n] <+: ds → (Book.dealAll [] before).IsHarmless n) := by
  intro run
  obtain ⟨ds, hrun⟩ := Center.performs_perform (depth + 1) Center.empty actions
  exact ⟨ds, hrun, hrun.desk, agrees_dealAll_iff (b := []) (d := .empty) rfl (fun _ => rfl) ds⟩

/-- The function of the first subscription ends the second one too, if it is called again. -/
example : (Center.empty.run 1 [.subscribe ⟨"event", "a"⟩ "first" [] false,
    .subscribe ⟨"event", "a"⟩ "second" [] false, .unsubscribe "first", .unsubscribe "first"] :
    Run Unit).center.registry = [] := by
  decide

end ApiSmith.Notices
