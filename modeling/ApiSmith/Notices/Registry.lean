/-!
# Subscriptions

A registry holds subscriptions in the order in which they were made. The same observer may be
subscribed several times. Taking a subscription back removes the *first* equal one and changes
nothing if there is none, so equal subscriptions are interchangeable.
-/

namespace ApiSmith.Notices

/-- An observer under the name of the notices that it is told. -/
@[ext] structure Subscription where
  name : String
  observer : String
  deriving DecidableEq, Repr

abbrev Registry := List Subscription

namespace Registry

/-- The observers under a name, each as often as it is subscribed. -/
def observers (r : Registry) (name : String) : List String :=
  (r.filter fun s => s.name == name).map Subscription.observer

def subscribe (r : Registry) (s : Subscription) : Registry := r ++ [s]

def unsubscribe (r : Registry) (s : Subscription) : Registry := r.erase s

@[simp] theorem observers_nil (name : String) : observers [] name = [] := rfl

theorem observers_subscribe_self (r : Registry) (s : Subscription) :
    (r.subscribe s).observers s.name = r.observers s.name ++ [s.observer] := by
  simp [observers, subscribe]

theorem observers_subscribe_of_ne (r : Registry) (s : Subscription) {name : String}
    (h : s.name ≠ name) : (r.subscribe s).observers name = r.observers name := by
  simp [observers, subscribe, h]

theorem observers_unsubscribe_self (r : Registry) (s : Subscription) :
    (r.unsubscribe s).observers s.name = (r.observers s.name).erase s.observer := by
  induction r with
  | nil => rfl
  | cons t r ih =>
    simp only [observers, unsubscribe] at ih ⊢
    by_cases hs : t = s
    · subst hs
      simp
    · rw [List.erase_cons_tail (by simpa using hs)]
      by_cases hn : t.name = s.name
      · have ho : t.observer ≠ s.observer := fun ho => hs (by cases t; cases s; simp_all)
        simp [hn, ih, List.erase_cons_tail, ho]
      · simp [hn, ih]

theorem observers_unsubscribe_of_ne (r : Registry) (s : Subscription) {name : String}
    (h : s.name ≠ name) : (r.unsubscribe s).observers name = r.observers name := by
  induction r with
  | nil => rfl
  | cons t r ih =>
    simp only [observers, unsubscribe] at ih ⊢
    by_cases hs : t = s
    · subst hs
      simp [h]
    · rw [List.erase_cons_tail (by simpa using hs)]
      by_cases hn : t.name = name
      · simp [hn, ih]
      · simp [hn, ih]

end Registry

end ApiSmith.Notices
