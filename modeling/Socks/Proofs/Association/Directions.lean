import Socks.Proofs.Association

/-!
# The two directions of an association

What reaches the outer socket of an association makes it send to its client; everything else that
happens makes it send to the far side. Both go on at the same time, and neither waits for the other:
`Association.merges_afterAll` takes what an association does apart.
-/

namespace Socks

/-- `Merges xs ys zs`: `zs` consists of `xs` and `ys`, each in its order. -/
inductive Merges {α : Type} : List α → List α → List α → Prop
  | nil : Merges [] [] []
  | left {x : α} {xs ys zs : List α} : Merges xs ys zs → Merges (x :: xs) ys (x :: zs)
  | right {y : α} {xs ys zs : List α} : Merges xs ys zs → Merges xs (y :: ys) (y :: zs)

namespace Merges

variable {α β : Type} {xs ys zs : List α}

theorem append_left (h : Merges xs ys zs) (more : List α) :
    Merges (more ++ xs) ys (more ++ zs) := by
  induction more with
  | nil => exact h
  | cons x more ih => exact ih.left

theorem append_right (h : Merges xs ys zs) (more : List α) :
    Merges xs (more ++ ys) (more ++ zs) := by
  induction more with
  | nil => exact h
  | cons y more ih => exact ih.right

theorem filterMap (f : α → Option β) (h : Merges xs ys zs) :
    Merges (xs.filterMap f) (ys.filterMap f) (zs.filterMap f) := by
  induction h with
  | nil => exact .nil
  | @left x xs ys zs _ ih =>
      cases hx : f x with
      | none =>
          rw [List.filterMap_cons_none hx, List.filterMap_cons_none hx]
          exact ih
      | some b =>
          rw [List.filterMap_cons_some hx, List.filterMap_cons_some hx]
          exact ih.left
  | @right y xs ys zs _ ih =>
      cases hy : f y with
      | none =>
          rw [List.filterMap_cons_none hy, List.filterMap_cons_none hy]
          exact ih
      | some b =>
          rw [List.filterMap_cons_some hy, List.filterMap_cons_some hy]
          exact ih.right

/-- Where there is nothing else, there is only the one list. -/
theorem eq_of_nil (h : Merges xs [] zs) : zs = xs := by
  generalize hys : ([] : List α) = ys at h
  induction h with
  | nil => rfl
  | left _ ih => rw [ih hys]
  | right => cases hys

end Merges

namespace Association

variable {resolve : Answers} {a : Association} {e : Event}

/-- What an association does about an event for the far side. -/
def forth (resolve : Answers) (a : Association) : Event → List Action
  | .outerReceives _ _ => []
  | e => (a.after resolve e).2

/-- What an association does about an event for its client. -/
def back (a : Association) : Event → List Action
  | .outerReceives source packet => a.deliver source packet
  | _ => []

/-- What an association does for the far side about any number of events. -/
def forthAll (resolve : Answers) (a : Association) : List Event → List Action
  | [] => []
  | e :: events => a.forth resolve e ++ (a.after resolve e).1.forthAll resolve events

/-- What an association does for its client about any number of events. -/
def backAll (resolve : Answers) (a : Association) : List Event → List Action
  | [] => []
  | e :: events => a.back e ++ (a.after resolve e).1.backAll resolve events

theorem forthAll_cons (resolve : Answers) (a : Association) (e : Event) (events : List Event) :
    a.forthAll resolve (e :: events) =
      a.forth resolve e ++ (a.after resolve e).1.forthAll resolve events := rfl

theorem backAll_cons (resolve : Answers) (a : Association) (e : Event) (events : List Event) :
    a.backAll resolve (e :: events) =
      a.back e ++ (a.after resolve e).1.backAll resolve events := rfl

/-- What an association does about an event is in one direction. -/
theorem after_cases (resolve : Answers) (a : Association) (e : Event) :
    (a.after resolve e).2 = a.forth resolve e ∧ a.back e = [] ∨
      (a.after resolve e).2 = a.back e ∧ a.forth resolve e = [] := by
  cases e with
  | outerReceives => exact .inr ⟨rfl, rfl⟩
  | _ => exact .inl ⟨rfl, rfl⟩

/-- What an association does are its actions in both directions, each in its order. -/
theorem merges_afterAll (resolve : Answers) (a : Association) (events : List Event) :
    Merges (a.forthAll resolve events) (a.backAll resolve events)
      (a.afterAll resolve events).2 := by
  induction events generalizing a with
  | nil => exact .nil
  | cons e events ih =>
      rw [forthAll_cons, backAll_cons, afterAll_cons]
      rcases after_cases resolve a e with ⟨hafter, hnone⟩ | ⟨hafter, hnone⟩
      · rw [hafter, hnone]
        exact (ih (a.after resolve e).1).append_left _
      · rw [hafter, hnone]
        exact (ih (a.after resolve e).1).append_right _

/-- An association looks up nothing for its client. -/
theorem lookups_backAll (resolve : Answers) (a : Association) (events : List Event) :
    lookups (a.backAll resolve events) = [] := by
  induction events generalizing a with
  | nil => rfl
  | cons e events ih =>
      rw [backAll_cons, lookups_append, ih, List.append_nil]
      cases e with
      | outerReceives source payload =>
          show lookups (a.deliver source payload) = []
          unfold deliver
          split
          · unfold send
            split_ifs <;> rfl
          · rfl
      | _ => rfl

/-- All that an association looks up is for the far side. -/
theorem lookups_afterAll (resolve : Answers) (a : Association) (events : List Event) :
    lookups (a.afterAll resolve events).2 = lookups (a.forthAll resolve events) := by
  have h : Merges (lookups (a.forthAll resolve events)) (lookups (a.backAll resolve events))
      (lookups (a.afterAll resolve events).2) := (merges_afterAll resolve a events).filterMap _
  rw [lookups_backAll] at h
  exact h.eq_of_nil

theorem merges_sendings (resolve : Answers) (a : Association) (events : List Event) :
    Merges (sendings (a.forthAll resolve events)) (sendings (a.backAll resolve events))
      (sendings (a.afterAll resolve events).2) :=
  (merges_afterAll resolve a events).filterMap _

end Association

end Socks
