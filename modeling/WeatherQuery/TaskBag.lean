import Mathlib.Algebra.Order.Group.Multiset
import Mathlib.Logic.Relation

/-!
A bag of work: what a pool of workers is for, with nothing said about how it is built.

Work is submitted, begun, finished or dropped. Nothing is lost and nothing is doubled: what
was accepted is, with multiplicity, what waits, what runs, what is done and what was dropped.
-/

namespace WeatherQuery.TaskBag

variable {α : Type*}

@[ext] structure Bag (α : Type*) where
  accepted : Multiset α
  pending : Multiset α
  active : Multiset α
  done : Multiset α
  dropped : Multiset α

/-- The moves of a bag of work. -/
inductive Move : Bag α → Bag α → Prop
  | submit (b : Bag α) (a : α) :
      Move b { b with accepted := a ::ₘ b.accepted, pending := a ::ₘ b.pending }
  | start (b : Bag α) (a : α) (p : Multiset α) (h : b.pending = a ::ₘ p) :
      Move b { b with pending := p, active := a ::ₘ b.active }
  | finish (b : Bag α) (a : α) (q : Multiset α) (h : b.active = a ::ₘ q) :
      Move b { b with active := q, done := a ::ₘ b.done }
  | drop (b : Bag α) :
      Move b { b with pending := 0, dropped := b.pending + b.dropped }

def Balanced (b : Bag α) : Prop := b.accepted = b.pending + b.active + b.done + b.dropped

lemma Move.balanced {b c : Bag α} (h : Move b c) (hb : Balanced b) : Balanced c := by
  unfold Balanced at hb ⊢
  cases h with
  | submit a => simp [hb]
  | start a p h => simp [hb, h]
  | finish a q h => simp [hb, h]
  | drop =>
    show b.accepted = 0 + b.active + b.done + (b.pending + b.dropped)
    rw [hb, zero_add]
    ac_rfl

theorem balanced_of_moves {b c : Bag α} (h : Relation.ReflTransGen Move b c)
    (hb : Balanced b) : Balanced c := by
  induction h with
  | refl => exact hb
  | tail _ hm ih => exact hm.balanced ih

/-- **Exactly one place.** Work accepted once is in one place, once, and in no other. -/
theorem one_place [DecidableEq α] {b : Bag α} (hb : Balanced b) (hn : b.accepted.Nodup) {a : α}
    (ha : a ∈ b.accepted) :
    b.pending.count a + b.active.count a + b.done.count a + b.dropped.count a = 1 := by
  have h1 : b.accepted.count a = 1 := Multiset.count_eq_one_of_mem hn ha
  rw [hb] at h1
  simpa only [Multiset.count_add] using h1

end WeatherQuery.TaskBag
