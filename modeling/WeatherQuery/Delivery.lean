import Mathlib.Algebra.Order.Ring.Int
import Mathlib.Data.List.Basic

/-!
Sending without looking back.

A sender offers one chunk after the other. The receiver takes a front part of each, or nothing
when the offer fails, and what it leaves is not offered again. What it accepted is all that was
offered exactly when it left nothing.
-/

namespace WeatherQuery.Delivery

variable {α : Type}

/-- What is accepted of the chunks: so much of each, `none` for an offer that fails, and
everything once the list is at its end. -/
def accepted : List (Option ℕ) → List (List α) → List α
  | _, [] => []
  | [], c :: cs => c ++ accepted [] cs
  | t :: ts, c :: cs => c.take (t.getD 0) ++ accepted ts cs

/-- Every chunk is taken whole. -/
def TakesAll : List (Option ℕ) → List (List α) → Prop
  | _, [] => True
  | [], _ :: _ => True
  | t :: ts, c :: cs => c.length ≤ t.getD 0 ∧ TakesAll ts cs

@[simp] lemma accepted_nil (ts : List (Option ℕ)) : accepted ts ([] : List (List α)) = [] := by
  cases ts <;> rfl

lemma accepted_all (cs : List (List α)) : accepted [] cs = cs.flatten := by
  induction cs with
  | nil => rfl
  | cons c cs ih => rw [accepted, ih, List.flatten_cons]

lemma accepted_append (ts : List (Option ℕ)) (cs ds : List (List α)) :
    accepted ts (cs ++ ds) = accepted ts cs ++ accepted (ts.drop cs.length) ds := by
  induction cs generalizing ts with
  | nil => simp
  | cons c cs ih =>
    rcases ts with _ | ⟨t, ts⟩
    · simp [accepted_all]
    · rw [List.cons_append, accepted, accepted, ih, List.append_assoc, List.length_cons,
        List.drop_succ_cons]

lemma length_accepted_le (ts : List (Option ℕ)) (cs : List (List α)) :
    (accepted ts cs).length ≤ cs.flatten.length := by
  induction cs generalizing ts with
  | nil => simp
  | cons c cs ih =>
    rcases ts with _ | ⟨t, ts⟩
    · exact (congrArg List.length (accepted_all (c :: cs))).le
    · have htail := ih ts
      have hhead : (c.take (t.getD 0)).length ≤ c.length := List.length_take_le' _ _
      rw [accepted, List.length_append, List.flatten_cons, List.length_append]
      omega

/-- **Delivery.** All that is offered is accepted exactly when every chunk is taken whole. -/
theorem accepted_eq_iff (ts : List (Option ℕ)) (cs : List (List α)) :
    accepted ts cs = cs.flatten ↔ TakesAll ts cs := by
  induction cs generalizing ts with
  | nil => simp [TakesAll]
  | cons c cs ih =>
    rcases ts with _ | ⟨t, ts⟩
    · simp [TakesAll, accepted_all]
    · rw [accepted, List.flatten_cons, TakesAll]
      rcases Nat.lt_or_ge (t.getD 0) c.length with hlt | hge
      · refine iff_of_false ?_ fun h => absurd h.1 (by omega)
        intro h
        -- what one chunk lacks, the others cannot make up for
        have hlen := congrArg List.length h
        have htail := length_accepted_le ts cs
        rw [List.length_append, List.length_append, List.length_take_of_le hlt.le] at hlen
        omega
      · rw [List.take_of_length_le hge, List.append_cancel_left_eq, ih]
        exact (and_iff_right hge).symm

/-- The last chunk may be cut before it is offered. -/
lemma accepted_cut_iff (ts : List (Option ℕ)) (c d : List α) (k : ℕ) :
    accepted ts [c, d.take k] = c ++ d ↔ TakesAll ts [c, d] ∧ d.length ≤ k := by
  have hflat (e : List α) : [c, e].flatten = c ++ e := by simp
  rcases Nat.lt_or_ge k d.length with hlt | hge
  · refine iff_of_false ?_ fun h => absurd h.2 (by omega)
    intro h
    have hlen := length_accepted_le ts [c, d.take k]
    rw [h, hflat, List.length_append, List.length_append, List.length_take_of_le hlt.le] at hlen
    omega
  · rw [List.take_of_length_le hge, ← hflat, accepted_eq_iff]
    exact (and_iff_left hge).symm

end WeatherQuery.Delivery
