import Mathlib.Data.List.GetD

/-!
A buffer that is written from its start and never cleared: behind a new content that is shorter
than the old one, the end of the old one is still there.
-/

namespace WeatherQuery.Overwrite

variable {α : Type*} {c d x : List α} {ds : List (List α)}

/-- `d` written over the start of `c`. -/
def overlay (d c : List α) : List α := d ++ c.drop d.length

/-- The content after each of a list of writings. -/
def overlays : List α → List (List α) → List (List α)
  | _, [] => []
  | c, d :: ds => overlay d c :: overlays (overlay d c) ds

@[simp] lemma overlay_nil (d : List α) : overlay d [] = d := by simp [overlay]

lemma length_overlay (d c : List α) : (overlay d c).length = max d.length c.length := by
  unfold overlay
  rw [List.length_append, List.length_drop]
  omega

lemma map_overlay {β : Type*} (f : α → β) (d c : List α) :
    (overlay d c).map f = overlay (d.map f) (c.map f) := by
  unfold overlay
  rw [List.map_append, List.map_drop, List.length_map]

lemma length_overlays (c : List α) (ds : List (List α)) : (overlays c ds).length = ds.length := by
  induction ds generalizing c with
  | nil => rfl
  | cons d ds ih => rw [overlays, List.length_cons, List.length_cons, ih]

lemma overlay_eq_self_iff : overlay d c = d ↔ c.length ≤ d.length := by
  rw [overlay, List.append_right_eq_self, List.drop_eq_nil_iff]

/-- **What sticks out.** The content after the `k`-th writing is what was written then, exactly if
nothing written before it was longer. -/
theorem overlays_eq_iff {k : ℕ} (hd : ds[k]? = some d) (hx : (overlays c ds)[k]? = some x) :
    x = d ↔ c.length ≤ d.length ∧ ∀ j < k, ∀ e, ds[j]? = some e → e.length ≤ d.length := by
  induction ds generalizing c k with
  | nil => simp at hd
  | cons e ds ih =>
    rw [overlays] at hx
    cases k with
    | zero =>
      obtain rfl : e = d := by simpa using hd
      obtain rfl : overlay e c = x := by simpa using hx
      simp [overlay_eq_self_iff]
    | succ k =>
      have hrest := ih (by simpa using hd) (by simpa using hx)
      rw [hrest, length_overlay, Nat.max_le, and_comm (a := e.length ≤ d.length), and_assoc]
      refine and_congr_right fun _ => ?_
      constructor
      · rintro ⟨he, h⟩ j hj f hf
        cases j with
        | zero =>
          obtain rfl : e = f := by simpa using hf
          exact he
        | succ j => exact h j (by omega) f (by simpa using hf)
      · intro h
        exact ⟨h 0 (by omega) e rfl, fun j hj f hf => h (j + 1) (by omega) f (by simpa using hf)⟩

end WeatherQuery.Overwrite
