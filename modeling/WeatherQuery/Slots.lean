import Mathlib.Algebra.Order.Group.Multiset

/-!
A row of slots, one of which is rewritten at a time, and what is counted over it.
-/

namespace WeatherQuery.Slots

variable {α β : Type*}

/-- Rewriting slot `i` splits the row around it. -/
lemma exists_split {l : List α} {i : ℕ} {a : α} (h : l[i]? = some a) :
    ∃ u v, l = u ++ a :: v ∧ ∀ b, l.set i b = u ++ b :: v := by
  obtain ⟨hi, rfl⟩ := List.getElem?_eq_some_iff.mp h
  refine ⟨l.take i, l.drop (i + 1), by simp, fun b => ?_⟩
  rw [List.set_eq_take_append_cons_drop, if_pos hi]

/-- A rewriting that `f` does not see. -/
lemma filterMap_set_eq {f : α → Option β} {l : List α} {i : ℕ} {a b : α} (h : l[i]? = some a)
    (hf : f b = f a) : (l.set i b).filterMap f = l.filterMap f := by
  obtain ⟨u, v, hl, hset⟩ := exists_split h
  rw [hset b, hl, List.filterMap_append, List.filterMap_append, List.filterMap_cons,
    List.filterMap_cons, hf]

/-- What the slots hold: the slot rewritten gives up its share and takes a new one. -/
lemma filterMap_set (f : α → Option β) {l : List α} {i : ℕ} {a : α} (h : l[i]? = some a) :
    ∃ m : Multiset β, (l.filterMap f : Multiset β) = (f a).toList + m ∧
      ∀ b, ((l.set i b).filterMap f : Multiset β) = (f b).toList + m := by
  obtain ⟨u, v, hl, hset⟩ := exists_split h
  have key : ∀ b, ((u ++ b :: v).filterMap f : Multiset β) =
      (f b).toList + ((u ++ v).filterMap f : List β) := by
    intro b
    rw [List.filterMap_append, List.filterMap_append]
    cases hb : f b with
    | none => simp [hb]
    | some c =>
      simp only [List.filterMap_cons, hb, Option.toList_some, ← Multiset.coe_add]
      rw [← Multiset.cons_coe, Multiset.add_cons]
      rfl
  exact ⟨_, by rw [hl]; exact key a, fun b => by rw [hset b]; exact key b⟩

lemma count_filterMap_set [DecidableEq β] (f : α → Option β) {l : List α} {i : ℕ} {a : α}
    (h : l[i]? = some a) (c : β) :
    ∃ k, (l.filterMap f).count c = (f a).toList.count c + k ∧
      ∀ b, ((l.set i b).filterMap f).count c = (f b).toList.count c + k := by
  obtain ⟨m, hl, hset⟩ := filterMap_set f h
  refine ⟨m.count c, ?_, fun b => ?_⟩
  · simpa using congrArg (Multiset.count c) hl
  · simpa using congrArg (Multiset.count c) (hset b)

lemma countP_set (p : α → Bool) {l : List α} {i : ℕ} {a : α} (h : l[i]? = some a) :
    ∃ k, l.countP p = (p a).toNat + k ∧ ∀ b, (l.set i b).countP p = (p b).toNat + k := by
  obtain ⟨u, v, hl, hset⟩ := exists_split h
  have key : ∀ b, (u ++ b :: v).countP p = (p b).toNat + (u.countP p + v.countP p) := by
    intro b
    cases hb : p b <;> simp [hb]
    omega
  exact ⟨_, by rw [hl]; exact key a, fun b => by rw [hset b]; exact key b⟩

/-- A rewriting that `f` does not see, wherever it is made. -/
lemma filterMap_modify {f : α → Option β} {g : α → α} (hf : ∀ a, f (g a) = f a) (l : List α)
    (i : ℕ) : (l.modify i g).filterMap f = l.filterMap f := by
  induction l generalizing i with
  | nil => simp
  | cons a l ih => cases i <;> simp [List.filterMap_cons, hf, ih]

lemma countP_modify {p : α → Bool} {g : α → α} (hp : ∀ a, p (g a) = p a) (l : List α) (i : ℕ) :
    (l.modify i g).countP p = l.countP p := by
  induction l generalizing i with
  | nil => simp
  | cons a l ih => cases i <;> simp [List.countP_cons, hp, ih]

/-- A rewriting that only ever clears `p`. -/
lemma countP_modify_le {p : α → Bool} {g : α → α} (hp : ∀ a, p (g a) = true → p a = true)
    (l : List α) (i : ℕ) : (l.modify i g).countP p ≤ l.countP p := by
  induction l generalizing i with
  | nil => simp
  | cons a l ih =>
    cases i with
    | zero =>
      simp only [List.modify_zero_cons, List.countP_cons]
      split_ifs with h1 h2
      · exact le_rfl
      · exact absurd (hp a h1) h2
      · omega
      · exact le_rfl
    | succ i =>
      simp only [List.modify_succ_cons, List.countP_cons]
      have := ih i
      omega

/-- Filling a row of equal slots from the left. -/
lemma foldl_set_range (g : ℕ → α → α) (d z : α) {m n : ℕ} (h : n ≤ m) :
    (List.range n).foldl (fun l i => l.set i (g i (l.getD i d))) (List.replicate m z) =
      (List.range n).map (fun i => g i z) ++ List.replicate (m - n) z := by
  induction n with
  | zero => simp
  | succ n ih =>
    have hm : m - n = (m - (n + 1)) + 1 := by omega
    rw [List.range_succ, List.foldl_append, ih (by omega), List.map_append, hm,
      List.replicate_succ]
    simp [List.set_append_right]

end WeatherQuery.Slots
