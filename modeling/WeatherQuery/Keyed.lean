import Mathlib.Data.List.Nodup
import Mathlib.Data.List.Count

/-!
A table in which every key stands once.
-/

namespace WeatherQuery.Keyed

variable {α κ : Type*} {key : α → κ} {l m : List α} {a : α}

lemma eq_of_key (hl : (l.map key).Nodup) {b : α} (ha : a ∈ l) (hb : b ∈ l) (h : key b = key a) :
    b = a := List.inj_on_of_nodup_map hl hb ha h

lemma nodup_strike (hl : (l.map key).Nodup) (p : α → Bool) : ((l.filter p).map key).Nodup :=
  hl.sublist (List.filter_sublist.map key)

variable [DecidableEq κ]

/-- Looking the key of an entry up finds the entry. -/
lemma find?_of_mem (hl : (l.map key).Nodup) (ha : a ∈ l) :
    l.find? (fun b => key b = key a) = some a := by
  rcases h : l.find? (fun b => key b = key a) with _ | b
  · exact absurd (List.find?_eq_none.mp h a ha) (by simp)
  · have hb : key b = key a := by simpa using List.find?_some h
    rw [eq_of_key hl ha (List.mem_of_find?_eq_some h) hb]

/-- Striking the key of an entry out takes the entry, and nothing else. -/
lemma count_strike [DecidableEq α] (hl : (l.map key).Nodup) (ha : a ∈ l) (x : α) :
    (l.filter fun b => key b ≠ key a).count x + (if x = a then 1 else 0) = l.count x := by
  split_ifs with hx
  · subst hx
    rw [List.count_eq_zero_of_not_mem (by simp), List.count_eq_one_of_mem hl.of_map ha]
  · by_cases hmem : x ∈ l
    · rw [List.count_filter, Nat.add_zero]
      simpa using fun h => hx (eq_of_key hl ha hmem h)
    · rw [List.count_eq_zero_of_not_mem hmem, List.count_eq_zero_of_not_mem fun h =>
        hmem (List.mem_of_mem_filter h)]

/-- In a part of the table without the entry there is nothing to strike out. -/
lemma strike_eq_self (hl : (l.map key).Nodup) (ha : a ∈ l) (hm : ∀ b ∈ m, b ∈ l) (h : a ∉ m) :
    (m.filter fun b => key b ≠ key a) = m := by
  rw [List.filter_eq_self]
  intro b hb
  simpa using fun hkey => h (eq_of_key hl ha (hm b hb) hkey ▸ hb)

end WeatherQuery.Keyed
