import Mathlib.Data.Nat.Notation
import Mathlib.Logic.Relation
import Mathlib.Tactic.SplitIfs

/-!
Runs of a partial step function.

A system is given by a function taking a state and an action to the next state, with `none`
where the action is not possible. Whoever chooses the actions chooses the interleaving, so
a statement about every list of actions is a statement about every interleaving.
-/

namespace WeatherQuery.Runs

variable {σ α : Type*} {step : σ → α → Option σ}

/-- The state after a list of actions, when each of them is possible in its turn. -/
def run (step : σ → α → Option σ) : σ → List α → Option σ
  | s, [] => some s
  | s, a :: as => (step s a).bind fun t => run step t as

@[simp] lemma run_nil (s : σ) : run step s [] = some s := rfl

lemma run_cons_iff {s u : σ} {a : α} {as : List α} :
    run step s (a :: as) = some u ↔ ∃ t, step s a = some t ∧ run step t as = some u := by
  simp [run, Option.bind_eq_some_iff]

/-- **The relative rule.** A reflexive and transitive relation that every step respects holds
between the ends of every run. -/
theorem run_rel {ok : α → Prop} {I : σ → Prop} {R : σ → σ → Prop}
    (refl : ∀ s, R s s) (trans : ∀ s t u, R s t → R t u → R s u)
    (hI : ∀ s a t, ok a → I s → step s a = some t → I t)
    (hR : ∀ s a t, ok a → I s → step s a = some t → R s t)
    {s t : σ} {as : List α} (hs : I s) (hok : ∀ a ∈ as, ok a) (h : run step s as = some t) :
    R s t := by
  induction as generalizing s with
  | nil =>
    obtain rfl : s = t := by simpa using h
    exact refl s
  | cons a as ih =>
    obtain ⟨r, hr, h⟩ := run_cons_iff.mp h
    have ha := hok a (by simp)
    exact trans s r t (hR s a r ha hs hr)
      (ih (hI s a r ha hs hr) (fun b hb => hok b (by simp [hb])) h)

/-- **The invariant rule.** What every step preserves, every run preserves. -/
theorem run_invariant {ok : α → Prop} {I : σ → Prop}
    (hI : ∀ s a t, ok a → I s → step s a = some t → I t)
    {s t : σ} {as : List α} (hs : I s) (hok : ∀ a ∈ as, ok a) (h : run step s as = some t) :
    I t :=
  run_rel (R := fun s t => I s → I t) (fun _ => id) (fun _ _ _ f g => g ∘ f) hI
    (fun s a t ha _ hst hs => hI s a t ha hs hst) hs hok h hs

/-- The invariant rule, for steps of every kind. -/
lemma run_keeps {I : σ → Prop} (hI : ∀ s a t, I s → step s a = some t → I t) {s t : σ}
    {as : List α} (hs : I s) (h : run step s as = some t) : I t := by
  have hok : ∀ a ∈ as, (fun _ => True) a := fun _ _ => trivial
  exact run_invariant (fun s a t _ hs h => hI s a t hs h) hs hok h

/-! ### Simulation -/

lemma run_append {s t u : σ} {as bs : List α} (h : run step s as = some t)
    (h' : run step t bs = some u) : run step s (as ++ bs) = some u := by
  induction as generalizing s with
  | nil =>
    obtain rfl : s = t := by simpa using h
    exact h'
  | cons a as ih =>
    obtain ⟨r, hr, h⟩ := run_cons_iff.mp h
    exact run_cons_iff.mpr ⟨r, hr, ih h⟩

/-- **The simulation rule.** When every step from related states is answered by a run of the other
system to related states, every run is. -/
theorem run_simulates {σ' α' : Type*} {step' : σ' → α' → Option σ'} {R : σ → σ' → Prop}
    (hR : ∀ s a t s', R s s' → step s a = some t → ∃ bs t', run step' s' bs = some t' ∧ R t t')
    {s t : σ} {s' : σ'} {as : List α} (hs : R s s') (h : run step s as = some t) :
    ∃ bs t', run step' s' bs = some t' ∧ R t t' := by
  induction as generalizing s s' with
  | nil =>
    obtain rfl : s = t := by simpa using h
    exact ⟨[], s', rfl, hs⟩
  | cons a as ih =>
    obtain ⟨r, hr, h⟩ := run_cons_iff.mp h
    obtain ⟨bs, r', hbs, hr'⟩ := hR s a r s' hs hr
    obtain ⟨cs, t', hcs, ht'⟩ := ih hr' h
    exact ⟨bs ++ cs, t', run_append hbs hcs, ht'⟩

/-! ### Steps under a condition -/

/-- The steps that meet a condition on the state before them. -/
def restrict (ok : σ → α → Bool) (step : σ → α → Option σ) (s : σ) (a : α) : Option σ :=
  if ok s a then step s a else none

lemma restrict_eq_some {ok : σ → α → Bool} {s t : σ} {a : α} :
    restrict ok step s a = some t ↔ ok s a = true ∧ step s a = some t := by
  unfold restrict
  split_ifs with h <;> simp [h]

/-! ### Along a run -/

/-- `P` holds in every state a list of actions leads through. -/
def Visits (step : σ → α → Option σ) (P : σ → Prop) : σ → List α → Prop
  | s, [] => P s
  | s, a :: as => P s ∧ ∀ t, step s a = some t → Visits step P t as

/-- `Q` holds of every step of a list of actions, and of the state before it. -/
def Steps (step : σ → α → Option σ) (Q : σ → α → Prop) : σ → List α → Prop
  | _, [] => True
  | s, a :: as => ∀ t, step s a = some t → Q s a ∧ Steps step Q t as

lemma visits_run {P : σ → Prop} {s t : σ} {as : List α} (h : Visits step P s as)
    (hrun : run step s as = some t) : P t := by
  induction as generalizing s with
  | nil =>
    obtain rfl : s = t := by simpa using hrun
    exact h
  | cons a as ih =>
    obtain ⟨r, hr, hrun⟩ := run_cons_iff.mp hrun
    exact ih (h.2 r hr) hrun

/-- **The exact condition.** When a step leads from a state with `P` to one with `P` exactly if it
meets `Q`, a run stays in `P` exactly if all its steps meet `Q`. The invariant `I` may be used on
the way. -/
theorem visits_iff_steps {I P : σ → Prop} {Q : σ → α → Prop}
    (hPQ : ∀ s a t, I s → P s → step s a = some t → (P t ↔ Q s a))
    (hI : ∀ s a t, I s → P s → Q s a → step s a = some t → I t)
    {s : σ} (hs : I s) (hP : P s) (as : List α) :
    Visits step P s as ↔ Steps step Q s as := by
  induction as generalizing s with
  | nil => exact ⟨fun _ => trivial, fun _ => hP⟩
  | cons a as ih =>
    constructor
    · rintro ⟨-, h⟩ t ht
      have hrest := h t ht
      have hPt : P t := by
        cases as with
        | nil => exact hrest
        | cons b as => exact hrest.1
      have hQ := (hPQ s a t hs hP ht).mp hPt
      exact ⟨hQ, (ih (hI s a t hs hP hQ ht) hPt).mp hrest⟩
    · intro h
      refine ⟨hP, fun t ht => ?_⟩
      obtain ⟨hQ, hrest⟩ := h t ht
      exact (ih (hI s a t hs hP hQ ht) ((hPQ s a t hs hP ht).mpr hQ)).mpr hrest

/-- Two conditions on steps that agree in every state with `I` are met by the same runs. -/
lemma steps_congr {I : σ → Prop} {Q R : σ → α → Prop}
    (hQR : ∀ s a t, I s → step s a = some t → (Q s a ↔ R s a))
    (hI : ∀ s a t, I s → step s a = some t → I t) {s : σ} (hs : I s) (as : List α) :
    Steps step Q s as ↔ Steps step R s as := by
  induction as generalizing s with
  | nil => exact Iff.rfl
  | cons a as ih =>
    refine forall_congr' fun t => ?_
    constructor
    · intro h ht
      obtain ⟨hQ, hrest⟩ := h ht
      exact ⟨(hQR s a t hs ht).mp hQ, (ih (hI s a t hs ht)).mp hrest⟩
    · intro h ht
      obtain ⟨hR, hrest⟩ := h ht
      exact ⟨(hQR s a t hs ht).mpr hR, (ih (hI s a t hs ht)).mpr hrest⟩

/-! ### Arriving -/

/-- A run from `s` arrives at `P` unless it is broken off: there is a rank that no step raises,
and as long as `P` does not hold a step that lowers it is possible. -/
def Leads (step : σ → α → Option σ) (P : σ → Prop) (s : σ) : Prop :=
  ∃ rank : σ → ℕ, ∀ as t, run step s as = some t →
    (∀ a u, step t a = some u → rank u ≤ rank t) ∧
      (¬ P t → ∃ a u, step t a = some u ∧ rank u < rank t)

lemma leads_of_rank {I P : σ → Prop} (rank : σ → ℕ)
    (hI : ∀ s a t, I s → step s a = some t → I t ∧ rank t ≤ rank s)
    (hP : ∀ s, I s → ¬ P s → ∃ a t, step s a = some t ∧ rank t < rank s) {s : σ} (hs : I s) :
    Leads step P s := by
  refine ⟨rank, fun as t hrun => ?_⟩
  have ht : I t := run_keeps (fun s a t hs h => (hI s a t hs h).1) hs hrun
  exact ⟨fun a u h => (hI t a u ht h).2, hP t ht⟩

end WeatherQuery.Runs
