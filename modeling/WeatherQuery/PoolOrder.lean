import WeatherQuery.PoolEffects

/-!
The order of the tasks.

`threadpool_add` puts a task at the front of the chain and `threadpool_worker` takes the front
one, so of several that wait the last goes first. The order is that of a queue only as long as
no worker takes a task while another one waits.
-/

namespace WeatherQuery.PoolOrder

open WeatherQuery.PoolModel WeatherQuery.PoolTasks WeatherQuery.PoolEffects

variable {F A : Type}

/-- The pool and the tasks dequeued so far, in their order. -/
abbrev Observed (F A : Type) := Sys F A × List (Task F A)

def observe (o : Observed F A) (a : Act F A) : Option (Observed F A) :=
  (step o.1 a).map fun t => (t, o.2 ++ (takenBy o.1 a).toList)

/-- The tasks dequeued are the first ones accepted, in the order of their acceptance. -/
def Ordered (o : Observed F A) : Prop := o.2 <+: (accepted o.1).reverse

/-- The step takes no task while one accepted before it is queued. -/
def NoOvertaking (o : Observed F A) (a : Act F A) : Prop :=
  ∀ x ∈ takenBy o.1 a, ∀ y ∈ o.1.pool.head, ¬ y.ticket < x.ticket

/-- The step takes no task while another one is queued. -/
def Alone (o : Observed F A) (a : Act F A) : Prop :=
  ∀ x ∈ takenBy o.1 a, o.1.pool.head = [x]

/-! ### The chain -/

/-- The chain holds the youngest task first, and no ticket is given out twice. -/
structure Stacked (s : Sys F A) : Prop where
  youngest : s.pool.head.Pairwise fun x y => y.ticket < x.ticket
  old : ∀ x ∈ s.pool.head, x.ticket < s.tickets

/-- Until the pool is closed, the tasks accepted are those dequeued and those in the chain. -/
def Split (o : Observed F A) : Prop :=
  o.1.pool.lock = .destroyed ∨ (accepted o.1).reverse = o.2 ++ o.1.pool.head.reverse

lemma Stacked.sublist {s t : Sys F A} (hs : Stacked s) (h : t.pool.head.Sublist s.pool.head)
    (htickets : s.tickets ≤ t.tickets) : Stacked t where
  youngest := hs.youngest.sublist h
  old := fun x hx => (hs.old x (h.subset hx)).trans_le htickets

lemma Stacked.effect {s t : Sys F A} {a : Act F A} (hs : Stacked s) (h : Effect s a t) :
    Stacked t := by
  cases h with
  | quiet htake hkept hlock =>
    exact hs.sublist (hkept.head ▸ List.Sublist.refl _) hkept.tickets
  | stuck who hwho htake hkept hl hlock =>
    exact hs.sublist (hkept.head ▸ List.Sublist.refl _) hkept.tickets
  | accept x htake hl hlock hx hhead hacc htickets =>
    refine ⟨?_, ?_⟩
    · rw [hhead, List.pairwise_cons]
      exact ⟨fun y hy => by rw [hx]; exact hs.old y hy, hs.youngest⟩
    · intro y hy
      rw [hhead] at hy
      rcases List.mem_cons.mp hy with rfl | hy
      · omega
      · have := hs.old y hy
        omega
  | take x next htake hl hlock hhead hnext hacc htickets =>
    refine hs.sublist ?_ htickets.ge
    rw [hnext, hhead]
    exact List.sublist_cons_self x next
  | closed htake hlock hhead hacc htickets =>
    refine hs.sublist ?_ htickets.ge
    rcases hhead with hhead | hhead
    · rw [hhead]
      exact List.nil_sublist _
    · rw [hhead]

lemma stacked_start (n : ℕ) : Stacked (start F A n) :=
  ⟨List.Pairwise.nil, fun x hx => by cases hx⟩

/-- A task that is overtaken waits behind the one that is taken. -/
lemma noOvertaking_iff {o : Observed F A} {a : Act F A} {t : Sys F A} (hs : Stacked o.1)
    (h : Effect o.1 a t) : NoOvertaking o a ↔ Alone o a := by
  cases h with
  | take x next htake hl hlock hhead hnext hacc htickets =>
    have hyoung := hs.youngest
    rw [hhead, List.pairwise_cons] at hyoung
    simp only [NoOvertaking, Alone, htake, Option.mem_def, Option.some.injEq, forall_eq', hhead]
    constructor
    · intro hno
      rcases next with _ | ⟨y, next⟩
      · rfl
      · exact absurd (hyoung.1 y (by simp)) (hno y (by simp))
    · rintro halone y hy
      rw [halone] at hy
      obtain rfl := List.mem_singleton.mp hy
      exact lt_irrefl _
  | quiet htake | stuck who hwho htake | accept x htake | closed htake =>
    simp [NoOvertaking, Alone, htake]

lemma observe_some {o o' : Observed F A} {a : Act F A} (h : observe o a = some o') :
    step o.1 a = some o'.1 ∧ o'.2 = o.2 ++ (takenBy o.1 a).toList := by
  obtain ⟨t, ht, rfl⟩ := Option.map_eq_some_iff.mp h
  exact ⟨ht, rfl⟩

/-- What a step must be like for the order to be kept. -/
lemma ordered_iff_alone {o o' : Observed F A} {a : Act F A} (hs : Stacked o.1) (hsplit : Split o)
    (ho : Ordered o) (h : observe o a = some o') : Ordered o' ↔ Alone o a := by
  obtain ⟨hstep, hseq⟩ := observe_some h
  unfold Ordered at ho ⊢
  cases step_effect hstep with
  | quiet htake hkept | stuck who hwho htake hkept =>
    simpa [hseq, htake, hkept.accepted, Alone] using ho
  | closed htake hlock hhead hacc => simpa [hseq, htake, hacc, Alone] using ho
  | accept x htake hl hlock hx hhead hacc =>
    simp only [hseq, htake, hacc, Alone, Option.toList_none, List.append_nil, List.reverse_cons]
    simpa using ho.trans (List.prefix_append _ _)
  | take x next htake hl hlock hhead hnext hacc =>
    have hall : (accepted o.1).reverse = o.2 ++ (next.reverse ++ [x]) := by
      rcases hsplit with hdead | hall
      · simp [hl] at hdead
      · rw [hall, hhead, List.reverse_cons]
    have hyoung := hs.youngest
    rw [hhead, List.pairwise_cons] at hyoung
    rw [hseq, htake, hacc, hall, Option.toList_some, List.prefix_append_right_inj]
    simp only [Alone, htake, Option.mem_def, Option.some.injEq, forall_eq', hhead]
    constructor
    · intro hpre
      -- the first of the tasks that wait is the one taken, and it waits alone
      rcases hrev : next.reverse with _ | ⟨y, ys⟩
      · rw [List.reverse_eq_nil_iff.mp hrev]
      · rw [hrev] at hpre
        obtain rfl : x = y := by simpa using hpre
        have hmem : x ∈ next := by
          rw [← List.mem_reverse, hrev]
          simp
        exact absurd (hyoung.1 x hmem) (lt_irrefl _)
    · intro hone
      obtain rfl : next = [] := by simpa using hone
      simp

lemma Split.step {o o' : Observed F A} {a : Act F A} (hsplit : Split o) (ha : Alone o a)
    (h : observe o a = some o') : Split o' := by
  obtain ⟨hstep, hseq⟩ := observe_some h
  unfold Split at hsplit ⊢
  cases step_effect hstep with
  | quiet htake hkept hlock =>
    rcases hsplit with hdead | hall
    · exact .inl (hlock.trans hdead)
    · right
      rw [hkept.accepted, hkept.head, hall, hseq, htake]
      simp
  | stuck who hwho htake hkept hl hlock =>
    rcases hsplit with hdead | hall
    · simp [hl] at hdead
    · right
      rw [hkept.accepted, hkept.head, hall, hseq, htake]
      simp
  | closed htake hlock => exact .inl hlock
  | accept x htake hl hlock hx hhead hacc =>
    rcases hsplit with hdead | hall
    · simp [hl] at hdead
    · right
      rw [hacc, hhead, List.reverse_cons, hall, hseq, htake]
      simp
  | take x next htake hl hlock hhead hnext hacc =>
    rcases hsplit with hdead | hall
    · simp [hl] at hdead
    · right
      have hone := ha x htake
      rw [hhead] at hone
      obtain rfl : next = [] := by simpa using hone
      rw [hacc, hall, hhead, hnext, hseq, htake]
      simp

/-! ### Runs -/

/-- **First in, first out.** In a run of the pool, whatever the interleaving and the outcomes,
the tasks are dequeued in the order of their acceptance, and none overtakes another, exactly as
long as no worker dequeues a task while another one is queued. -/
theorem fifo_iff_alone (n : ℕ) (as : List (Act F A)) :
    (Runs.Visits observe Ordered (start F A n, []) as ↔
        Runs.Steps observe Alone (start F A n, []) as) ∧
      (Runs.Steps observe NoOvertaking (start F A n, []) as ↔
        Runs.Steps observe Alone (start F A n, []) as) := by
  have hstart := stacked_start (F := F) (A := A) n
  have hstacked (o : Observed F A) (a) (o') (hs : Stacked o.1) (h : observe o a = some o') :
      Stacked o'.1 := hs.effect (step_effect (observe_some h).1)
  constructor
  · refine Runs.visits_iff_steps (I := fun o => Stacked o.1 ∧ Split o) ?_ ?_
      ⟨hstart, .inr rfl⟩ ?_ as
    · rintro o a o' ⟨hs, hsplit⟩ ho h
      exact ordered_iff_alone hs hsplit ho h
    · rintro o a o' ⟨hs, hsplit⟩ - ha h
      exact ⟨hstacked o a o' hs h, hsplit.step ha h⟩
    · exact List.prefix_rfl
  · exact Runs.steps_congr (I := fun o => Stacked o.1)
      (fun o a o' hs h => noOvertaking_iff hs (step_effect (observe_some h).1)) hstacked hstart as

/-- One worker, and two tasks added before it takes the first. -/
def lastFirst : List (Act Unit ℕ) :=
  [.create true true, .initStep, .initStep, .initStep, .initStep,
    .add 0 () 1 true true [], .add 0 () 2 true true [], .turn 0]

def lastFirstEnd : Sys Unit ℕ where
  threadNum := 1
  pool := ⟨.free, [⟨(), 1, 0⟩], 1, 1, none, 1⟩
  workers := [.took ⟨(), 2, 1⟩]
  init := .returned
  destroys := []
  tickets := 2
  log := [.added ⟨(), 2, 1⟩ 0, .added ⟨(), 1, 0⟩ 0]

/-- The second task is dequeued while the first one waits. -/
theorem not_ordered_lastFirst :
    ¬ ∀ (n : ℕ) (as : List (Act Unit ℕ)), Runs.Visits observe Ordered (start Unit ℕ n, []) as := by
  intro h
  have hrun : Runs.run observe (start Unit ℕ 1, []) lastFirst =
      some (lastFirstEnd, [⟨(), 2, 1⟩]) := by decide
  have hend : Ordered (lastFirstEnd, [⟨(), 2, 1⟩]) := Runs.visits_run (h 1 lastFirst) hrun
  unfold Ordered at hend
  exact absurd hend (by decide)

end WeatherQuery.PoolOrder
