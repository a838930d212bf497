import WeatherQuery.PoolEffects

/-!
Who is left with the lock.

`threadpool_add` and `threadpool_destroy` both have exits between the lock and the unlock:
the one where `malloc` fails, the one where the pool is already shut down and the one where the
broadcast fails. A call that takes one of them returns with the lock, and nothing can give it
back.
-/

namespace WeatherQuery.PoolLock

open WeatherQuery.PoolModel WeatherQuery.PoolSteps WeatherQuery.PoolEffects

variable {F A : Type}

/-- No thread holds the lock. The states of the model are those outside the critical sections,
so a thread that holds it here is one whose call has returned. -/
def Unlocked (s : Sys F A) : Prop := ∀ who, s.pool.lock ≠ .held who

/-- A call of `threadpool_add` that does not return `0` leaves the chain and the counter as they
were, and one without a function does not touch the lock. -/
def Refusal (p : Pool F A) : Prop :=
  ∀ (me : Thread) (malloc : Bool) (k : ℕ) (func : Option F) (arg : A) (rc : ℤ) (signals : Bool)
    (p' : Pool F A), threadpoolAdd me malloc k func arg p = some (rc, signals, p') → rc ≠ 0 →
      p'.head = p.head ∧ p'.queueSize = p.queueSize ∧ (func = none → p'.lock = p.lock)

def Disciplined (s : Sys F A) : Prop := Unlocked s ∧ Refusal s.pool

/-- The step takes none of the exits between the lock and the unlock. -/
def Guarded (s : Sys F A) : Act F A → Prop
  | .create ok broadcast => ok = true ∨ broadcast = true ∧ s.pool.shutdown = none
  | .add _ _ _ malloc _ _ => malloc = true ∨ s.pool.shutdown ≠ none
  | .destroy _ _ broadcast => broadcast = true ∧ s.pool.shutdown = none
  | _ => True

/-! ### Refusals -/

lemma refusal (p : Pool F A) : Refusal p := by
  intro me malloc k func arg rc signals p' h hrc
  rcases func with _ | func
  · simp only [threadpoolAdd, Option.some.injEq, Prod.mk.injEq] at h
    obtain ⟨-, -, rfl⟩ := h
    exact ⟨rfl, rfl, fun _ => rfl⟩
  by_cases hl : p.lock = .free
  swap
  · simp [threadpoolAdd, mutexLock_eq_none hl] at h
  by_cases hsd : p.shutdown = none
  · cases malloc with
    | false =>
      rw [threadpoolAdd_noMemory hl hsd] at h
      simp only [Option.some.injEq, Prod.mk.injEq] at h
      obtain ⟨-, -, rfl⟩ := h
      exact ⟨rfl, rfl, by simp⟩
    | true =>
      by_cases hq : p.queueSize = intMax
      · simp [threadpoolAdd, mutexLock_of_free hl, hsd, hq] at h
      · rw [threadpoolAdd_accepted hl hsd hq] at h
        obtain ⟨rfl, -⟩ : 0 = rc ∧ _ := by simpa using h
        exact absurd rfl hrc
  · rw [threadpoolAdd_refused hl hsd] at h
    simp only [Option.some.injEq, Prod.mk.injEq] at h
    obtain ⟨-, -, rfl⟩ := h
    exact ⟨rfl, rfl, fun _ => rfl⟩

/-! ### Calls -/

lemma Unlocked.of_free {s : Sys F A} (h : s.pool.lock = .free) : Unlocked s := by
  intro who
  simp [h]

lemma not_unlocked {s : Sys F A} {who : Thread} (h : s.pool.lock = .held who) : ¬ Unlocked s :=
  fun hs => hs who h

lemma unlocked_congr {s t : Sys F A} (h : t.pool.lock = s.pool.lock) :
    Unlocked t ↔ Unlocked s := by
  unfold Unlocked
  rw [h]

/-- A call of `threadpool_destroy` gives the lock back exactly if it is the first one and its
broadcast succeeds. -/
lemma enterDestroy_unlocked {s t : Sys F A} {me : Thread} {g b : Bool}
    (h : enterDestroy me g b s = some t) :
    Unlocked t ↔ b = true ∧ s.pool.shutdown = none := by
  obtain ⟨hl, hcase⟩ := enterDestroy_cases h
  cases hcase with
  | first hsd hb => exact iff_of_true (Unlocked.of_free hl) ⟨hb, hsd⟩
  | unsent hsd hb => exact iff_of_false (not_unlocked rfl) (by simp [hb])
  | again hsd => exact iff_of_false (not_unlocked rfl) fun h => hsd h.2

/-- A call of `threadpool_add` gives the lock back exactly if it does not run out of memory. -/
lemma addStep_unlocked {s t : Sys F A} {c : ℕ} {func : F} {arg : A} {malloc signal : Bool}
    {ws : List ℕ} (h : addStep c func arg malloc signal ws s = some t) :
    Unlocked t ↔ malloc = true ∨ s.pool.shutdown ≠ none := by
  obtain ⟨hl, hcase⟩ := addStep_cases h
  cases hcase with
  | refuse hsd => exact iff_of_true (Unlocked.of_free hl) (.inr hsd)
  | noMemory hsd hm => exact iff_of_false (not_unlocked rfl) (by simp [hsd, hm])
  | accept hsd hm l hw => exact iff_of_true (Unlocked.of_free hl) (.inl hm)

/-- A step that is no call does not end with the lock. -/
lemma effect_unlocked {s t : Sys F A} {a : Act F A} (h : Effect s a t) (hs : Unlocked s)
    (ha : caller a = none) : Unlocked t := by
  cases h with
  | quiet htake hkept hlock => exact (unlocked_congr hlock).mpr hs
  | stuck who hwho =>
    rw [ha] at hwho
    cases hwho
  | accept x htake hl hlock => exact Unlocked.of_free hlock
  | take x next htake hl hlock => exact Unlocked.of_free hlock
  | closed htake hlock =>
    intro who
    simp [hlock]

/-! ### Runs -/

lemma step_unlocked {s t : Sys F A} {a : Act F A} (hs : Unlocked s) (h : step s a = some t) :
    Unlocked t ↔ Guarded s a := by
  have heffect := step_effect h
  cases a with
  | create ok broadcast =>
    simp only [step] at h
    split at h
    · rename_i i hpc
      split_ifs at h with hi hok
      · obtain rfl := Option.some.inj h
        exact iff_of_true hs (.inl hok)
      · obtain ⟨r, hr, rfl⟩ := Option.map_eq_some_iff.mp h
        exact (enterDestroy_unlocked hr).trans (or_iff_right hok).symm
    · cases h
  | add c func arg malloc signal ws =>
    simp only [step] at h
    split_ifs at h with hpc
    exact addStep_unlocked h
  | destroy c g broadcast =>
    simp only [step] at h
    split_ifs at h with hpc
    exact enterDestroy_unlocked h
  | initStep | spurious | turn | call | finish | join | leave =>
    exact iff_of_true (effect_unlocked heffect hs rfl) trivial

/-- **The lock.** In a run of the pool, whatever the interleaving and the outcomes, every call
that returns leaves the lock free and, when it refuses a task, the queue as it was, exactly as
long as no call takes one of the exits between the lock and the unlock: `threadpool_add` without
memory, `threadpool_destroy` on a pool already shut down or with a broadcast that fails. The
second part, on refusals, holds without this condition. -/
theorem lock_discipline (n : ℕ) (as : List (Act F A)) :
    (Runs.Visits step Disciplined (start F A n) as ↔ Runs.Steps step Guarded (start F A n) as) ∧
      ∀ p : Pool F A, Refusal p := by
  refine ⟨?_, refusal⟩
  refine Runs.visits_iff_steps (I := fun _ => True) ?_ (fun _ _ _ _ _ _ _ => trivial) trivial ?_ as
  · rintro s a t - ⟨hs, -⟩ h
    exact (and_iff_left (refusal t.pool)).trans (step_unlocked hs h)
  · exact ⟨Unlocked.of_free rfl, refusal _⟩

/-- One worker, and a call of `threadpool_add` that gets no memory. -/
def noMemory : List (Act Unit ℕ) :=
  [.create true true, .initStep, .initStep, .initStep, .initStep, .add 3 () 1 false true []]

def noMemoryEnd : Sys Unit ℕ where
  threadNum := 1
  pool := ⟨.held (.client 3), [], 1, 0, none, 1⟩
  workers := [.top]
  init := .returned
  destroys := []
  tickets := 1
  log := [.added ⟨(), 1, 0⟩ (-1)]

/-- The call returns `-1` and keeps the lock. -/
theorem not_disciplined_noMemory :
    ¬ ∀ (n : ℕ) (as : List (Act Unit ℕ)), Runs.Visits step Disciplined (start Unit ℕ n) as := by
  intro h
  have hrun : Runs.run step (start Unit ℕ 1) noMemory = some noMemoryEnd := by decide
  have hend : Disciplined noMemoryEnd := Runs.visits_run (h 1 noMemory) hrun
  exact hend.1 (.client 3) rfl

end WeatherQuery.PoolLock
