import WeatherQuery.PoolTasks

/-!
No wakeup of the pool is lost.

A signal sent while nobody waits is lost, and a worker coming out of a task may take the task
that another was woken for. What carries the argument is a count: as long as a worker is
parked, there are no more tasks queued than workers on their way back to the lock.
-/

namespace WeatherQuery.PoolWake

open WeatherQuery.PoolModel WeatherQuery.PoolSteps WeatherQuery.PoolTasks

variable {F A : Type}

/-- The workers parked on `pool->cond`. -/
def parked (l : List (Worker F A)) : ℕ := l.countP Worker.isParked

/-- The workers un-parked that have not taken the lock back. -/
def woken (l : List (Worker F A)) : ℕ := l.countP Worker.isWoken

/-! ### Waking, counted -/

def waits (w : Worker F A) : Bool := w.isParked || w.isWoken

lemma countP_waits (l : List (Worker F A)) : l.countP waits = parked l + woken l := by
  unfold parked woken
  induction l with
  | nil => rfl
  | cons w l ih =>
    rw [List.countP_cons, List.countP_cons, List.countP_cons, ih]
    cases w <;> simp [waits, Worker.isParked, Worker.isWoken] <;> omega

lemma waits_wake (w : Worker F A) : waits w.wake = waits w := by cases w <;> rfl

lemma isParked_wake (w : Worker F A) : w.wake.isParked = false := by cases w <;> rfl

lemma wakeAll_counts (ws : List ℕ) (l : List (Worker F A)) :
    parked (wakeAll ws l) + woken (wakeAll ws l) = parked l + woken l := by
  rw [← countP_waits, ← countP_waits, countP_wakeAll waits_wake]

lemma parked_wakeAll_le (ws : List ℕ) (l : List (Worker F A)) :
    parked (wakeAll ws l) ≤ parked l := by
  unfold wakeAll parked
  induction ws generalizing l with
  | nil => exact le_rfl
  | cons i ws ih =>
    refine le_trans (ih _) (Slots.countP_modify_le (fun w hw => ?_) l i)
    rw [isParked_wake] at hw
    cases hw

lemma parked_map_wake (l : List (Worker F A)) : parked (l.map Worker.wake) = 0 := by
  unfold parked
  rw [List.countP_map, List.countP_eq_zero]
  intro w _
  simp [isParked_wake]

/-- What rewriting one worker does to both counts. -/
lemma counts_set {l : List (Worker F A)} {i : ℕ} {w : Worker F A} (h : l[i]? = some w) :
    ∃ p k, parked l = w.isParked.toNat + p ∧ woken l = w.isWoken.toNat + k ∧
      ∀ w', parked (l.set i w') = w'.isParked.toNat + p ∧
        woken (l.set i w') = w'.isWoken.toNat + k := by
  obtain ⟨p, hp, hp'⟩ := Slots.countP_set Worker.isParked h
  obtain ⟨k, hk, hk'⟩ := Slots.countP_set Worker.isWoken h
  exact ⟨p, k, hp, hk, fun w' => ⟨hp' w', hk' w'⟩⟩

/-! ### The invariant -/

/-- While a worker is parked, the pool is not shut down and every queued task has a worker on
its way to the lock. -/
def Covered (s : Sys F A) : Prop :=
  0 < parked s.workers →
    s.pool.shutdown = none ∧ s.pool.queueSize ≤ woken s.workers

lemma trans_covered {s t : Sys F A} (h : Trans s t) (hb : Books s) (hs : Covered s) :
    Covered t := by
  unfold Covered at hs ⊢
  cases h with
  | initReturn | count | load | store | unwound | refuse | again | join | leaveErr | freeRefused |
    free => exact hs
  | create i hpc hi =>
    simpa [parked, woken, Worker.isParked, Worker.isWoken] using hs
  | accept func arg ws hpc hl hsd hsig =>
    intro (ht : 0 < parked (wakeAll ws s.workers))
    have hc := wakeAll_counts ws s.workers
    have hle := parked_wakeAll_le ws s.workers
    have hlt : parked (wakeAll ws s.workers) < parked s.workers := by
      rcases hsig with h0 | h1
      · unfold parked at ht hle
        omega
      · exact h1
    obtain ⟨-, hq⟩ := hs (by omega)
    refine ⟨hsd, ?_⟩
    show s.pool.queueSize + 1 ≤ (woken (wakeAll ws s.workers) : ℤ)
    omega
  | spurious i hw =>
    obtain ⟨p, k, h1, h2, h3⟩ := counts_set hw
    have h4 := h3 .woken
    simp only [Worker.isParked, Worker.isWoken, Bool.toNat_true, Bool.toNat_false] at h1 h2 h4
    intro _
    obtain ⟨hsd, hq⟩ := hs (by omega)
    exact ⟨hsd, le_trans hq (by rw [h4.2]; omega)⟩
  | park i w hw htw hl hq hsd =>
    exact fun _ => ⟨hsd, by rw [hq]; exact Int.natCast_nonneg _⟩
  | quit i w hw htw hl hsd =>
    obtain ⟨p, k, h1, h2, h3⟩ := counts_set hw
    intro (ht : 0 < parked (s.workers.set i .exited))
    have hp : 0 < parked s.workers := by
      have h4 := h3 .exited
      simp only [Worker.isParked, Bool.toNat_false] at h4
      omega
    have hn := (hs hp).1
    rcases hsd with hsd | ⟨hsd, -⟩ <;> rw [hn] at hsd <;> cases hsd
  | null i w hw htw hl hq hh =>
    refine absurd ?_ hq
    rw [(hb.counted (by simp [Live, hl])).1, hh]
    rfl
  | take i w x next hw htw hl hq hsd hh =>
    obtain ⟨p, k, h1, h2, h3⟩ := counts_set hw
    have h4 := h3 (.took x)
    intro (ht : 0 < parked (s.workers.set i (.took x)))
    have hw1 : w.isWoken.toNat ≤ 1 := Bool.toNat_le _
    simp only [Worker.isParked, Worker.isWoken, Bool.toNat_false] at h4
    obtain ⟨hn, hle⟩ := hs (by omega)
    refine ⟨hn, ?_⟩
    rw [h4.2]
    show s.pool.queueSize - 1 ≤ _
    omega
  | call i x hw =>
    obtain ⟨p, k, h1, h2, h3⟩ := counts_set hw
    have h4 := h3 (.running x)
    simp only [Worker.isParked, Worker.isWoken] at h1 h2 h4
    rw [h4.1, h4.2, ← h1, ← h2]
    exact hs
  | finish i x hw =>
    obtain ⟨p, k, h1, h2, h3⟩ := counts_set hw
    have h4 := h3 .top
    simp only [Worker.isParked, Worker.isWoken] at h1 h2 h4
    rw [h4.1, h4.2, ← h1, ← h2]
    exact hs
  | destroy g hpc hl hsd =>
    intro ht
    rw [parked_map_wake] at ht
    exact absurd ht (by omega)

/-- Before the shutdown flag is set the pool lives, no call of `threadpool_destroy` is under way
and no worker has left. -/
def Unshut (s : Sys F A) : Prop :=
  s.pool.shutdown = none → Live s ∧ s.destroys = [] ∧ s.workers.countP Worker.isExited = 0

lemma exited_set {l : List (Worker F A)} {i : ℕ} {w w' : Worker F A} (h : l[i]? = some w)
    (hw' : w'.isExited = false) (h0 : l.countP Worker.isExited = 0) :
    (l.set i w').countP Worker.isExited = 0 := by
  obtain ⟨k, h1, h2⟩ := Slots.countP_set Worker.isExited h
  rw [h2, hw']
  simp only [Bool.toNat_false]
  omega

lemma trans_unshut {s t : Sys F A} (h : Trans s t) (hs : Unshut s) : Unshut t := by
  cases h with
  | initReturn | count | load | store | unwound | refuse => exact hs
  | create i hpc hi =>
    intro hn
    obtain ⟨h1, h2, h3⟩ := hs hn
    exact ⟨h1, h2, by simpa [Worker.isExited] using h3⟩
  | accept func arg ws =>
    intro hn
    obtain ⟨h1, h2, h3⟩ := hs hn
    exact ⟨h1, h2, by rw [countP_wakeAll isExited_wake]; exact h3⟩
  | spurious i hw | park i w hw | null i w hw | take i w x next hw | call i x hw
  | finish i x hw =>
    intro hn
    obtain ⟨h1, h2, h3⟩ := hs hn
    exact ⟨h1, h2, exited_set hw rfl h3⟩
  | quit i w hw htw hl hsd =>
    intro (hn : s.pool.shutdown = none)
    rw [hn] at hsd
    simp at hsd
  | destroy => exact fun hn => by cases hn
  | again c g hpc hl hsd => exact fun hn => absurd hn hsd
  | join d i g err hd | leaveErr d i g e hd | freeRefused d i g hd | free d i g hd =>
    intro (hn : s.pool.shutdown = none)
    rw [(hs hn).2.1] at hd
    simp at hd

/-- The invariants of a pool as far as its workers wait and wake. -/
structure Awake (s : Sys F A) : Prop where
  books : Books s
  covered : Covered s
  unshut : Unshut s

theorem reaches_awake {n : ℕ} {s : Sys F A} (h : Reaches Act.Ok n s) : Awake s := by
  obtain ⟨as, hok, hrun⟩ := h
  refine Runs.run_invariant ?_ ⟨books_start n, by simp [Covered, parked, start],
    fun _ => ⟨by simp [Live, start], rfl, rfl⟩⟩ hok hrun
  intro s a t ha hs hst
  have htr := step_trans ha hst
  exact ⟨trans_books htr hs.books, trans_covered htr hs.books hs.covered,
    trans_unshut htr hs.unshut⟩

/-! ### No lost wakeup -/

/-- Work is left, or the pool is to be shut down, and every worker that could see to it sleeps. -/
def Stuck (s : Sys F A) : Prop :=
  (s.pool.head ≠ [] ∨ s.pool.shutdown ≠ none) ∧ (∃ w ∈ s.workers, w.isExited = false) ∧
    ∀ w ∈ s.workers, w.isExited = false → w.isParked = true

lemma woken_eq_zero {l : List (Worker F A)}
    (h : ∀ w ∈ l, w.isExited = false → w.isParked = true) : woken l = 0 := by
  refine List.countP_eq_zero.mpr fun w hw => ?_
  have := h w hw
  cases w <;> simp_all [Worker.isParked, Worker.isWoken, Worker.isExited]

/-- **No lost wakeup.** While a worker is parked the pool is not shut down and the tasks queued
are no more than the workers un-parked and not yet back at the lock; so the pool is never
stuck. -/
theorem parked_covered {n : ℕ} {s : Sys F A} (h : Reaches Act.Ok n s) :
    ((∃ w ∈ s.workers, w.isParked = true) →
      s.pool.shutdown = none ∧ s.pool.queueSize ≤ s.workers.countP Worker.isWoken) ∧
    ¬ Stuck s := by
  have ha := reaches_awake h
  have key : (∃ w ∈ s.workers, w.isParked = true) →
      s.pool.shutdown = none ∧ s.pool.queueSize ≤ woken s.workers :=
    fun hp => ha.covered (List.countP_pos_iff.mpr hp)
  refine ⟨key, ?_⟩
  rintro ⟨hwork, ⟨w, hw, hx⟩, hall⟩
  obtain ⟨hn, hq⟩ := key ⟨w, hw, hall w hw hx⟩
  rw [(ha.books.counted (ha.unshut hn).1).1, woken_eq_zero hall] at hq
  rcases hwork with hh | hsd
  · exact hh (List.eq_nil_of_length_eq_zero (by omega))
  · exact hsd hn

/-- Two workers parked, one task added and one of them woken for it. -/
def halfAwake : List (Act Unit ℕ) :=
  [.create true true, .initStep, .initStep, .initStep,
    .create true true, .initStep, .initStep, .initStep,
    .initStep, .turn 0, .turn 1, .add 0 () 7 true true [0]]

def halfAwakeEnd : Sys Unit ℕ where
  threadNum := 2
  pool := ⟨.free, [⟨(), 7, 0⟩], 2, 1, none, 2⟩
  workers := [.woken, .parked]
  init := .returned
  destroys := []
  tickets := 1
  log := [.added ⟨(), 7, 0⟩ 0]

theorem parked_covered_halfAwake :
    Reaches Act.Ok 2 halfAwakeEnd ∧ (∃ w ∈ halfAwakeEnd.workers, w.isParked = true) ∧
      halfAwakeEnd.pool.queueSize ≤ halfAwakeEnd.workers.countP Worker.isWoken ∧
      ¬ Stuck halfAwakeEnd := by
  have h : Reaches Act.Ok 2 halfAwakeEnd := ⟨halfAwake, by decide, by decide⟩
  have hp : ∃ w ∈ halfAwakeEnd.workers, w.isParked = true := ⟨.parked, by decide, rfl⟩
  exact ⟨h, hp, ((parked_covered h).1 hp).2, (parked_covered h).2⟩

end WeatherQuery.PoolWake
