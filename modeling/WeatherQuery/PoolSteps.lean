import WeatherQuery.PoolModel
import WeatherQuery.Slots

/-!
What one step of the pool can do, said once.

`Trans s t` lists the steps of a run in which `malloc` and the `pthread` primitives succeed,
each with its guard and with the state it leads to written out; the invariants of the
following files are proved by cases on it and never unfold the code.
-/

namespace WeatherQuery.PoolSteps

open WeatherQuery.PoolModel

variable {F A : Type}

/-! ### The critical sections -/

section Sections

variable {p : Pool F A} {me : Thread}

lemma mutexLock_of_free (hl : p.lock = .free) :
    mutexLock me p = some { p with lock := .held me } := by simp [mutexLock, hl]

lemma mutexLock_eq_none (hl : p.lock ≠ .free) : mutexLock me p = none := by simp [mutexLock, hl]

lemma pool_eta (me : Thread) (hl : p.lock = .free) :
    mutexUnlock { p with lock := .held me } = p := by
  obtain ⟨l, hd, tc, qs, sd, ss⟩ := p
  simp only at hl
  subst hl
  rfl

lemma threadpoolAdd_refused (hl : p.lock = .free) (hsd : p.shutdown ≠ none) (malloc : Bool)
    (k : ℕ) (func : F) (arg : A) :
    threadpoolAdd me malloc k (some func) arg p = some (Err.alreadyShutdown.code, false, p) := by
  simp [threadpoolAdd, mutexLock_of_free hl, hsd, pool_eta me hl]

lemma threadpoolAdd_accepted (hl : p.lock = .free) (hsd : p.shutdown = none)
    (hq : p.queueSize ≠ intMax) (k : ℕ) (func : F) (arg : A) :
    threadpoolAdd me true k (some func) arg p = some (0, true,
      { p with head := ⟨func, arg, k⟩ :: p.head, queueSize := p.queueSize + 1 }) := by
  simp [threadpoolAdd, mutexLock_of_free hl, hsd, hq, mutexUnlock, hl]

lemma threadpoolAdd_noMemory (hl : p.lock = .free) (hsd : p.shutdown = none) (k : ℕ) (func : F)
    (arg : A) : threadpoolAdd me false k (some func) arg p =
      some (-1, false, { p with lock := .held me }) := by
  simp [threadpoolAdd, mutexLock_of_free hl, hsd]

lemma workerTurn_wait (hl : p.lock = .free) (hq : p.queueSize = 0) (hsd : p.shutdown = none) :
    workerTurn me p = some (.wait, p) := by
  rw [← pool_eta me hl]
  simp [workerTurn, mutexLock_of_free, mutexUnlock, hq, hsd]

lemma workerTurn_quit (hl : p.lock = .free)
    (hsd : p.shutdown = some .immediate ∨ p.shutdown = some .graceful ∧ p.queueSize = 0) :
    workerTurn me p = some (.quit, { p with startSize := p.startSize - 1 }) := by
  rcases hsd with hsd | ⟨hsd, hq⟩
  · simp [workerTurn, mutexLock_of_free hl, hsd, mutexUnlock, hl]
  · simp [workerTurn, mutexLock_of_free hl, hsd, hq, mutexUnlock, hl]

lemma workerTurn_null (hl : p.lock = .free) (hq : p.queueSize ≠ 0)
    (hsd : p.shutdown ≠ some .immediate) (hh : p.head = []) :
    workerTurn me p = some (.null, p) := by
  rw [← pool_eta me hl]
  simp [workerTurn, mutexLock_of_free, mutexUnlock, hsd, hq, hh]

lemma workerTurn_task (hl : p.lock = .free) (hq : p.queueSize ≠ 0)
    (hsd : p.shutdown ≠ some .immediate) {t : Task F A} {next : List (Task F A)}
    (hh : p.head = t :: next) :
    workerTurn me p = some (.task t, { p with head := next, queueSize := p.queueSize - 1 }) := by
  simp [workerTurn, mutexLock_of_free hl, hsd, hq, mutexUnlock, hh, hl]

lemma destroySection_again (hl : p.lock = .free) (hsd : p.shutdown ≠ none) (b g : Bool) :
    destroySection me b g p = some (some .alreadyShutdown, { p with lock := .held me }) := by
  simp [destroySection, mutexLock_of_free hl, hsd]

lemma destroySection_first (hl : p.lock = .free) (hsd : p.shutdown = none) (g : Bool) :
    destroySection me true g p = some (none,
      { p with shutdown := some (if g then .graceful else .immediate) }) := by
  simp [destroySection, mutexLock_of_free hl, hsd, mutexUnlock, hl]

lemma destroySection_unsent (hl : p.lock = .free) (hsd : p.shutdown = none) (g : Bool) :
    destroySection me false g p = some (some .condBroadcast,
      { p with lock := .held me, shutdown := some (if g then .graceful else .immediate) }) := by
  simp [destroySection, mutexLock_of_free hl, hsd]

end Sections

/-! ### The calls -/

/-- How a call of `threadpool_add` can end. -/
inductive AddCase (c : ℕ) (func : F) (arg : A) (malloc signal : Bool) (ws : List ℕ)
    (s : Sys F A) : Sys F A → Prop
  | refuse (hsd : s.pool.shutdown ≠ none) :
      AddCase c func arg malloc signal ws s { s with
        tickets := s.tickets + 1
        log := .added ⟨func, arg, s.tickets⟩ Err.alreadyShutdown.code :: s.log }
  | noMemory (hsd : s.pool.shutdown = none) (hm : malloc = false) :
      AddCase c func arg malloc signal ws s { s with
        pool := { s.pool with lock := .held (.client c) }
        tickets := s.tickets + 1
        log := .added ⟨func, arg, s.tickets⟩ (-1) :: s.log }
  | accept (hsd : s.pool.shutdown = none) (hm : malloc = true) (l : List (Worker F A))
      (hl : signal = true ∧ Signals ws s.workers ∧ l = wakeAll ws s.workers ∨
        signal = false ∧ l = s.workers) :
      AddCase c func arg malloc signal ws s { s with
        pool := { s.pool with
          head := ⟨func, arg, s.tickets⟩ :: s.pool.head, queueSize := s.pool.queueSize + 1 }
        workers := l
        tickets := s.tickets + 1
        log := .added ⟨func, arg, s.tickets⟩ 0 :: s.log }

lemma addStep_cases {s t : Sys F A} {c : ℕ} {func : F} {arg : A} {malloc signal : Bool}
    {ws : List ℕ} (h : addStep c func arg malloc signal ws s = some t) :
    s.pool.lock = .free ∧ AddCase c func arg malloc signal ws s t := by
  unfold addStep at h
  by_cases hl : s.pool.lock = .free
  swap
  · simp [threadpoolAdd, mutexLock_eq_none hl] at h
  refine ⟨hl, ?_⟩
  by_cases hsd : s.pool.shutdown = none
  swap
  · rw [threadpoolAdd_refused hl hsd] at h
    obtain rfl : _ = t := by simpa using h
    exact .refuse hsd
  cases malloc with
  | false =>
    rw [threadpoolAdd_noMemory hl hsd] at h
    obtain rfl : _ = t := by simpa using h
    exact .noMemory hsd rfl
  | true =>
    by_cases hq : s.pool.queueSize = intMax
    · simp [threadpoolAdd, mutexLock_of_free hl, hsd, hq] at h
    rw [threadpoolAdd_accepted hl hsd hq] at h
    cases signal with
    | false =>
      obtain rfl : _ = t := by simpa using h
      exact .accept hsd rfl s.workers (.inr ⟨rfl, rfl⟩)
    | true =>
      by_cases hsig : Signals ws s.workers
      · obtain rfl : _ = t := by simpa [hsig] using h
        exact .accept hsd rfl _ (.inl ⟨rfl, hsig, rfl⟩)
      · simp [hsig] at h

/-- How a call of `threadpool_destroy` can come to its join loop or to its end. -/
inductive DestroyCase (me : Thread) (g b : Bool) (s : Sys F A) : Sys F A → Prop
  | first (hsd : s.pool.shutdown = none) (hb : b = true) :
      DestroyCase me g b s { s with
        pool := { s.pool with shutdown := some (if g then .graceful else .immediate) }
        workers := s.workers.map Worker.wake
        destroys := s.destroys ++ [⟨g, .joining 0 none⟩] }
  | unsent (hsd : s.pool.shutdown = none) (hb : b = false) :
      DestroyCase me g b s { s with
        pool := { s.pool with
          lock := .held me, shutdown := some (if g then .graceful else .immediate) }
        destroys := s.destroys ++ [⟨g, .returned (some .condBroadcast)⟩] }
  | again (hsd : s.pool.shutdown ≠ none) :
      DestroyCase me g b s { s with
        pool := { s.pool with lock := .held me }
        destroys := s.destroys ++ [⟨g, .returned (some .alreadyShutdown)⟩] }

lemma enterDestroy_cases {s t : Sys F A} {me : Thread} {g b : Bool}
    (h : enterDestroy me g b s = some t) : s.pool.lock = .free ∧ DestroyCase me g b s t := by
  unfold enterDestroy at h
  by_cases hl : s.pool.lock = .free
  swap
  · simp [destroySection, mutexLock_eq_none hl] at h
  refine ⟨hl, ?_⟩
  by_cases hsd : s.pool.shutdown = none
  swap
  · rw [destroySection_again hl hsd] at h
    obtain rfl : _ = t := by simpa using h
    exact .again hsd
  cases b with
  | true =>
    rw [destroySection_first hl hsd] at h
    obtain rfl : _ = t := by simpa using h
    exact .first hsd rfl
  | false =>
    rw [destroySection_unsent hl hsd] at h
    obtain rfl : _ = t := by simpa using h
    exact .unsent hsd rfl

/-! ### Waking -/

lemma holds_wake (w : Worker F A) : w.wake.holds = w.holds := by cases w <;> rfl

lemma inside_wake (w : Worker F A) : w.wake.inside = w.inside := by cases w <;> rfl

lemma isExited_wake (w : Worker F A) : w.wake.isExited = w.isExited := by cases w <;> rfl

/-- Waking changes nothing that `f` sees, when `f` does not tell parked from woken. -/
lemma filterMap_wakeAll {β : Type} {f : Worker F A → Option β} (hf : ∀ w, f w.wake = f w)
    (ws : List ℕ) (l : List (Worker F A)) : (wakeAll ws l).filterMap f = l.filterMap f := by
  unfold wakeAll
  induction ws generalizing l with
  | nil => rfl
  | cons i ws ih => rw [List.foldl_cons, ih, Slots.filterMap_modify hf]

lemma countP_wakeAll {p : Worker F A → Bool} (hp : ∀ w, p w.wake = p w) (ws : List ℕ)
    (l : List (Worker F A)) : (wakeAll ws l).countP p = l.countP p := by
  unfold wakeAll
  induction ws generalizing l with
  | nil => rfl
  | cons i ws ih => rw [List.foldl_cons, ih, Slots.countP_modify hp]

lemma filterMap_map_wake {β : Type} {f : Worker F A → Option β} (hf : ∀ w, f w.wake = f w)
    (l : List (Worker F A)) : (l.map Worker.wake).filterMap f = l.filterMap f := by
  rw [List.filterMap_map]
  exact congrArg (fun g => l.filterMap g) (funext hf)

lemma length_wakeAll (ws : List ℕ) (l : List (Worker F A)) : (wakeAll ws l).length = l.length := by
  unfold wakeAll
  induction ws generalizing l with
  | nil => rfl
  | cons i ws ih => rw [List.foldl_cons, ih, List.length_modify]

/-- The steps of a run whose primitives succeed. -/
inductive Trans (s : Sys F A) : Sys F A → Prop
  | create (i : ℕ) (hpc : s.init = .create i) (hi : i < s.threadNum) :
      Trans s { s with workers := s.workers ++ [.top], init := .count i }
  | initReturn (i : ℕ) (hpc : s.init = .create i) (hi : ¬ i < s.threadNum) :
      Trans s { s with init := .returned }
  | count (i : ℕ) (hpc : s.init = .count i) :
      Trans s { s with
        pool := { s.pool with threadCount := s.pool.threadCount + 1 }, init := .load i }
  | load (i : ℕ) (hpc : s.init = .load i) :
      Trans s { s with init := .store i s.pool.startSize }
  | store (i : ℕ) (v : ℤ) (hpc : s.init = .store i v) :
      Trans s { s with pool := { s.pool with startSize := v + 1 }, init := .create (i + 1) }
  | unwound (d : ℕ) (g : Bool) (e : Option Err) (hpc : s.init = .unwind d)
      (hd : s.destroys[d]? = some ⟨g, .returned e⟩) : Trans s { s with init := .returnedNull }
  | refuse (func : F) (arg : A) (hpc : s.init = .returned) (hl : s.pool.lock = .free)
      (hsd : s.pool.shutdown ≠ none) :
      Trans s { s with
        tickets := s.tickets + 1
        log := .added ⟨func, arg, s.tickets⟩ Err.alreadyShutdown.code :: s.log }
  | accept (func : F) (arg : A) (ws : List ℕ) (hpc : s.init = .returned)
      (hl : s.pool.lock = .free) (hsd : s.pool.shutdown = none)
      (hsig : Signals ws s.workers) :
      Trans s { s with
        pool := { s.pool with
          head := ⟨func, arg, s.tickets⟩ :: s.pool.head, queueSize := s.pool.queueSize + 1 }
        workers := wakeAll ws s.workers
        tickets := s.tickets + 1
        log := .added ⟨func, arg, s.tickets⟩ 0 :: s.log }
  | spurious (i : ℕ) (hw : s.workers[i]? = some .parked) :
      Trans s { s with workers := s.workers.set i .woken }
  | park (i : ℕ) (w : Worker F A) (hw : s.workers[i]? = some w) (htw : w = .top ∨ w = .woken)
      (hl : s.pool.lock = .free) (hq : s.pool.queueSize = 0) (hsd : s.pool.shutdown = none) :
      Trans s { s with workers := s.workers.set i .parked }
  | quit (i : ℕ) (w : Worker F A) (hw : s.workers[i]? = some w) (htw : w = .top ∨ w = .woken)
      (hl : s.pool.lock = .free)
      (hsd : s.pool.shutdown = some .immediate ∨
        s.pool.shutdown = some .graceful ∧ s.pool.queueSize = 0) :
      Trans s { s with
        pool := { s.pool with startSize := s.pool.startSize - 1 }
        workers := s.workers.set i .exited }
  | null (i : ℕ) (w : Worker F A) (hw : s.workers[i]? = some w) (htw : w = .top ∨ w = .woken)
      (hl : s.pool.lock = .free) (hq : s.pool.queueSize ≠ 0) (hh : s.pool.head = []) :
      Trans s { s with workers := s.workers.set i .top, log := .nullTask i :: s.log }
  | take (i : ℕ) (w : Worker F A) (t : Task F A) (next : List (Task F A))
      (hw : s.workers[i]? = some w) (htw : w = .top ∨ w = .woken) (hl : s.pool.lock = .free)
      (hq : s.pool.queueSize ≠ 0) (hsd : s.pool.shutdown ≠ some .immediate)
      (hh : s.pool.head = t :: next) :
      Trans s { s with
        pool := { s.pool with head := next, queueSize := s.pool.queueSize - 1 }
        workers := s.workers.set i (.took t) }
  | call (i : ℕ) (t : Task F A) (hw : s.workers[i]? = some (.took t)) :
      Trans s { s with workers := s.workers.set i (.running t), log := .called t :: s.log }
  | finish (i : ℕ) (t : Task F A) (hw : s.workers[i]? = some (.running t)) :
      Trans s { s with workers := s.workers.set i .top, log := .finished t :: s.log }
  | destroy (graceful : Bool) (hpc : s.init = .returned) (hl : s.pool.lock = .free)
      (hsd : s.pool.shutdown = none) :
      Trans s { s with
        pool := { s.pool with shutdown := some (if graceful then .graceful else .immediate) }
        workers := s.workers.map Worker.wake
        destroys := s.destroys ++ [⟨graceful, .joining 0 none⟩] }
  | again (c : ℕ) (graceful : Bool) (hpc : s.init = .returned) (hl : s.pool.lock = .free)
      (hsd : s.pool.shutdown ≠ none) :
      Trans s { s with
        pool := { s.pool with lock := .held (.client c) }
        destroys := s.destroys ++ [⟨graceful, .returned (some .alreadyShutdown)⟩] }
  | join (d i : ℕ) (g : Bool) (err : Option Err) (hd : s.destroys[d]? = some ⟨g, .joining i err⟩)
      (hi : i < s.pool.threadCount) (hw : s.workers[i]? = some .exited) :
      Trans s { s with destroys := s.destroys.set d ⟨g, .joining (i + 1) err⟩ }
  | leaveErr (d i : ℕ) (g : Bool) (e : Err) (hd : s.destroys[d]? = some ⟨g, .joining i (some e)⟩)
      (hi : ¬ i < s.pool.threadCount) :
      Trans s { s with destroys := s.destroys.set d ⟨g, .returned (some e)⟩ }
  | freeRefused (d i : ℕ) (g : Bool) (hd : s.destroys[d]? = some ⟨g, .joining i none⟩)
      (hi : ¬ i < s.pool.threadCount) (hss : 0 < s.pool.startSize) :
      Trans s { s with
        pool := { s.pool with lock := .destroyed }
        destroys := s.destroys.set d ⟨g, .returned none⟩ }
  | free (d i : ℕ) (g : Bool) (hd : s.destroys[d]? = some ⟨g, .joining i none⟩)
      (hi : ¬ i < s.pool.threadCount) (hss : s.pool.startSize ≤ 0) :
      Trans s { s with
        pool := { s.pool with lock := .destroyed, head := [] }
        destroys := s.destroys.set d ⟨g, .returned none⟩
        log := s.pool.head.map .released ++ s.log }

lemma trans_threadNum {s t : Sys F A} (h : Trans s t) : t.threadNum = s.threadNum := by
  cases h <;> rfl

/-! ### Every step is one of them -/

lemma initStep_trans {s t : Sys F A} (h : initStep s = some t) : Trans s t := by
  unfold initStep at h
  split at h
  case h_1 i hpc =>
    split_ifs at h with hi
    obtain rfl := Option.some.inj h
    exact .initReturn i hpc hi
  case h_2 i hpc =>
    obtain rfl := Option.some.inj h
    exact .count i hpc
  case h_3 i hpc =>
    obtain rfl := Option.some.inj h
    exact .load i hpc
  case h_4 i v hpc =>
    obtain rfl := Option.some.inj h
    exact .store i v hpc
  case h_5 d hpc =>
    split at h
    · rename_i g e hd
      obtain rfl := Option.some.inj h
      exact .unwound d g e hpc hd
    · cases h
  all_goals cases h

lemma addStep_trans {s t : Sys F A} {c : ℕ} {func : F} {arg : A} {ws : List ℕ}
    (hpc : s.init = .returned) (h : addStep c func arg true true ws s = some t) : Trans s t := by
  obtain ⟨hl, hcase⟩ := addStep_cases h
  cases hcase with
  | refuse hsd => exact .refuse func arg hpc hl hsd
  | noMemory hsd hm => cases hm
  | accept hsd hm l hw =>
    rcases hw with ⟨-, hsig, rfl⟩ | ⟨hsignal, -⟩
    · exact .accept func arg ws hpc hl hsd hsig
    · cases hsignal

lemma turn_inv {s t : Sys F A} {i : ℕ} (h : step s (.turn i) = some t) :
    ∃ w, s.workers[i]? = some w ∧ (w = .top ∨ w = .woken) ∧ turnStep i s = some t := by
  simp only [step] at h
  split at h
  · rename_i hw
    exact ⟨_, hw, .inl rfl, h⟩
  · rename_i hw
    exact ⟨_, hw, .inr rfl, h⟩
  · cases h

lemma turnStep_trans {s t : Sys F A} {i : ℕ} {w : Worker F A} (hw : s.workers[i]? = some w)
    (htw : w = .top ∨ w = .woken) (h : turnStep i s = some t) : Trans s t := by
  unfold turnStep at h
  by_cases hl : s.pool.lock = .free
  swap
  · simp [workerTurn, mutexLock_eq_none hl] at h
  by_cases hwait : s.pool.queueSize = 0 ∧ s.pool.shutdown = none
  · rw [workerTurn_wait hl hwait.1 hwait.2] at h
    obtain rfl : _ = t := by simpa using h
    exact .park i w hw htw hl hwait.1 hwait.2
  by_cases hquit : s.pool.shutdown = some .immediate ∨
      s.pool.shutdown = some .graceful ∧ s.pool.queueSize = 0
  · rw [workerTurn_quit hl hquit] at h
    obtain rfl : _ = t := by simpa using h
    exact .quit i w hw htw hl hquit
  have hsd : s.pool.shutdown ≠ some .immediate := fun e => hquit (.inl e)
  have hq : s.pool.queueSize ≠ 0 := by
    intro hq
    rcases hs : s.pool.shutdown with _ | _ | _
    · exact hwait ⟨hq, hs⟩
    · exact hsd hs
    · exact hquit (.inr ⟨hs, hq⟩)
  rcases hh : s.pool.head with _ | ⟨x, next⟩
  · rw [workerTurn_null hl hq hsd hh] at h
    obtain rfl : _ = t := by simpa using h
    exact .null i w hw htw hl hq hh
  · rw [workerTurn_task hl hq hsd hh] at h
    obtain rfl : _ = t := by simpa using h
    exact .take i w x next hw htw hl hq hsd hh

lemma enterDestroy_trans {s t : Sys F A} {c : ℕ} {g : Bool} (hpc : s.init = .returned)
    (h : enterDestroy (.client c) g true s = some t) : Trans s t := by
  obtain ⟨hl, hcase⟩ := enterDestroy_cases h
  cases hcase with
  | first hsd hb => exact .destroy g hpc hl hsd
  | unsent hsd hb => cases hb
  | again hsd => exact .again c g hpc hl hsd

lemma leaveDestroy_trans {s : Sys F A} {d i : ℕ} {g : Bool} {err : Option Err}
    (hd : s.destroys[d]? = some ⟨g, .joining i err⟩) (hi : ¬ i < s.pool.threadCount) :
    Trans s (leaveDestroy d ⟨g, .joining i err⟩ err s) := by
  rcases err with _ | e
  · by_cases hss : 0 < s.pool.startSize
    · simpa [leaveDestroy, threadpoolFree, hss] using Trans.freeRefused d i g hd hi hss
    · simpa [leaveDestroy, threadpoolFree, hss] using Trans.free d i g hd hi (by omega)
  · exact .leaveErr d i g e hd hi

/-- **Inversion.** A step whose primitives succeed is one of the listed steps. -/
theorem step_trans {s t : Sys F A} {a : Act F A} (ha : a.Ok) (h : step s a = some t) :
    Trans s t := by
  cases a with
  | create ok broadcast =>
    obtain rfl : ok = true := ha
    simp only [step] at h
    split at h
    · rename_i i hpc
      split_ifs at h with hi
      obtain rfl := Option.some.inj h
      exact .create i hpc hi
    · cases h
  | initStep => exact initStep_trans h
  | add c func arg malloc signal ws =>
    obtain ⟨rfl, rfl⟩ := ha
    simp only [step] at h
    split_ifs at h with hpc
    exact addStep_trans hpc h
  | spurious i =>
    simp only [step] at h
    split at h
    · rename_i hw
      obtain rfl := Option.some.inj h
      exact .spurious i hw
    · cases h
  | turn i =>
    obtain ⟨w, hw, htw, hturn⟩ := turn_inv h
    exact turnStep_trans hw htw hturn
  | call i =>
    simp only [step] at h
    split at h
    · rename_i x hw
      obtain rfl := Option.some.inj h
      exact .call i x hw
    · cases h
  | finish i =>
    simp only [step] at h
    split at h
    · rename_i x hw
      obtain rfl := Option.some.inj h
      exact .finish i x hw
    · cases h
  | destroy c g broadcast =>
    obtain rfl : broadcast = true := ha
    simp only [step] at h
    split_ifs at h with hpc
    exact enterDestroy_trans hpc h
  | join d ok =>
    obtain rfl : ok = true := ha
    simp only [step] at h
    split at h
    · rename_i g i err hd
      split_ifs at h with hi
      split at h
      · rename_i hw
        obtain rfl := Option.some.inj h
        exact .join d i g err hd hi hw
      · cases h
    · cases h
  | leave d =>
    simp only [step] at h
    split at h
    · rename_i g i err hd
      split_ifs at h with hi
      obtain rfl := Option.some.inj h
      exact leaveDestroy_trans hd hi
    · cases h

end WeatherQuery.PoolSteps
