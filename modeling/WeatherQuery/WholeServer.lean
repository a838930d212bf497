import WeatherQuery.PoolTasks
import WeatherQuery.ServerOwnership

/-!
The server on its own thread pool.

`ServerModel` has a queue any worker may take any task from, and assumes of the pool that a task
is taken once. Here `main` calls `threadpool_add` itself, and the workers are the threads of the
pool, with its lock, its condition variable and its shutdown: what `ServerModel` assumes is what
`threadpool.c` does. The tasks that `threadpool_free` releases leave their connections open.
-/

namespace WeatherQuery.WholeServer

open WeatherQuery.HttpModel (Host World acceptRequest)
open WeatherQuery.ServerModel (Conn Job startJob walkStep finishStep callStep MainPc Ready)
open WeatherQuery.PoolModel (Worker Task InitPc)

/-- The pool of `main`. Every task is `accept_request`, with a connection as its argument. -/
abbrev Pool := PoolModel.Sys Unit Conn

/-- The queue of `srv` stays empty: the tasks are in the pool. -/
structure St where
  srv : ServerModel.St
  pool : Pool

def start (n backlog : ℕ) : St := ⟨ServerModel.start n backlog, PoolModel.start Unit Conn n⟩

inductive Act
  /-- A step of the kernel, of `main` or of a worker inside `accept_request` that has nothing to
  do with the pool. -/
  | srv (a : ServerModel.Act)
  /-- `main` calls `threadpool_add` for the next entry of `events`. -/
  | add (malloc signal : Bool) (ws : List ℕ)
  /-- A step inside the pool. -/
  | pool (a : PoolModel.Act Unit Conn)
  /-- Worker `i` calls `accept_request`. -/
  | begin (i : ℕ) (host : Host) (fuel : ℕ) (w : World)
  /-- `accept_request` returns in worker `i`. -/
  | finish (i : ℕ)

/-- The steps of `main`. -/
def ByMain : ServerModel.Act → Bool
  | .arrive | .take _ _ _ _ _ | .call _ | .finish _ | .drop _ => false
  | _ => true

/-- The steps that have nothing to do with the pool. -/
def Apart (s : ServerModel.St) : ServerModel.Act → Bool
  | .walk _ =>
    match s.batch with
    | .client _ true :: _ => false
    | _ => true
  | .take _ _ _ _ _ | .finish _ | .drop _ => false
  | _ => true

/-- The steps inside the pool. `main` destroys it after its loop, and not gracefully. -/
def Inside (s : ServerModel.St) : PoolModel.Act Unit Conn → Bool
  | .add _ _ _ _ _ _ | .call _ | .finish _ => false
  | .destroy _ graceful _ => s.main = .stopped && !graceful
  | _ => true

/-- `threadpool_init` has returned. -/
def Started (p : Pool) : Bool := p.init = .returned || p.init = .returnedNull

/-- The connections of the tasks that a step of the pool released. -/
def freed (p q : Pool) : List Conn :=
  ((q.log.take (q.log.length - p.log.length)).filterMap PoolTasks.releasedOf).map Task.arg

/-- What the last call of `threadpool_add` returned. -/
def lastRc (p : Pool) : Option ℤ :=
  p.log.head?.bind fun
    | .added _ rc => some rc
    | _ => none

/-- `threadpool_add` for the connection `c`; on the pool `NULL` it returns -1. -/
def addCall (c : Conn) (malloc signal : Bool) (ws : List ℕ) (p : Pool) : Option (Bool × Pool) :=
  if p.init = .returnedNull then some (false, p)
  else (PoolModel.step p (.add 0 () c malloc signal ws)).map fun q => (lastRc q = some 0, q)

def step (s : St) : Act → Option St
  | .srv a =>
    if Apart s.srv a && (!ByMain a || Started s.pool) then
      (ServerModel.step s.srv a).map fun t => { s with srv := t }
    else none
  | .add malloc signal ws =>
    match s.srv.main, s.srv.batch with
    | .walking, .client c true :: rest =>
      (addCall c malloc signal ws s.pool).map fun r =>
        ⟨if r.1 then { s.srv with batch := rest }
          else { s.srv with batch := rest, lost := c :: s.srv.lost }, r.2⟩
    | _, _ => none
  | .pool a =>
    if Inside s.srv a then
      (PoolModel.step s.pool a).map fun p =>
        ⟨{ s.srv with lost := freed s.pool p ++ s.srv.lost }, p⟩
    else none
  | .begin i host fuel w =>
    match s.pool.workers[i]? with
    | some (.took t) => (PoolModel.step s.pool (.call i)).map fun p =>
        ⟨{ s.srv with workers :=
            s.srv.workers.set i (some (startJob t.arg (acceptRequest host fuel w))) }, p⟩
    | _ => none
  | .finish i =>
    match s.srv.workers[i]? with
    | some (some job) => (finishStep i job s.srv).bind fun t =>
        (PoolModel.step s.pool (.finish i)).map fun p => ⟨t, p⟩
    | _ => none

/-- The states the server and its pool can get to. -/
def Reaches (n backlog : ℕ) (s : St) : Prop :=
  ∃ as : List Act, Runs.run step (start n backlog) as = some s

/-! ### Inside the pool -/

/-- The task a worker has dequeued and not called. -/
def waiting : Worker Unit Conn → Option (Task Unit Conn)
  | .took t => some t
  | _ => none

/-- The tasks that were accepted and are not called: on the chain, or with a worker. -/
def pending (p : Pool) : List (Task Unit Conn) := p.pool.head ++ p.workers.filterMap waiting

/-- `threadpool_init` makes `threadNum` workers, one after the other. -/
def Made (p : Pool) : Prop :=
  p.workers.length ≤ p.threadNum ∧
    match p.init with
    | .create i => p.workers.length = i
    | .count i | .load i | .store i _ => p.workers.length = i + 1
    | .returned | .unwind _ | .returnedNull => True

/-- A step that neither adds a task nor calls or finishes one. Those that waited still do, unless
they were released. -/
structure Quiet (p q : Pool) : Prop where
  num : q.threadNum = p.threadNum
  pending : ((pending p).map Task.arg).Perm (freed p q ++ (pending q).map Task.arg)
  made : Made p → Made q
  inside : ∃ k, q.workers.map Worker.inside = p.workers.map Worker.inside ++ List.replicate k none

section Pool

variable {p q : Pool}

lemma waiting_wake (w : Worker Unit Conn) : waiting w.wake = waiting w := by cases w <;> rfl

/-- The events of a step are what is before the old log. -/
lemma freed_eq {l : List (PoolModel.Event Unit Conn)} (h : q.log = l ++ p.log) :
    freed p q = (l.filterMap PoolTasks.releasedOf).map Task.arg := by
  rw [freed, h, List.length_append, Nat.add_sub_cancel, List.take_left]

lemma freed_same (h : q.log = p.log) : freed p q = [] := freed_eq (l := []) h

lemma perm_of_kept (hfreed : freed p q = []) (h : (pending q).Perm (pending p)) :
    ((pending p).map Task.arg).Perm (freed p q ++ (pending q).map Task.arg) := by
  rw [hfreed, List.nil_append]
  exact (h.map Task.arg).symm

/-- What leaves the chain, the workers' tasks and the number of workers alone is quiet. -/
lemma quiet_of_eq (hnum : q.threadNum = p.threadNum) (hhead : q.pool.head = p.pool.head)
    (hwait : q.workers.filterMap waiting = p.workers.filterMap waiting)
    (hinside : q.workers.map Worker.inside = p.workers.map Worker.inside)
    (hfreed : freed p q = []) (hmade : Made p → Made q) : Quiet p q where
  num := hnum
  pending := perm_of_kept hfreed (by rw [pending, pending, hhead, hwait])
  made := hmade
  inside := ⟨0, by rw [hinside, List.replicate_zero, List.append_nil]⟩

lemma map_set_eq {α β : Type} {f : α → β} {l : List α} {i : ℕ} {a b : α} (h : l[i]? = some a)
    (hf : f b = f a) : (l.set i b).map f = l.map f := by
  obtain ⟨u, v, hl, hset⟩ := Slots.exists_split h
  rw [hset b, hl, List.map_append, List.map_append, List.map_cons, List.map_cons, hf]

lemma quiet_enterDestroy {me : PoolModel.Thread} {g b : Bool}
    (h : PoolModel.enterDestroy me g b p = some q) (pc : InitPc)
    (hpc : Made p → Made { q with init := pc }) : Quiet p { q with init := pc } := by
  obtain ⟨-, hcase⟩ := PoolSteps.enterDestroy_cases h
  cases hcase with
  | first hsd hb =>
    refine quiet_of_eq rfl rfl (PoolSteps.filterMap_map_wake waiting_wake _) ?_ (freed_same rfl) hpc
    rw [List.map_map]
    exact congrArg (fun f => p.workers.map f) (funext PoolSteps.inside_wake)
  | unsent hsd hb => exact quiet_of_eq rfl rfl rfl rfl (freed_same rfl) hpc
  | again hsd => exact quiet_of_eq rfl rfl rfl rfl (freed_same rfl) hpc

/-- What one turn under the lock does to the chain. -/
lemma workerTurn_head {me : PoolModel.Thread} {p p' : PoolModel.Pool Unit Conn}
    {o : PoolModel.Outcome Unit Conn} (h : PoolModel.workerTurn me p = some (o, p')) :
    match o with
    | .task t => p.head = t :: p'.head
    | _ => p'.head = p.head := by
  by_cases hl : p.lock = .free
  · simp only [PoolModel.workerTurn, PoolSteps.mutexLock_of_free hl, Option.bind_eq_bind,
      Option.bind_some] at h
    split_ifs at h with hwait himm hgr
    · cases h
      rfl
    · cases h
      rfl
    · cases h
      rfl
    · rcases hh : p.head with _ | ⟨t, next⟩
      · rw [hh] at h
        cases h
        rfl
      · rw [hh] at h
        cases h
        rfl
  · simp [PoolModel.workerTurn, PoolSteps.mutexLock_eq_none hl] at h

/-- A worker under the lock. -/
lemma quiet_turn {i : ℕ} {w : Worker Unit Conn} (hw : p.workers[i]? = some w)
    (htw : w = .top ∨ w = .woken) (h : PoolModel.turnStep i p = some q) : Quiet p q := by
  have hwait : waiting w = none := by rcases htw with rfl | rfl <;> rfl
  have hin : w.inside = none := PoolTasks.inside_of_turn htw
  have hlen (w' : Worker Unit Conn) : (p.workers.set i w').length = p.workers.length :=
    List.length_set
  unfold PoolModel.turnStep at h
  rcases hturn : PoolModel.workerTurn (.worker i) p.pool with _ | ⟨o, p'⟩
  · simp [hturn] at h
  have hhead := workerTurn_head hturn
  simp only [hturn, Option.bind_eq_bind, Option.bind_some] at h
  cases o with
  | wait | quit =>
    cases h
    refine quiet_of_eq rfl hhead (Slots.filterMap_set_eq hw hwait.symm) (map_set_eq hw hin.symm)
      (freed_same rfl) fun hm => ?_
    simpa only [Made, hlen] using hm
  | null =>
    cases h
    refine quiet_of_eq rfl hhead (Slots.filterMap_set_eq hw hwait.symm) (map_set_eq hw hin.symm)
      (freed_eq (l := [.nullTask i]) rfl) fun hm => ?_
    simpa only [Made, hlen] using hm
  | task t =>
    cases h
    -- the task goes from the chain to the worker
    refine ⟨rfl, perm_of_kept (freed_same rfl) ?_,
      fun hm => by simpa only [Made, hlen] using hm, 0, ?_⟩
    · obtain ⟨u, v, hl, hset⟩ := Slots.exists_split hw
      have hold : p.workers.filterMap waiting = u.filterMap waiting ++ v.filterMap waiting := by
        rw [hl, List.filterMap_append, List.filterMap_cons_none hwait]
      have hnew : (p.workers.set i (.took t)).filterMap waiting =
          u.filterMap waiting ++ t :: v.filterMap waiting := by
        rw [hset, List.filterMap_append,
          List.filterMap_cons_some (show waiting (.took t) = some t from rfl)]
      have hhead : p.pool.head = t :: p'.head := hhead
      change (p'.head ++ (p.workers.set i (.took t)).filterMap waiting).Perm
        (p.pool.head ++ p.workers.filterMap waiting)
      rw [hnew, hold, hhead]
      exact (List.Perm.append_left _ List.perm_middle).trans List.perm_middle
    · rw [List.replicate_zero, List.append_nil]
      exact map_set_eq hw hin.symm

/-- The end of a call of `threadpool_destroy`. -/
lemma quiet_leave (d : ℕ) (c : PoolModel.DestroyCall) (err : Option PoolModel.Err) :
    Quiet p (PoolModel.leaveDestroy d c err p) := by
  rcases err with _ | e
  · by_cases hss : 0 < p.pool.startSize
    · simp only [PoolModel.leaveDestroy, PoolModel.threadpoolFree, hss, if_pos]
      exact quiet_of_eq rfl rfl rfl rfl (freed_same rfl) id
    · simp only [PoolModel.leaveDestroy, PoolModel.threadpoolFree, gt_iff_lt, hss, if_false]
      refine ⟨rfl, ?_, id, 0, by simp⟩
      have hreleased : (p.pool.head.map PoolModel.Event.released).filterMap PoolTasks.releasedOf =
          p.pool.head := by
        have hall := PoolTasks.filterMap_released_self p.pool.head []
        rwa [List.append_nil, List.filterMap_nil, List.append_nil] at hall
      rw [freed_eq (l := p.pool.head.map PoolModel.Event.released) rfl, hreleased,
        ← List.map_append]
      exact List.Perm.refl _
  · exact quiet_of_eq rfl rfl rfl rfl (freed_same rfl) id

lemma quiet_initStep (h : PoolModel.initStep p = some q) : Quiet p q := by
  unfold PoolModel.initStep at h
  rcases hpc : p.init with i | i | i | ⟨i, v⟩ | _ | d | _ <;> rw [hpc] at h
  · dsimp only at h
    split_ifs at h
    cases h
    exact quiet_of_eq rfl rfl rfl rfl (freed_same rfl) fun hm => ⟨hm.1, trivial⟩
  · cases h
    refine quiet_of_eq rfl rfl rfl rfl (freed_same rfl) fun hm => ?_
    simpa only [Made, hpc] using hm
  · cases h
    refine quiet_of_eq rfl rfl rfl rfl (freed_same rfl) fun hm => ?_
    simpa only [Made, hpc] using hm
  · cases h
    refine quiet_of_eq rfl rfl rfl rfl (freed_same rfl) fun hm => ?_
    simpa only [Made, hpc] using hm
  · cases h
  · dsimp only at h
    split at h
    · cases h
      exact quiet_of_eq rfl rfl rfl rfl (freed_same rfl) fun hm => ⟨hm.1, trivial⟩
    · cases h
  · cases h

/-- **Inside the pool.** The steps of `threadpool_init`, of the workers under the lock, and of
`threadpool_destroy` neither add a task nor call or finish one. -/
theorem quiet_step {srv : ServerModel.St} {a : PoolModel.Act Unit Conn} (ha : Inside srv a = true)
    (h : PoolModel.step p a = some q) : Quiet p q := by
  cases a with
  | add c func arg malloc signal ws => cases ha
  | call i => cases ha
  | finish i => cases ha
  | create ok broadcast =>
    simp only [PoolModel.step] at h
    rcases hpc : p.init with i | i | i | ⟨i, v⟩ | _ | d | _ <;> rw [hpc] at h
    case create =>
      dsimp only at h
      by_cases hi : i < p.threadNum
      · rw [if_pos hi] at h
        cases ok with
        | true =>
          cases h
          refine ⟨rfl, perm_of_kept (freed_same rfl) ?_, fun hm => ?_, 1, by simp [Worker.inside]⟩
          · have hnew : [Worker.top].filterMap waiting = [] := rfl
            simp [pending, hnew]
          · simp only [Made, hpc] at hm
            simp only [Made, List.length_append, List.length_singleton]
            omega
        | false =>
          obtain ⟨t, ht, rfl⟩ := Option.map_eq_some_iff.mp h
          have hlen : t.workers.length = p.workers.length ∧ t.threadNum = p.threadNum := by
            obtain ⟨-, hcase⟩ := PoolSteps.enterDestroy_cases ht
            cases hcase <;> simp
          refine quiet_enterDestroy ht _ fun hm => ⟨?_, trivial⟩
          change t.workers.length ≤ t.threadNum
          rw [hlen.1, hlen.2]
          exact hm.1
      · rw [if_neg hi] at h
        cases h
    all_goals cases h
  | initStep => exact quiet_initStep h
  | spurious i =>
    simp only [PoolModel.step] at h
    split at h
    · rename_i hw
      cases h
      refine quiet_of_eq rfl rfl (Slots.filterMap_set_eq hw rfl) (map_set_eq hw rfl)
        (freed_same rfl) fun hm => ?_
      simpa only [Made, List.length_set] using hm
    · cases h
  | turn i =>
    obtain ⟨w, hw, htw, hturn⟩ := PoolSteps.turn_inv h
    exact quiet_turn hw htw hturn
  | destroy c graceful broadcast =>
    simp only [PoolModel.step] at h
    split_ifs at h with hpc
    have hkeep : Made p → Made { q with init := q.init } := by
      intro hm
      obtain ⟨-, hcase⟩ := PoolSteps.enterDestroy_cases h
      cases hcase <;> simpa [Made] using hm
    exact quiet_enterDestroy h q.init hkeep
  | join d ok =>
    simp only [PoolModel.step] at h
    split at h
    · split_ifs at h
      · split at h
        · cases h
          exact quiet_of_eq rfl rfl rfl rfl (freed_same rfl) id
        · cases h
      · cases h
        exact quiet_of_eq rfl rfl rfl rfl (freed_same rfl) id
    · cases h
  | leave d =>
    simp only [PoolModel.step] at h
    split at h
    · split_ifs at h
      cases h
      exact quiet_leave _ _ _
    · cases h

end Pool

/-! ### The end of the pool -/

/-- Nothing is queued while `threadpool_init` runs, nor after it failed; once it has returned the
pool is not destroyed before `main` has left its loop. -/
def Closing (main : MainPc) (p : Pool) : Prop :=
  match p.init with
  | .create _ | .count _ | .load _ | .store _ _ => p.pool.head = [] ∧ p.destroys = []
  | .returned => p.destroys = [] ∨ main = .stopped
  | .unwind _ | .returnedNull => p.pool.head = []

section Closing

variable {main main' : MainPc} {p q : Pool}

lemma Closing.of_eq (h : Closing main p) (hmain : main = .stopped → main' = .stopped)
    (hinit : q.init = p.init) (hhead : p.pool.head = [] → q.pool.head = [])
    (hdestroys : p.destroys = [] → q.destroys = []) : Closing main' q := by
  unfold Closing at h ⊢
  rw [hinit]
  split at h
  case h_5 => exact h.imp hdestroys hmain
  all_goals first | exact ⟨hhead h.1, hdestroys h.2⟩ | exact hhead h

lemma enterDestroy_pool {me : PoolModel.Thread} {g b : Bool}
    (h : PoolModel.enterDestroy me g b p = some q) :
    q.pool.head = p.pool.head ∧ q.init = p.init ∧ q.log = p.log := by
  obtain ⟨-, hcase⟩ := PoolSteps.enterDestroy_cases h
  cases hcase <;> exact ⟨rfl, rfl, rfl⟩

lemma initStep_log (h : PoolModel.initStep p = some q) : q.log = p.log := by
  unfold PoolModel.initStep at h
  split at h
  case h_1 | h_5 =>
    split at h <;> cases h
    rfl
  case h_6 | h_7 => cases h
  all_goals
    cases h
    rfl

lemma freed_turn {i : ℕ} (hstep : PoolModel.turnStep i p = some q) : freed p q = [] := by
  unfold PoolModel.turnStep at hstep
  rcases hturn : PoolModel.workerTurn (.worker i) p.pool with _ | ⟨o, p'⟩
  · simp [hturn] at hstep
  simp only [hturn, Option.bind_eq_bind, Option.bind_some] at hstep
  cases o with
  | null =>
    cases hstep
    exact freed_eq (l := [.nullTask i]) rfl
  | wait | quit | task t =>
    cases hstep
    exact freed_same rfl

lemma closing_turn {i : ℕ} (h : Closing main p) (hstep : PoolModel.turnStep i p = some q) :
    Closing main q := by
  unfold PoolModel.turnStep at hstep
  rcases hturn : PoolModel.workerTurn (.worker i) p.pool with _ | ⟨o, p'⟩
  · simp [hturn] at hstep
  have hhead := workerTurn_head hturn
  simp only [hturn, Option.bind_eq_bind, Option.bind_some] at hstep
  have hempty : p.pool.head = [] → p'.head = [] := by
    intro hnil
    cases o with
    | task t =>
      rw [hnil] at hhead
      cases hhead
    | wait | null | quit => exact Eq.trans hhead hnil
  cases o <;> cases hstep <;> exact h.of_eq id rfl hempty id

lemma closing_leave {d : ℕ} {c : PoolModel.DestroyCall} {err : Option PoolModel.Err}
    (h : Closing main p) : Closing main (PoolModel.leaveDestroy d c err p) := by
  have hset (c' : PoolModel.DestroyCall) : p.destroys = [] → p.destroys.set d c' = [] :=
    fun hnil => by rw [hnil]; rfl
  rcases err with _ | e
  · by_cases hss : 0 < p.pool.startSize
    · simp only [PoolModel.leaveDestroy, PoolModel.threadpoolFree, hss, if_pos]
      exact h.of_eq id rfl id (hset _)
    · simp only [PoolModel.leaveDestroy, PoolModel.threadpoolFree, gt_iff_lt, hss, if_false]
      exact h.of_eq id rfl (fun _ => rfl) (hset _)
  · exact h.of_eq id rfl id (hset _)

/-- The chain is released where it is not empty only when `main` has left its loop. -/
lemma freed_leave {d : ℕ} {c : PoolModel.DestroyCall} {err : Option PoolModel.Err}
    (h : Closing main p) (hd : p.destroys[d]? = some c)
    (hfreed : freed p (PoolModel.leaveDestroy d c err p) ≠ []) : main = .stopped := by
  have hdestroys : p.destroys ≠ [] := by
    rintro hnil
    rw [hnil] at hd
    cases hd
  have hhead : p.pool.head ≠ [] := by
    intro hnil
    refine hfreed ?_
    rcases err with _ | e
    · by_cases hss : 0 < p.pool.startSize
      · simp only [PoolModel.leaveDestroy, PoolModel.threadpoolFree, hss, if_pos]
        exact freed_same rfl
      · simp only [PoolModel.leaveDestroy, PoolModel.threadpoolFree, gt_iff_lt, hss, if_false, hnil]
        exact freed_same rfl
    · exact freed_same rfl
  unfold Closing at h
  split at h
  case h_5 => exact h.resolve_left hdestroys
  all_goals first | exact absurd h.1 hhead | exact absurd h hhead

lemma closing_initStep (h : Closing main p) (hstep : PoolModel.initStep p = some q) :
    Closing main q := by
  unfold PoolModel.initStep at hstep
  unfold Closing at h
  rcases hpc : p.init with i | i | i | ⟨i, v⟩ | _ | d | _ <;> rw [hpc] at hstep h
  · dsimp only at hstep
    split_ifs at hstep
    cases hstep
    exact .inl h.2
  · cases hstep
    exact h
  · cases hstep
    exact h
  · cases hstep
    exact h
  · cases hstep
  · dsimp only at hstep
    split at hstep
    · cases hstep
      exact h
    · cases hstep
  · cases hstep

/-- A step that does not write to the log releases nothing. -/
lemma closing_kept (hlog : q.log = p.log) (h : Closing main q) :
    Closing main q ∧ (freed p q ≠ [] → main = .stopped) :=
  ⟨h, fun hfreed => absurd (freed_same hlog) hfreed⟩

lemma closing_pool {srv : ServerModel.St} {a : PoolModel.Act Unit Conn} (ha : Inside srv a = true)
    (h : Closing srv.main p) (hstep : PoolModel.step p a = some q) :
    Closing srv.main q ∧ (freed p q ≠ [] → srv.main = .stopped) := by
  have hset (d : ℕ) (c : PoolModel.DestroyCall) : p.destroys = [] → p.destroys.set d c = [] :=
    fun hnil => by rw [hnil]; rfl
  cases a with
  | add c func arg malloc signal ws => cases ha
  | call i => cases ha
  | finish i => cases ha
  | create ok broadcast =>
    simp only [PoolModel.step] at hstep
    split at hstep
    · rename_i i hpc
      split_ifs at hstep with hi hok
      · cases hstep
        simp only [Closing, hpc] at h
        exact closing_kept rfl h
      · obtain ⟨t, ht, rfl⟩ := Option.map_eq_some_iff.mp hstep
        obtain ⟨hhead, -, hlog⟩ := enterDestroy_pool ht
        simp only [Closing, hpc] at h
        exact closing_kept hlog (hhead.trans h.1)
    · cases hstep
  | initStep => exact closing_kept (initStep_log hstep) (closing_initStep h hstep)
  | spurious i =>
    simp only [PoolModel.step] at hstep
    split at hstep
    · cases hstep
      exact closing_kept rfl (h.of_eq id rfl id id)
    · cases hstep
  | turn i =>
    obtain ⟨w, hw, htw, hturn⟩ := PoolSteps.turn_inv hstep
    exact ⟨closing_turn h hturn, fun hfreed => absurd (freed_turn hturn) hfreed⟩
  | destroy c graceful broadcast =>
    simp only [PoolModel.step] at hstep
    split_ifs at hstep with hpc
    have hstopped : srv.main = .stopped := by
      have ha := ha
      simp only [Inside, Bool.and_eq_true, decide_eq_true_eq] at ha
      exact ha.1
    obtain ⟨-, hinit, hlog⟩ := enterDestroy_pool hstep
    refine closing_kept hlog ?_
    simp only [Closing, hinit.trans hpc]
    exact .inr hstopped
  | join d ok =>
    simp only [PoolModel.step] at hstep
    split at hstep
    · split_ifs at hstep
      · split at hstep
        · cases hstep
          exact closing_kept rfl (h.of_eq id rfl id (hset d _))
        · cases hstep
      · cases hstep
        exact closing_kept rfl (h.of_eq id rfl id (hset d _))
    · cases hstep
  | leave d =>
    simp only [PoolModel.step] at hstep
    split at hstep
    · rename_i hd
      split_ifs at hstep
      cases hstep
      exact ⟨closing_leave h, freed_leave h hd⟩
    · cases hstep

lemma closing_add {c : Conn} {malloc signal : Bool} {ws : List ℕ} {r : Bool × Pool}
    (h : Closing main p) (hadd : addCall c malloc signal ws p = some r) : Closing main r.2 := by
  unfold addCall at hadd
  split_ifs at hadd with hnull
  · cases hadd
    exact h
  · obtain ⟨q, hstep, rfl⟩ := Option.map_eq_some_iff.mp hadd
    simp only [PoolModel.step] at hstep
    split_ifs at hstep with hinit
    obtain ⟨-, hcase⟩ := PoolSteps.addStep_cases hstep
    simp only [Closing, hinit] at h
    cases hcase <;> simpa only [Closing, hinit] using h

/-- `main` does not come back from the end of its loop. -/
lemma stopped_step {s t : ServerModel.St} {a : ServerModel.Act}
    (hstep : ServerModel.step s a = some t) (hm : s.main = .stopped) : t.main = .stopped := by
  cases ServerSteps.step_trans hstep with
  | arrive | take | use | close | finish | drop => exact hm
  | _ hs => exact absurd (hm.symm.trans hs) nofun

/-- Every step of the server on its pool. -/
lemma closing_step {j j' : St} {a : Act} (h : Closing j.srv.main j.pool)
    (hstep : step j a = some j') : Closing j'.srv.main j'.pool := by
  obtain ⟨srv, p⟩ := j
  cases a with
  | srv a =>
    simp only [step] at hstep
    split_ifs at hstep
    obtain ⟨t, ht, rfl⟩ := Option.map_eq_some_iff.mp hstep
    exact h.of_eq (stopped_step ht) rfl id id
  | add malloc signal ws =>
    simp only [step] at hstep
    split at hstep
    · obtain ⟨⟨b, q⟩, hr, rfl⟩ := Option.map_eq_some_iff.mp hstep
      cases b <;> exact closing_add h hr
    · cases hstep
  | pool a =>
    simp only [step] at hstep
    split_ifs at hstep with hin
    obtain ⟨q, hq, rfl⟩ := Option.map_eq_some_iff.mp hstep
    exact (closing_pool hin h hq).1
  | begin i host fuel w =>
    simp only [step] at hstep
    split at hstep
    · rename_i hw
      obtain ⟨q, hq, rfl⟩ := Option.map_eq_some_iff.mp hstep
      simp only [PoolModel.step, hw] at hq
      cases hq
      exact h.of_eq id rfl id id
    · cases hstep
  | finish i =>
    simp only [step] at hstep
    split at hstep
    · obtain ⟨t, ht, hstep⟩ := Option.bind_eq_some_iff.mp hstep
      obtain ⟨q, hq, rfl⟩ := Option.map_eq_some_iff.mp hstep
      simp only [finishStep, Option.ite_none_right_eq_some] at ht
      obtain ⟨-, ht⟩ := ht
      cases ht
      simp only [PoolModel.step] at hq
      split at hq
      · cases hq
        exact h.of_eq id rfl id id
      · cases hq
    · cases hstep

end Closing

/-! ### The abstract server -/

open WeatherQuery.ServerOwnership (argOf)

/-- The state of `ServerModel` that a state stands for: its queue are the tasks that wait in the
pool, in some order, and its workers those of the pool. -/
structure Rel (j : St) (s : ServerModel.St) : Prop where
  same : s = { j.srv with queue := s.queue }
  queue : s.queue.Perm ((pending j.pool).map Task.arg)
  made : Made j.pool
  jobs : j.srv.workers.map argOf =
    j.pool.workers.map (fun w => w.inside.map Task.arg) ++
      List.replicate (j.pool.threadNum - j.pool.workers.length) none

lemma rel_start (n backlog : ℕ) : Rel (start n backlog) (ServerModel.start n backlog) where
  same := rfl
  queue := List.Perm.refl _
  made := ⟨Nat.zero_le _, rfl⟩
  jobs := by simp [start, ServerModel.start, PoolModel.start, argOf]

section Apart

variable {s t : ServerModel.St} {a : ServerModel.Act} (ha : Apart s a = true)
include ha

/-- Steps apart from the pool do not look at the queue. -/
lemma step_queue (hstep : ServerModel.step s a = some t) (queue : List Conn) :
    ServerModel.step { s with queue := queue } a = some { t with queue := queue } ∧
      t.workers.map argOf = s.workers.map argOf := by
  cases a with
  | take i c host fuel w => cases ha
  | finish i => cases ha
  | drop c => cases ha
  | arrive =>
    cases hstep
    exact ⟨rfl, rfl⟩
  | epollWait evs =>
    simp only [ServerModel.step] at hstep ⊢
    split_ifs at hstep with hcond
    cases hstep
    exact ⟨if_pos hcond, rfl⟩
  | epollWaitTimeout | epollWaitFails =>
    simp only [ServerModel.step] at hstep ⊢
    split_ifs at hstep with hcond
    cases hstep
    exact ⟨if_pos hcond, rfl⟩
  | accept fd =>
    simp only [ServerModel.step, ServerModel.acceptStep] at hstep ⊢
    split_ifs at hstep with hcond hfd
    cases hstep
    exact ⟨by rw [if_pos hcond, if_pos hfd], rfl⟩
  | acceptAgain | acceptFails aborted =>
    simp only [ServerModel.step] at hstep ⊢
    split_ifs at hstep with hcond
    cases hstep
    exact ⟨if_pos hcond, rfl⟩
  | epollAdd ok =>
    simp only [ServerModel.step] at hstep ⊢
    rcases hm : s.main with _ | _ | _ | c | _ <;> rw [hm] at hstep <;> cases hstep
    cases ok <;> exact ⟨rfl, rfl⟩
  | walk added =>
    simp only [ServerModel.step, walkStep] at hstep ⊢
    by_cases hcond : s.main = .walking
    · rw [if_pos hcond] at hstep ⊢
      rcases hb : s.batch with _ | ⟨_ | ⟨c, _ | _⟩, rest⟩
      · simp [hb] at hstep
      · rw [hb] at hstep
        cases hstep
        exact ⟨rfl, rfl⟩
      · rw [hb] at hstep
        cases hstep
        exact ⟨rfl, rfl⟩
      · simp [Apart, hb] at ha
    · rw [if_neg hcond] at hstep
      cases hstep
  | walked =>
    simp only [ServerModel.step] at hstep ⊢
    split_ifs at hstep with hcond
    cases hstep
    exact ⟨if_pos hcond, rfl⟩
  | call i =>
    simp only [ServerModel.step] at hstep ⊢
    rcases hi : s.workers[i]? with _ | _ | job
    · simp [hi] at hstep
    · simp [hi] at hstep
    · rw [hi] at hstep
      simp only [callStep] at hstep ⊢
      rcases htodo : job.todo with _ | ⟨_ | _, rest⟩
      · simp [htodo] at hstep
      · rw [htodo] at hstep
        cases hstep
        exact ⟨rfl, map_set_eq hi rfl⟩
      · rw [htodo] at hstep
        cases hstep
        exact ⟨rfl, map_set_eq hi rfl⟩

end Apart

/-! ### One step -/

/-- A step is answered by a run of the abstract server. -/
def Answered (j : St) (s : ServerModel.St) : Prop :=
  ∃ bs s', Runs.run ServerModel.step s bs = some s' ∧ Rel j s'

lemma answered_step {j : St} {s s' : ServerModel.St} {b : ServerModel.Act}
    (h : ServerModel.step s b = some s') (hrel : Rel j s') : Answered j s :=
  ⟨[b], s', by simp [Runs.run, h], hrel⟩

section Simulate

variable {srv : ServerModel.St} {p q : Pool} {s : ServerModel.St} (h : Rel ⟨srv, p⟩ s)
include h

lemma Rel.srv_step {t : ServerModel.St} {a : ServerModel.Act} (ha : Apart srv a = true)
    (hstep : ServerModel.step srv a = some t) : Answered ⟨t, p⟩ s := by
  obtain ⟨hs, hworkers⟩ := step_queue ha hstep s.queue
  rw [← h.same] at hs
  exact answered_step hs ⟨rfl, h.queue, h.made, by rw [hworkers]; exact h.jobs⟩

/-- After a quiet step the pool stands for what is left of the queue. -/
lemma Rel.quiet (hq : Quiet p q) {queue : List Conn}
    (hqueue : queue.Perm ((pending q).map Task.arg)) (lost : List Conn) :
    Rel ⟨{ srv with lost := lost }, q⟩ { s with queue := queue, lost := lost } := by
  obtain ⟨k, hk⟩ := hq.inside
  have hmade := hq.made h.made
  have hlen : q.workers.length = p.workers.length + k := by
    simpa using congrArg List.length hk
  refine ⟨by rw [h.same], hqueue, hmade, ?_⟩
  have hmap (l : List (Worker Unit Conn)) : l.map (fun w => w.inside.map Task.arg) =
      (l.map Worker.inside).map (Option.map Task.arg) := by
    rw [List.map_map]
    rfl
  have hrest : p.threadNum - p.workers.length = k + (q.threadNum - q.workers.length) := by
    have hle := hmade.1
    rw [hq.num] at hle ⊢
    omega
  change srv.workers.map argOf = q.workers.map _ ++ _
  rw [hmap, hk, List.map_append, List.map_replicate, ← hmap, List.append_assoc, Option.map_none,
    List.replicate_append_replicate, ← hrest]
  exact h.jobs

omit h in
/-- The abstract server drops some of its queue. -/
lemma run_drops {s : ServerModel.St} (hm : s.main = .stopped) {cs rest : List Conn}
    (hcs : s.queue.Perm (cs ++ rest)) :
    ∃ queue : List Conn, queue.Perm rest ∧ Runs.run ServerModel.step s (cs.map .drop) =
      some { s with queue := queue, lost := cs.reverse ++ s.lost } := by
  induction cs generalizing s with
  | nil => exact ⟨s.queue, hcs, rfl⟩
  | cons c cs ih =>
    have hc : c ∈ s.queue := hcs.mem_iff.mpr List.mem_cons_self
    have hstep : ServerModel.step s (.drop c) =
        some { s with queue := s.queue.erase c, lost := c :: s.lost } := if_pos ⟨hm, hc⟩
    have herase : (s.queue.erase c).Perm (cs ++ rest) := by
      have h := hcs.erase c
      rwa [List.cons_append, List.erase_cons_head] at h
    obtain ⟨queue, hqueue, hrun⟩ :=
      ih (s := { s with queue := s.queue.erase c, lost := c :: s.lost }) hm herase
    refine ⟨queue, hqueue, Runs.run_cons_iff.mpr ⟨_, hstep, ?_⟩⟩
    rw [List.reverse_cons, List.append_assoc, List.singleton_append]
    exact hrun

/-- A step inside the pool. What it releases is dropped. -/
lemma Rel.pool_step (hq : Quiet p q) (hm : freed p q ≠ [] → srv.main = .stopped) :
    Answered ⟨{ srv with lost := freed p q ++ srv.lost }, q⟩ s := by
  have hlost : s.lost = srv.lost := by rw [h.same]
  have hqueue := h.queue.trans hq.pending
  by_cases hnone : freed p q = []
  · rw [hnone] at hqueue ⊢
    exact ⟨[], s, rfl, hlost ▸ h.quiet hq hqueue s.lost⟩
  · have hstopped : s.main = .stopped := by
      rw [h.same]
      exact hm hnone
    have hdrop := hqueue.trans ((List.reverse_perm _).symm.append_right _)
    obtain ⟨queue, hperm, hrun⟩ := run_drops hstopped hdrop
    rw [List.reverse_reverse, hlost] at hrun
    exact ⟨_, _, hrun, h.quiet hq hperm _⟩

/-- A connection that was not accepted is dropped. -/
lemma Rel.refused {c : Conn} {rest : List Ready} (hm : srv.main = .walking)
    (hb : srv.batch = .client c true :: rest) (hq : Quiet p q) (hnone : freed p q = []) :
    Answered ⟨{ srv with batch := rest, lost := c :: srv.lost }, q⟩ s := by
  have hqueue := h.queue.trans hq.pending
  rw [hnone] at hqueue
  have hrel := h.quiet hq hqueue srv.lost
  have hstep : ServerModel.step s (.walk false) =
      some { s with batch := rest, lost := c :: s.lost } := by
    rw [h.same]
    simp [ServerModel.step, walkStep, hm, hb]
  refine answered_step hstep ⟨?_, hrel.queue, hrel.made, hrel.jobs⟩
  rw [h.same]

/-- A connection that was accepted is in the pool. -/
lemma Rel.added {c : Conn} {rest : List Ready} (hm : srv.main = .walking)
    (hb : srv.batch = .client c true :: rest) {k : ℕ} (hnum : q.threadNum = p.threadNum)
    (hinit : q.init = p.init) (hlen : q.workers.length = p.workers.length)
    (hpending : pending q = ⟨(), c, k⟩ :: pending p)
    (hinside : q.workers.map (fun w => w.inside.map Task.arg) =
      p.workers.map fun w => w.inside.map Task.arg) :
    Answered ⟨{ srv with batch := rest }, q⟩ s := by
  have hstep : ServerModel.step s (.walk true) =
      some { s with batch := rest, queue := s.queue ++ [c] } := by
    rw [h.same]
    simp [ServerModel.step, walkStep, hm, hb]
  refine answered_step hstep ⟨?_, ?_, ?_, ?_⟩
  · rw [h.same]
  · rw [hpending, List.map_cons]
    exact (List.perm_append_singleton c s.queue).trans (h.queue.cons c)
  · have hmade := h.made
    simp only [Made] at hmade ⊢
    rw [hnum, hinit, hlen]
    exact hmade
  · change srv.workers.map argOf = q.workers.map _ ++ List.replicate (q.threadNum - _) none
    rw [hinside, hnum, hlen]
    exact h.jobs

lemma Rel.add_step {c : Conn} {rest : List Ready} (hm : srv.main = .walking)
    (hb : srv.batch = .client c true :: rest) {malloc signal : Bool} {ws : List ℕ} {r : Bool × Pool}
    (hadd : addCall c malloc signal ws p = some r) :
    Answered ⟨if r.1 then { srv with batch := rest }
      else { srv with batch := rest, lost := c :: srv.lost }, r.2⟩ s := by
  unfold addCall at hadd
  split_ifs at hadd with hnull
  · cases hadd
    exact h.refused hm hb (quiet_of_eq rfl rfl rfl rfl (freed_same rfl) id) (freed_same rfl)
  · obtain ⟨q, hstep, rfl⟩ := Option.map_eq_some_iff.mp hadd
    simp only [PoolModel.step] at hstep
    split_ifs at hstep with hinit
    obtain ⟨-, hcase⟩ := PoolSteps.addStep_cases hstep
    cases hcase with
    | refuse hsd =>
      refine h.refused hm hb (quiet_of_eq rfl rfl rfl rfl ?_ id) ?_ <;>
        exact freed_eq (l := [.added ⟨(), c, p.tickets⟩ PoolModel.Err.alreadyShutdown.code]) rfl
    | noMemory hsd hmem =>
      refine h.refused hm hb (quiet_of_eq rfl rfl rfl rfl ?_ id) ?_ <;>
        exact freed_eq (l := [.added ⟨(), c, p.tickets⟩ (-1)]) rfl
    | accept hsd hmem l hl =>
      have hsame {β : Type} {f : Worker Unit Conn → Option β} (hf : ∀ w, f w.wake = f w) :
          l.filterMap f = p.workers.filterMap f := by
        rcases hl with ⟨-, -, rfl⟩ | ⟨-, rfl⟩
        · exact PoolSteps.filterMap_wakeAll hf ws _
        · rfl
      have hlen : l.length = p.workers.length := by
        rcases hl with ⟨-, -, rfl⟩ | ⟨-, rfl⟩
        · exact PoolSteps.length_wakeAll ws _
        · rfl
      refine h.added hm hb rfl rfl hlen (k := p.tickets) ?_ ?_
      · rw [pending, pending, ← hsame waiting_wake]
        rfl
      · have hins := hsame (f := fun w => some (w.inside.map Task.arg)) fun w => by
          rw [PoolSteps.inside_wake]
        simpa only [List.filterMap_eq_map'] using hins

/-- The job of worker `i`. -/
lemma Rel.job_at {i : ℕ} {w : Worker Unit Conn} (hw : p.workers[i]? = some w) :
    (srv.workers.map argOf)[i]? = some (w.inside.map Task.arg) := by
  have hi := (List.getElem?_eq_some_iff.mp hw).1
  have hjobs : srv.workers.map argOf = p.workers.map (fun w => w.inside.map Task.arg) ++
      List.replicate (p.threadNum - p.workers.length) none := h.jobs
  rw [hjobs, List.getElem?_append_left (by simpa using hi), List.getElem?_map, hw]
  rfl

/-- Worker `i` turns to other work. -/
lemma Rel.jobs_set {i : ℕ} {w w' : Worker Unit Conn} (hw : p.workers[i]? = some w)
    {o : Option Job} (ho : argOf o = w'.inside.map Task.arg) :
    (srv.workers.set i o).map argOf =
      (p.workers.set i w').map (fun w => w.inside.map Task.arg) ++
        List.replicate (p.threadNum - (p.workers.set i w').length) none := by
  have hi := (List.getElem?_eq_some_iff.mp hw).1
  have hjobs : srv.workers.map argOf = p.workers.map (fun w => w.inside.map Task.arg) ++
      List.replicate (p.threadNum - p.workers.length) none := h.jobs
  rw [List.map_set, List.map_set, ho, hjobs, List.length_set,
    List.set_append_left _ _ (by simpa using hi)]

omit h in
/-- The task that worker `i` has in hand, and what waits beside it. -/
lemma pending_took {p : Pool} {i : ℕ} {t : Task Unit Conn} (hw : p.workers[i]? = some (.took t))
    {w' : Worker Unit Conn} (hw' : waiting w' = none) :
    (pending p).Perm (t :: (p.pool.head ++ (p.workers.set i w').filterMap waiting)) := by
  obtain ⟨u, v, hl, hset⟩ := Slots.exists_split hw
  have hold : p.workers.filterMap waiting = u.filterMap waiting ++ t :: v.filterMap waiting := by
    rw [hl, List.filterMap_append,
      List.filterMap_cons_some (show waiting (.took t) = some t from rfl)]
  have hnew : (p.workers.set i w').filterMap waiting =
      u.filterMap waiting ++ v.filterMap waiting := by
    rw [hset, List.filterMap_append, List.filterMap_cons_none hw']
  rw [pending, hold, hnew]
  exact (List.Perm.append_left _ List.perm_middle).trans List.perm_middle

lemma Rel.begin_step {i : ℕ} {t : Task Unit Conn} (hw : p.workers[i]? = some (.took t))
    (hcall : PoolModel.step p (.call i) = some q) (host : Host) (fuel : ℕ) (w : World) :
    Answered ⟨{ srv with
      workers := srv.workers.set i (some (startJob t.arg (acceptRequest host fuel w))) }, q⟩ s := by
  obtain rfl : { p with workers := p.workers.set i (.running t), log := .called t :: p.log } = q :=
    by simpa [PoolModel.step, hw] using hcall
  have hbefore := pending_took hw (show waiting (.running t) = none from rfl)
  have hperm := hbefore.map Task.arg
  have hin : t.arg ∈ s.queue := (h.queue.trans hperm).mem_iff.mpr List.mem_cons_self
  have hidle : srv.workers[i]? = some none := by
    have hat := h.job_at hw
    rw [List.getElem?_map] at hat
    rcases hi : srv.workers[i]? with _ | _ | job
    · simp [hi] at hat
    · rfl
    · simp [hi, argOf, Worker.inside] at hat
  have hsame := h.same
  have hstep : ServerModel.step s (.take i t.arg host fuel w) = some { s with
      queue := s.queue.erase t.arg
      workers := s.workers.set i (some (startJob t.arg (acceptRequest host fuel w))) } := by
    have hworkers : s.workers = srv.workers := by rw [hsame]
    exact if_pos ⟨hin, by rw [hworkers]; exact hidle⟩
  refine answered_step hstep ⟨?_, ?_, ?_, h.jobs_set hw rfl⟩
  · rw [hsame]
  · have herase := (h.queue.trans hperm).erase t.arg
    rw [List.map_cons, List.erase_cons_head] at herase
    exact herase
  · have hmade := h.made
    simpa only [Made, List.length_set] using hmade

lemma Rel.finish_step {i : ℕ} {job : Job} (hi : srv.workers[i]? = some (some job))
    {t : ServerModel.St} (hfin : finishStep i job srv = some t)
    (hpool : PoolModel.step p (.finish i) = some q) : Answered ⟨t, q⟩ s := by
  have hsame := h.same
  rcases hw : p.workers[i]? with _ | w
  · simp [PoolModel.step, hw] at hpool
  obtain ⟨task, rfl⟩ : ∃ task, w = .running task := by
    cases w <;> simp [PoolModel.step, hw] at hpool ⊢
  obtain rfl : { p with workers := p.workers.set i .top, log := .finished task :: p.log } = q := by
    simpa [PoolModel.step, hw] using hpool
  by_cases hend : job.todo = [] ∧ job.returns = true
  swap
  · rw [finishStep, if_neg hend] at hfin
    cases hfin
  rw [finishStep, if_pos hend] at hfin
  cases hfin
  have hstep : ServerModel.step s (.finish i) = some { s with
      workers := s.workers.set i none
      lost := if job.closed then s.lost else job.conn :: s.lost } := by
    have hworkers : s.workers[i]? = some (some job) := by
      rw [hsame]
      exact hi
    simp only [ServerModel.step, hworkers, finishStep]
    exact if_pos hend
  have hwait : (p.workers.set i .top).filterMap waiting = p.workers.filterMap waiting :=
    Slots.filterMap_set_eq hw rfl
  refine answered_step hstep ⟨?_, ?_, ?_, h.jobs_set hw rfl⟩
  · rw [hsame]
  · have hpending : pending { p with
        workers := p.workers.set i .top, log := .finished task :: p.log } = pending p := by
      simp only [pending, hwait]
    rw [hpending]
    exact h.queue
  · have hmade := h.made
    simpa only [Made, List.length_set] using hmade

end Simulate

/-! ### Runs -/

/-- **Every step** of the server on its pool is one of the abstract server, or none, or the tasks
are dropped that it releases. -/
theorem Rel.step {j j' : St} {s : ServerModel.St} (h : Rel j s)
    (hclosing : Closing j.srv.main j.pool) {a : Act} (hstep : step j a = some j') :
    Answered j' s := by
  obtain ⟨srv, p⟩ := j
  cases a with
  | srv a =>
    simp only [WholeServer.step] at hstep
    split_ifs at hstep with hguard
    obtain ⟨t, ht, rfl⟩ := Option.map_eq_some_iff.mp hstep
    exact h.srv_step (Bool.and_eq_true_iff.mp hguard).1 ht
  | add malloc signal ws =>
    simp only [WholeServer.step] at hstep
    split at hstep
    · rename_i hm hb
      obtain ⟨r, hr, rfl⟩ := Option.map_eq_some_iff.mp hstep
      exact h.add_step hm hb hr
    · cases hstep
  | pool a =>
    simp only [WholeServer.step] at hstep
    split_ifs at hstep with hin
    obtain ⟨q, hq, rfl⟩ := Option.map_eq_some_iff.mp hstep
    exact h.pool_step (quiet_step hin hq) (closing_pool hin hclosing hq).2
  | begin i host fuel w =>
    simp only [WholeServer.step] at hstep
    split at hstep
    · rename_i hw
      obtain ⟨q, hq, rfl⟩ := Option.map_eq_some_iff.mp hstep
      exact h.begin_step hw hq host fuel w
    · cases hstep
  | finish i =>
    simp only [WholeServer.step] at hstep
    split at hstep
    · rename_i hi
      obtain ⟨t, ht, hstep⟩ := Option.bind_eq_some_iff.mp hstep
      obtain ⟨q, hq, rfl⟩ := Option.map_eq_some_iff.mp hstep
      exact h.finish_step hi ht hq
    · cases hstep

/-- **Refinement.** Whatever the server on its pool can get to, the abstract server can. -/
theorem reaches_rel {n backlog : ℕ} {j : St} (h : Reaches n backlog j) :
    ∃ s, ServerModel.Reaches n backlog s ∧ Rel j s := by
  obtain ⟨as, has⟩ := h
  have hsteps : ∀ j a j' s, Rel j s ∧ Closing j.srv.main j.pool → step j a = some j' →
      ∃ bs s', Runs.run ServerModel.step s bs = some s' ∧ Rel j' s' ∧
        Closing j'.srv.main j'.pool := by
    rintro j a j' s ⟨hrel, hclosing⟩ hstep
    obtain ⟨bs, s', hbs, hrel'⟩ := hrel.step hclosing hstep
    exact ⟨bs, s', hbs, hrel', closing_step hclosing hstep⟩
  obtain ⟨bs, s, hbs, hrel, -⟩ :=
    Runs.run_simulates hsteps ⟨rel_start n backlog, rfl, rfl⟩ has
  exact ⟨s, ⟨bs, hbs⟩, hrel⟩

/-- The connections that workers of the pool are serving. -/
def served (p : Pool) : List Conn := (PoolTasks.inside p).map Task.arg

lemma Rel.served_eq {j : St} {s : ServerModel.St} (h : Rel j s) :
    s.workers.filterMap argOf = served j.pool := by
  have hworkers : s.workers = j.srv.workers := by rw [h.same]
  have hmap (l : List (Option Job)) : l.filterMap argOf = (l.map argOf).filterMap id := by
    rw [List.filterMap_map]
    rfl
  rw [hworkers, hmap, h.jobs, List.filterMap_append, served, PoolTasks.inside]
  simp [List.filterMap_map, List.map_filterMap]

/-- **The server on its pool.** Every state it can get to is one of the abstract server, whose
queue are the tasks in the pool and whose workers are the threads inside a task. So an open
connection is in exactly one place: in the hand of `main`, registered, in the batch, with the pool,
with the one thread that serves it, or lost; it is closed once at most; and every call was made on
the connection it was meant for. -/
theorem whole_server {n backlog : ℕ} {j : St} (h : Reaches n backlog j) :
    (∃ s, ServerModel.Reaches n backlog s ∧ s = { j.srv with queue := s.queue } ∧
      s.queue.Perm ((pending j.pool).map Task.arg) ∧
      s.workers.filterMap argOf = served j.pool) ∧
    (∀ c ∈ j.srv.opened, j.srv.main.conn.count c + j.srv.armed.count c +
      (j.srv.batch.filterMap Ready.conn).count c + ((pending j.pool).map Task.arg).count c +
        (served j.pool).count c + j.srv.lost.count c = 1) ∧
    j.srv.closes.Nodup ∧ ∀ k ∈ j.srv.calls, k.found = some k.conn := by
  obtain ⟨s, hreach, hrel⟩ := reaches_rel h
  have hown := ServerOwnership.reaches_owned hreach
  have hsame := hrel.same
  have hserved := hrel.served_eq
  refine ⟨⟨s, hreach, hsame, hrel.queue, hserved⟩, fun c hc => ?_, ?_, ?_⟩
  · have hopen : c ∈ s.opened := by
      rw [hsame]
      exact hc
    have hpos := List.count_pos_iff.mpr hopen
    have hbal := hown.balance c
    have hone := hown.count_le_one c
    have hargs := hown.count_argOf hopen
    have hqueue := hrel.queue.count_eq c
    have hmain : s.main = j.srv.main := by rw [hsame]
    have harmed : s.armed = j.srv.armed := by rw [hsame]
    have hbatch : s.batch = j.srv.batch := by rw [hsame]
    have hlost : s.lost = j.srv.lost := by rw [hsame]
    rw [ServerOwnership.held_count] at hbal
    rw [hserved] at hargs
    rw [← hmain, ← harmed, ← hbatch, ← hlost]
    omega
  · have honce := hown.table.once
    rw [hsame] at honce
    exact honce
  · have hcalls := hown.table.calls
    rw [hsame] at hcalls
    exact hcalls

/-- One worker is made, one client comes, and its task is added. -/
def oneTask : List Act :=
  [.pool (.create true true), .pool .initStep, .pool .initStep, .pool .initStep, .pool .initStep,
    .srv (.epollWait [.listenfd]), .srv (.walk true), .srv (.accept 7), .srv (.epollAdd true),
    .srv .acceptAgain, .srv .walked, .pool (.turn 0), .srv (.epollWait [.client ⟨7, 0⟩ true]),
    .add true true [0]]

/-- The worker calls `accept_request` for it. -/
def oneClient : List Act :=
  oneTask ++ [.pool (.turn 0), .begin 0 ServerOwnership.oneFile 1 ServerOwnership.getSlash]

/-- Before the worker gets to it, `epoll_wait` fails and `main` destroys the pool. -/
def lateClient : List Act :=
  oneTask ++ [.srv .walked, .srv .epollWaitFails, .pool (.destroy 0 false true), .pool (.turn 0),
    .pool (.join 0 true), .pool (.leave 0)]

theorem whole_server_oneClient :
    (∃ j, Reaches 1 1 j ∧ served j.pool = [⟨7, 0⟩] ∧ ⟨7, 0⟩ ∈ j.srv.opened ∧
      j.srv.armed.count ⟨7, 0⟩ + (j.srv.batch.filterMap Ready.conn).count ⟨7, 0⟩ +
        ((pending j.pool).map Task.arg).count ⟨7, 0⟩ = 0) ∧
      ∃ j, Reaches 1 1 j ∧ j.srv.lost = [⟨7, 0⟩] ∧ ⟨7, 0⟩ ∈ j.srv.opened ∧
        ((pending j.pool).map Task.arg).count ⟨7, 0⟩ = 0 := by
  have hserve : (Runs.run step (start 1 1) oneClient).map
      (fun j => (served j.pool, j.srv.opened)) = some ([⟨7, 0⟩], [⟨7, 0⟩]) := by decide +kernel
  have hdrop : (Runs.run step (start 1 1) lateClient).map
      (fun j => (j.srv.lost, j.srv.opened)) = some ([⟨7, 0⟩], [⟨7, 0⟩]) := by decide +kernel
  constructor
  · obtain ⟨j, hj, hends⟩ := Option.map_eq_some_iff.mp hserve
    obtain ⟨hserved, hopened⟩ := Prod.mk.inj hends
    have hin : ⟨7, 0⟩ ∈ j.srv.opened := by simp [hopened]
    have hplace := (whole_server ⟨oneClient, hj⟩).2.1 ⟨7, 0⟩ hin
    rw [hserved, List.count_singleton_self] at hplace
    exact ⟨j, ⟨oneClient, hj⟩, hserved, hin, by omega⟩
  · obtain ⟨j, hj, hends⟩ := Option.map_eq_some_iff.mp hdrop
    obtain ⟨hlost, hopened⟩ := Prod.mk.inj hends
    have hin : ⟨7, 0⟩ ∈ j.srv.opened := by simp [hopened]
    have hplace := (whole_server ⟨lateClient, hj⟩).2.1 ⟨7, 0⟩ hin
    rw [hlost, List.count_singleton_self] at hplace
    exact ⟨j, ⟨lateClient, hj⟩, hlost, hin, by omega⟩

end WeatherQuery.WholeServer
