import WeatherQuery.PoolShutdown

/-!
`threadpool_init` and what it does when something fails.

Up to its creation loop the function runs alone; it asks for three blocks of memory and for the
lock and the condition variable, and where one of them is refused it hands the pool, as far as
it is built, to `threadpool_free`. From the loop on the workers it has created run beside it,
and where `pthread_create` fails it calls `threadpool_destroy`.
-/

namespace WeatherQuery.PoolInit

open WeatherQuery.PoolModel WeatherQuery.PoolSteps WeatherQuery.PoolTasks WeatherQuery.PoolWake
open WeatherQuery.PoolShutdown

variable {F A : Type}

/-! ### Up to the creation loop -/

inductive Fault
  | nullPointer
  /-- A pointer read from memory that was never written. -/
  | wildPointer
  deriving DecidableEq

/-- Whether each `malloc`, `pthread_mutex_init` and `pthread_cond_init` succeeds, and the pointer
that the memory given out for the dummy head holds at `next`, `0` for `NULL`. -/
structure Outcomes where
  pool : Bool
  threads : Bool
  head : Bool
  mutex : Bool
  cond : Bool
  junk : ℕ
  deriving DecidableEq

/-- `pool->head->next` while the pool is being built. -/
inductive Next (F A : Type)
  | unwritten (junk : ℕ)
  | chain (l : List (Task F A))

/-- The pool while it is being built: whether `threads` is set, and the dummy head, if it is. -/
structure Partial (F A : Type) where
  threads : Bool
  head : Option (Next F A)
  startSize : ℤ

/-- `threadpool_free` on such a pool: the value returned, whether `threads` was released, the
nodes released. -/
def freePartial (p : Partial F A) : Except Fault (ℤ × Bool × List (Task F A)) :=
  if p.startSize > 0 then .ok (-1, false, [])
  else
    match p.head with
    | none => .error .nullPointer
    | some (.unwritten 0) => .ok (0, p.threads, [])
    | some (.unwritten _) => .error .wildPointer
    | some (.chain l) => .ok (0, p.threads, l)

/-- `threadpool_init` up to its creation loop, with `none` where it returns `NULL`. -/
def prepare (F A : Type) (n : ℤ) (o : Outcomes) : Except Fault (Option (Sys F A)) :=
  if n ≤ 0 then .ok none
  else if !o.pool then .ok none
  else
    let p : Partial F A := ⟨o.threads, if o.head then some (.unwritten o.junk) else none, 0⟩
    if !o.threads || !o.head then (freePartial p).map fun _ => none
    else
      let p : Partial F A := { p with head := some (.chain []) }
      if !o.mutex then (freePartial p).map fun _ => none
      else if !o.cond then (freePartial p).map fun _ => none
      else .ok (some (start F A n.toNat))

/-! ### The creation loop -/

/-- The pool and the workers joined so far. -/
abbrev Observed (F A : Type) := Sys F A × List ℕ

/-- The worker that a step joins. -/
def joinedBy (s : Sys F A) : Act F A → Option ℕ
  | .join d true =>
    match s.destroys[d]? with
    | some ⟨_, .joining i _⟩ => some i
    | _ => none
  | _ => none

def Returned (s : Sys F A) : Prop := s.init = .returned ∨ s.init = .returnedNull

instance (s : Sys F A) : Decidable (Returned s) := inferInstanceAs (Decidable (_ ∨ _))

/-- The call of `pthread_create` for worker `i` comes out as `created i` says; the broadcast and
the joins that follow a failure succeed. -/
def obeys (created : ℕ → Bool) (s : Sys F A) : Act F A → Bool
  | .create ok broadcast =>
    broadcast && match s.init with
      | .create i => ok == created i
      | _ => false
  | .join _ ok => ok
  | _ => true

/-- A step of the pool until `threadpool_init` has returned. -/
def callStep (created : ℕ → Bool) (o : Observed F A) (a : Act F A) : Option (Observed F A) :=
  if ¬ Returned o.1 ∧ obeys created o.1 a then
    (step o.1 a).map fun t => (t, o.2 ++ (joinedBy o.1 a).toList)
  else none

/-! ### What the call promises -/

/-- A pool ready for use. -/
structure Ready (n : ℤ) (s : Sys F A) : Prop where
  head : s.pool.head = []
  queueSize : s.pool.queueSize = 0
  shutdown : s.pool.shutdown = none
  threadCount : (s.pool.threadCount : ℤ) = n
  startSize : s.pool.startSize = n

/-- Every worker has left and has been joined. -/
def AllJoined (o : Observed F A) : Prop :=
  ∀ i < o.1.workers.length, o.1.workers[i]? = some .exited ∧ i ∈ o.2

/-- `threadpool_init(n)` dereferences no bad pointer and returns a pool that is ready or, with
all its workers gone, `NULL`. -/
def Sound (F A : Type) (n : ℤ) (o : Outcomes) (created : ℕ → Bool) : Prop :=
  match prepare F A n o with
  | .error _ => False
  | .ok none => True
  | .ok (some s) =>
    Runs.Leads (callStep created) (fun o => Returned o.1) (s, []) ∧
      ∀ as t, Runs.run (callStep created) (s, []) as = some t →
        (t.1.init = .returned → Ready n t.1) ∧ (t.1.init = .returnedNull → AllJoined t)

/-- The pool handed to `threadpool_free` has its dummy head, written or with `NULL` in it. -/
def HeadUsable (o : Outcomes) : Prop :=
  o.pool = false ∨ o.head = true ∧ (o.threads = true ∨ o.junk = 0)

/-! ### Creating -/

/-- No worker has anything to do. -/
def Idle (l : List (Worker F A)) : Prop := ∀ w ∈ l, w = .top ∨ w = .parked ∨ w = .woken

/-- As long as no call of `pthread_create` has failed. -/
structure Opening (s : Sys F A) : Prop where
  staffed : Staffed s
  unshut : Unshut s
  lock : s.pool.lock = .free
  shutdown : s.pool.shutdown = none
  head : s.pool.head = []
  queueSize : s.pool.queueSize = 0
  destroys : s.destroys = []
  idle : Idle s.workers

/-- Once one has failed: the call of `threadpool_destroy` and the workers joined in it. -/
structure Unwinding (o : Observed F A) (pc : DestroyPc) : Prop where
  init : o.1.init = .unwind 0
  destroys : o.1.destroys = [⟨false, pc⟩]
  shutdown : o.1.pool.shutdown = some .immediate
  threadCount : o.1.pool.threadCount = o.1.workers.length
  leaving : ∀ w ∈ o.1.workers, w = .top ∨ w = .woken ∨ w = .exited
  joined : match pc with
    | .joining i err => err = none ∧ i ≤ o.1.workers.length ∧ o.1.pool.lock = .free ∧
        ∀ j < i, o.1.workers[j]? = some .exited ∧ j ∈ o.2
    | .returned _ => AllJoined o

/-- The steps that the call and the workers it waits for still have to make. -/
def owed (s : Sys F A) : ℕ :=
  match s.init with
  | .create i => 4 * (s.threadNum - i) + 2 * s.threadNum + 3
  | .count i => 4 * (s.threadNum - i) + 2 * s.threadNum + 2
  | .load i => 4 * (s.threadNum - i) + 2 * s.threadNum + 1
  | .store i _ => 4 * (s.threadNum - i) + 2 * s.threadNum
  | .unwind d =>
    match s.destroys[d]? with
    | some ⟨_, .joining i _⟩ => staying s.workers + (s.pool.threadCount - i) + 2
    | _ => 1
  | .returned | .returnedNull => 0

lemma Idle.set {l : List (Worker F A)} (h : Idle l) (i : ℕ) {w : Worker F A}
    (hw : w = .top ∨ w = .parked ∨ w = .woken) : Idle (l.set i w) := by
  intro v hv
  rcases List.mem_or_eq_of_mem_set hv with hv | rfl
  · exact h v hv
  · exact hw

lemma Opening.trans {s t : Sys F A} (h : Trans s t) (hs : Opening s) (hr : ¬ Returned s) :
    Opening t ∧ owed t ≤ owed s := by
  have hstaffed := trans_staffed h hs.unshut hs.staffed
  have hunshut := trans_unshut h hs.unshut
  have busy : ∀ {i : ℕ} {w : Worker F A}, s.workers[i]? = some w → w.holds = none := by
    intro i w hw
    rcases hs.idle w (List.mem_of_getElem? hw) with rfl | rfl | rfl <;> rfl
  cases h with
  | create i hpc hi =>
    refine ⟨⟨hstaffed, hunshut, hs.lock, hs.shutdown, hs.head, hs.queueSize, hs.destroys, ?_⟩, ?_⟩
    · intro w hw
      rcases List.mem_append.mp hw with hw | hw
      · exact hs.idle w hw
      · exact .inl (List.mem_singleton.mp hw)
    · simp [owed, hpc]
  | initReturn i hpc hi =>
    exact ⟨⟨hstaffed, hunshut, hs.lock, hs.shutdown, hs.head, hs.queueSize, hs.destroys, hs.idle⟩,
      Nat.zero_le _⟩
  | count i hpc =>
    exact ⟨⟨hstaffed, hunshut, hs.lock, hs.shutdown, hs.head, hs.queueSize, hs.destroys, hs.idle⟩,
      by simp [owed, hpc]⟩
  | load i hpc =>
    exact ⟨⟨hstaffed, hunshut, hs.lock, hs.shutdown, hs.head, hs.queueSize, hs.destroys, hs.idle⟩,
      by simp [owed, hpc]⟩
  | store i v hpc =>
    refine ⟨⟨hstaffed, hunshut, hs.lock, hs.shutdown, hs.head, hs.queueSize, hs.destroys,
      hs.idle⟩, ?_⟩
    have hst := hs.staffed
    simp only [Staffed, hpc] at hst
    simp only [owed, hpc]
    omega
  | unwound d g e hpc hd => simp [hs.destroys] at hd
  | refuse func arg hpc | accept func arg ws hpc | destroy g hpc | again c g hpc =>
    exact absurd (.inl hpc) hr
  | spurious i hw =>
    exact ⟨⟨hstaffed, hunshut, hs.lock, hs.shutdown, hs.head, hs.queueSize, hs.destroys,
      hs.idle.set i (.inr (.inr rfl))⟩, le_of_eq (by simp [owed, hs.destroys])⟩
  | park i w hw htw =>
    exact ⟨⟨hstaffed, hunshut, hs.lock, hs.shutdown, hs.head, hs.queueSize, hs.destroys,
      hs.idle.set i (.inr (.inl rfl))⟩, le_of_eq (by simp [owed, hs.destroys])⟩
  | quit i w hw htw hl hsd => simp [hs.shutdown] at hsd
  | null i w hw htw hl hq => exact absurd hs.queueSize hq
  | take i w x next hw htw hl hq => exact absurd hs.queueSize hq
  | call i x hw | finish i x hw => cases busy hw
  | join d i g e hd | leaveErr d i g e hd | freeRefused d i g hd | free d i g hd =>
    simp [hs.destroys] at hd

/-! ### Unwinding -/

/-- The call of `threadpool_destroy` that follows a failed `pthread_create`. -/
lemma Opening.fail {s t : Sys F A} {i : ℕ} (hs : Opening s) (hpc : s.init = .create i)
    (hi : i < s.threadNum) (h : step s (.create false true) = some t) (l : List ℕ) :
    Unwinding (t, l) (.joining 0 none) ∧ owed t < owed s := by
  have hst := hs.staffed
  simp only [Staffed, hpc] at hst
  have hentered : t = { s with
      pool := { s.pool with shutdown := some .immediate }, workers := s.workers.map Worker.wake
      init := .unwind 0, destroys := [⟨false, .joining 0 none⟩] } := by
    simp only [step, hpc, hi, if_true, enterDestroy,
      destroySection_first hs.lock hs.shutdown] at h
    simpa [hs.destroys] using h.symm
  subst hentered
  refine ⟨⟨rfl, rfl, rfl, ?_, ?_, ?_⟩, ?_⟩
  · show s.pool.threadCount = (s.workers.map Worker.wake).length
    simp [hst]
  · intro w hw
    obtain ⟨v, hv, rfl⟩ := List.mem_map.mp hw
    rcases hs.idle v hv with rfl | rfl | rfl
    · exact .inl rfl
    · exact .inr (.inl rfl)
    · exact .inr (.inl rfl)
  · exact ⟨rfl, Nat.zero_le _, hs.lock, fun j hj => absurd hj (Nat.not_lt_zero j)⟩
  · have hle : staying (s.workers.map Worker.wake) ≤ i := by
      have := List.countP_le_length (p := fun w : Worker F A => !w.isExited)
        (l := s.workers.map Worker.wake)
      rw [List.length_map, hst.2.1] at this
      exact this
    simp only [owed, hpc, List.getElem?_cons_zero]
    omega

/-- A worker that a call of `threadpool_destroy` waits for leaves. -/
lemma staying_set {l : List (Worker F A)} {i : ℕ} {w : Worker F A} (h : l[i]? = some w)
    (hw : w.isExited = false) : staying (l.set i .exited) + 1 = staying l := by
  obtain ⟨k, hk, hk'⟩ := Slots.countP_set (fun w : Worker F A => !w.isExited) h
  unfold staying
  rw [hk, hk', hw]
  simp [Worker.isExited]
  omega

lemma Unwinding.call {o : Observed F A} {pc : DestroyPc} (hs : Unwinding o pc) {d : ℕ}
    {c : DestroyCall} (hd : o.1.destroys[d]? = some c) : d = 0 ∧ c = ⟨false, pc⟩ := by
  rw [hs.destroys] at hd
  cases d with
  | zero => exact ⟨rfl, by simpa using hd.symm⟩
  | succ d => simp at hd

/-- A worker takes its last turn. -/
lemma Unwinding.turn {o : Observed F A} {pc : DestroyPc} {k : ℕ} {t : Sys F A}
    (hs : Unwinding o pc) (h : step o.1 (.turn k) = some t) :
    Unwinding (t, o.2) pc ∧ owed t < owed o.1 := by
  obtain ⟨w, hw, htw, hturn⟩ := turn_inv h
  have hk := (List.getElem?_eq_some_iff.mp hw).1
  have hex := isExited_of_turn htw
  rcases pc with ⟨i, err⟩ | err
  · obtain ⟨rfl, hi, hl, hjoined⟩ := hs.joined
    rw [turnStep, workerTurn_quit hl (.inl hs.shutdown)] at hturn
    obtain rfl : _ = t := by simpa using hturn
    refine ⟨⟨hs.init, hs.destroys, hs.shutdown, ?_, ?_, rfl, ?_, hl, ?_⟩, ?_⟩
    · simpa using hs.threadCount
    · intro v hv
      rcases List.mem_or_eq_of_mem_set hv with hv | rfl
      · exact hs.leaving v hv
      · exact .inr (.inr rfl)
    · simpa using hi
    · intro j hj
      refine ⟨?_, (hjoined j hj).2⟩
      by_cases hjk : k = j
      · subst hjk
        exact List.getElem?_set_self hk
      · exact (List.getElem?_set_ne hjk).trans (hjoined j hj).1
    · have hset := staying_set hw hex
      simp only [owed, hs.init, hs.destroys, List.getElem?_cons_zero]
      omega
  · -- nobody is left to take a turn
    have hgone := (hs.joined k hk).1
    rw [hw, Option.some.injEq] at hgone
    subst hgone
    cases hex

/-- The call of `threadpool_destroy` joins the next worker. -/
lemma Unwinding.join {o : Observed F A} {pc : DestroyPc} {d : ℕ} {t : Sys F A}
    (hs : Unwinding o pc) (h : step o.1 (.join d true) = some t) :
    (∃ pc', Unwinding (t, o.2 ++ (joinedBy o.1 (.join d true)).toList) pc') ∧
      owed t < owed o.1 := by
  simp only [step] at h
  split at h
  · rename_i g i err hd
    obtain ⟨rfl, hc⟩ := hs.call hd
    obtain ⟨rfl, rfl⟩ : g = false ∧ DestroyPc.joining i err = pc := by simpa using hc
    obtain ⟨rfl, -, hl, hjoined⟩ := hs.joined
    have hby : joinedBy o.1 (.join 0 true) = some i := by simp [joinedBy, hd]
    split_ifs at h with hi
    split at h
    · rename_i hw
      obtain rfl := Option.some.inj h
      refine ⟨⟨.joining (i + 1) none, hs.init, by simp [hs.destroys], hs.shutdown, hs.threadCount,
        hs.leaving, rfl, ?_, hl, ?_⟩, ?_⟩
      · rw [hs.threadCount] at hi
        exact hi
      · intro j hj
        rw [hby]
        rcases Nat.lt_succ_iff_lt_or_eq.mp hj with hj | rfl
        · exact ⟨(hjoined j hj).1, List.mem_append_left _ (hjoined j hj).2⟩
        · exact ⟨hw, by simp⟩
      · simp only [owed, hs.init, hs.destroys, List.set_cons_zero, List.getElem?_cons_zero]
        omega
    · cases h
  · cases h

lemma leaveDestroy_frame (d : ℕ) (c : DestroyCall) (s : Sys F A) :
    (leaveDestroy d c none s).init = s.init ∧ (leaveDestroy d c none s).workers = s.workers ∧
      (leaveDestroy d c none s).destroys = s.destroys.set d { c with pc := .returned none } ∧
      (leaveDestroy d c none s).pool.shutdown = s.pool.shutdown ∧
      (leaveDestroy d c none s).pool.threadCount = s.pool.threadCount := by
  refine ⟨rfl, rfl, rfl, ?_, ?_⟩ <;> simp only [leaveDestroy, threadpoolFree] <;> split <;> rfl

/-- The call of `threadpool_destroy` returns. -/
lemma Unwinding.leave {o : Observed F A} {pc : DestroyPc} {d : ℕ} {t : Sys F A}
    (hs : Unwinding o pc) (h : step o.1 (.leave d) = some t) :
    (∃ pc', Unwinding (t, o.2) pc') ∧ owed t < owed o.1 := by
  simp only [step] at h
  split at h
  · rename_i g i err hd
    obtain ⟨rfl, hc⟩ := hs.call hd
    obtain ⟨rfl, rfl⟩ : g = false ∧ DestroyPc.joining i err = pc := by simpa using hc
    obtain ⟨rfl, hle, hl, hjoined⟩ := hs.joined
    split_ifs at h with hi
    obtain rfl := Option.some.inj h
    rw [hs.threadCount] at hi
    have hall : AllJoined o := fun j hj => hjoined j (by omega)
    obtain ⟨hinit, hworkers, hdestroys, hsd, hcount⟩ :=
      leaveDestroy_frame 0 ⟨false, .joining i none⟩ o.1
    rw [hs.destroys, List.set_cons_zero] at hdestroys
    refine ⟨⟨.returned none, hinit.trans hs.init, hdestroys, hsd.trans hs.shutdown, ?_, ?_, ?_⟩, ?_⟩
    · rw [hcount, hworkers]
      exact hs.threadCount
    · rw [hworkers]
      exact hs.leaving
    · intro j hj
      rw [hworkers] at hj ⊢
      exact hall j hj
    · simp only [owed, hinit, hdestroys, hs.init, hs.destroys, List.getElem?_cons_zero]
      omega
  · cases h

/-- Where a run of `threadpool_init(n)` stands. -/
def Under (n : ℕ) (o : Observed F A) : Prop :=
  (Opening o.1 ∧ o.1.threadNum = n) ∨ (∃ pc, Unwinding o pc) ∨
    o.1.init = .returnedNull ∧ AllJoined o

lemma Unwinding.after {created : ℕ → Bool} {o o' : Observed F A} {pc : DestroyPc} {a : Act F A}
    (hs : Unwinding o pc) (h : callStep created o a = some o') (n : ℕ) :
    Under n o' ∧ owed o'.1 ≤ owed o.1 := by
  unfold callStep at h
  split_ifs at h with hok
  obtain ⟨t, ht, rfl⟩ := Option.map_eq_some_iff.mp h
  have out : ∀ {i : ℕ} {w : Worker F A}, o.1.workers[i]? = some w →
      w.isParked = false ∧ w.holds = none := by
    intro i w hw
    rcases hs.leaving w (List.mem_of_getElem? hw) with rfl | rfl | rfl <;> exact ⟨rfl, rfl⟩
  cases a with
  | create ok broadcast => simp [step, hs.init] at ht
  | add | destroy => simp [step, hs.init] at ht
  | initStep =>
    simp only [step, initStep, hs.init, hs.destroys, List.getElem?_cons_zero] at ht
    rcases pc with ⟨i, err⟩ | err
    · cases ht
    · obtain rfl := Option.some.inj ht
      refine ⟨.inr (.inr ⟨rfl, fun j hj => ?_⟩), Nat.zero_le _⟩
      simpa [joinedBy] using hs.joined j hj
  | spurious i =>
    simp only [step] at ht
    split at ht
    · rename_i hw
      cases (out hw).1
    · cases ht
  | call i | finish i =>
    simp only [step] at ht
    split at ht
    · rename_i hw
      cases (out hw).2
    · cases ht
  | turn i =>
    obtain ⟨hu, hle⟩ := hs.turn ht
    exact ⟨.inr (.inl ⟨pc, by simpa [joinedBy] using hu⟩), hle.le⟩
  | join d ok =>
    obtain rfl : ok = true := hok.2
    obtain ⟨hu, hle⟩ := hs.join ht
    exact ⟨.inr (.inl hu), hle.le⟩
  | leave d =>
    obtain ⟨⟨pc', hu⟩, hle⟩ := hs.leave ht
    exact ⟨.inr (.inl ⟨pc', by simpa [joinedBy] using hu⟩), hle.le⟩

lemma Opening.after {created : ℕ → Bool} {o o' : Observed F A} {a : Act F A}
    (hs : Opening o.1) (h : callStep created o a = some o') :
    Under o.1.threadNum o' ∧ owed o'.1 ≤ owed o.1 := by
  unfold callStep at h
  split_ifs at h with hok
  obtain ⟨hr, hobeys⟩ := hok
  obtain ⟨t, ht, rfl⟩ := Option.map_eq_some_iff.mp h
  by_cases ha : a.Ok
  · have htrans := step_trans ha ht
    obtain ⟨hopen, hle⟩ := hs.trans htrans hr
    exact ⟨.inl ⟨hopen, trans_threadNum htrans⟩, hle⟩
  cases a with
  | create ok broadcast =>
    obtain rfl : ok = false := by simpa [Act.Ok] using ha
    obtain rfl : broadcast = true := by
      simp only [obeys, Bool.and_eq_true] at hobeys
      exact hobeys.1
    obtain ⟨i, hpc, hi⟩ : ∃ i, o.1.init = .create i ∧ i < o.1.threadNum := by
      simp only [step] at ht
      split at ht
      · rename_i i hpc
        by_cases hi : i < o.1.threadNum
        · exact ⟨i, hpc, hi⟩
        · simp [hi] at ht
      · cases ht
    obtain ⟨hu, hlt⟩ := hs.fail hpc hi ht (o.2 ++ [])
    exact ⟨.inr (.inl ⟨_, hu⟩), hlt.le⟩
  | add c func arg malloc signal ws =>
    simp only [step] at ht
    split_ifs at ht with hpc
    exact absurd (.inl hpc) hr
  | destroy c g broadcast =>
    simp only [step] at ht
    split_ifs at ht with hpc
    exact absurd (.inl hpc) hr
  | join d ok => exact absurd hobeys ha
  | initStep | spurious | turn | call | finish | leave => exact absurd trivial ha

/-! ### Arriving -/

lemma callStep_of {created : ℕ → Bool} {o : Observed F A} {a : Act F A} {t : Sys F A}
    (hr : ¬ Returned o.1) (hobeys : obeys created o.1 a = true) (h : step o.1 a = some t) :
    callStep created o a = some (t, o.2 ++ (joinedBy o.1 a).toList) := by
  simp [callStep, hr, hobeys, h]

/-- As long as workers are being created, the next step of the call is possible. -/
lemma Opening.progress (created : ℕ → Bool) {o : Observed F A} (hs : Opening o.1)
    (hr : ¬ Returned o.1) : ∃ a o', callStep created o a = some o' ∧ owed o'.1 < owed o.1 := by
  have hst := hs.staffed
  rcases hpc : o.1.init with i | i | i | ⟨i, v⟩ | _ | d | _
  · by_cases hi : i < o.1.threadNum
    · cases hc : created i with
      | true =>
        refine ⟨.create true true, _, callStep_of hr (by simp [obeys, hpc, hc])
          (by simp only [step, hpc, hi, if_true]; rfl), ?_⟩
        simp [owed, hpc]
      | false =>
        have hstep : ∃ t, step o.1 (.create false true) = some t := by
          simp [step, hpc, hi, enterDestroy, destroySection_first hs.lock hs.shutdown]
        obtain ⟨t, ht⟩ := hstep
        exact ⟨.create false true, _, callStep_of hr (by simp [obeys, hpc, hc]) ht,
          (hs.fail hpc hi ht []).2⟩
    · refine ⟨.initStep, _, callStep_of hr rfl (by simp only [step, initStep, hpc, hi]; rfl), ?_⟩
      simp [owed, hpc]
  · refine ⟨.initStep, _, callStep_of hr rfl (by simp only [step, initStep, hpc]; rfl), ?_⟩
    simp [owed, hpc]
  · refine ⟨.initStep, _, callStep_of hr rfl (by simp only [step, initStep, hpc]; rfl), ?_⟩
    simp [owed, hpc]
  · refine ⟨.initStep, _, callStep_of hr rfl (by simp only [step, initStep, hpc]; rfl), ?_⟩
    simp only [Staffed, hpc] at hst
    simp only [owed, hpc]
    omega
  · exact absurd (.inl hpc) hr
  · simp [Staffed, hpc] at hst
  · exact absurd (.inr hpc) hr

/-- Afterwards a step of `threadpool_destroy` is possible, or one of the worker it waits for. -/
lemma Unwinding.progress (created : ℕ → Bool) {o : Observed F A} {pc : DestroyPc}
    (hs : Unwinding o pc) : ∃ a o', callStep created o a = some o' ∧ owed o'.1 < owed o.1 := by
  have hr : ¬ Returned o.1 := by simp [Returned, hs.init]
  have hd : o.1.destroys[0]? = some ⟨false, pc⟩ := by simp [hs.destroys]
  rcases pc with ⟨i, err⟩ | err
  · obtain ⟨rfl, hle, hl, hjoined⟩ := hs.joined
    by_cases hi : i < o.1.pool.threadCount
    · have hlen : i < o.1.workers.length := hs.threadCount ▸ hi
      have hw : o.1.workers[i]? = some o.1.workers[i] := List.getElem?_eq_getElem hlen
      by_cases hex : o.1.workers[i] = .exited
      · rw [hex] at hw
        have hstep : ∃ t, step o.1 (.join 0 true) = some t := by simp [step, hd, hi, hw]
        obtain ⟨t, ht⟩ := hstep
        exact ⟨.join 0 true, _, callStep_of hr rfl ht, (hs.join ht).2⟩
      · have hstep : ∃ t, step o.1 (.turn i) = some t := by
          have hturn : ∃ t, turnStep i o.1 = some t := by
            rw [turnStep, workerTurn_quit hl (.inl hs.shutdown)]
            exact ⟨_, rfl⟩
          rcases hs.leaving _ (List.getElem_mem hlen) with hw' | hw' | hw'
          · simpa [step, hw, hw'] using hturn
          · simpa [step, hw, hw'] using hturn
          · exact absurd hw' hex
        obtain ⟨t, ht⟩ := hstep
        exact ⟨.turn i, _, callStep_of hr rfl ht, (hs.turn ht).2⟩
    · have hstep : ∃ t, step o.1 (.leave 0) = some t := by simp [step, hd, hi]
      obtain ⟨t, ht⟩ := hstep
      exact ⟨.leave 0, _, callStep_of hr rfl ht, (hs.leave ht).2⟩
  · have hstep : step o.1 .initStep = some { o.1 with init := .returnedNull } := by
      simp [step, initStep, hs.init, hd]
    refine ⟨.initStep, _, callStep_of hr rfl hstep, ?_⟩
    simp [owed, hs.init, hs.destroys]

lemma Under.after {created : ℕ → Bool} {n : ℕ} {o o' : Observed F A} {a : Act F A}
    (hs : Under n o) (h : callStep created o a = some o') : Under n o' ∧ owed o'.1 ≤ owed o.1 := by
  rcases hs with ⟨hopen, rfl⟩ | ⟨pc, hu⟩ | ⟨hpc, -⟩
  · exact hopen.after h
  · exact hu.after h n
  · simp [callStep, Returned, hpc] at h

lemma Under.progress (created : ℕ → Bool) {n : ℕ} {o : Observed F A} (hs : Under n o)
    (hr : ¬ Returned o.1) : ∃ a o', callStep created o a = some o' ∧ owed o'.1 < owed o.1 := by
  rcases hs with ⟨hopen, -⟩ | ⟨pc, hu⟩ | ⟨hpc, -⟩
  · exact hopen.progress created hr
  · exact hu.progress created
  · exact absurd (.inr hpc) hr

lemma under_start (n : ℕ) : Under n (start F A n, []) := by
  have hc := closing_start (F := F) (A := A) n
  exact .inl ⟨⟨hc.staffed, hc.unshut, rfl, rfl, rfl, rfl, rfl, fun w hw => by cases hw⟩, rfl⟩

lemma Under.ready {n : ℕ} {o : Observed F A} (hs : Under n o) (hpc : o.1.init = .returned) :
    Ready n o.1 := by
  rcases hs with ⟨hopen, rfl⟩ | ⟨pc, hu⟩ | ⟨hpc', -⟩
  · have hst := hopen.staffed
    simp only [Staffed, hpc] at hst
    have hstay := staying_add_exited o.1.workers
    rw [(hopen.unshut hopen.shutdown).2.2] at hstay
    exact ⟨hopen.head, hopen.queueSize, hopen.shutdown, by omega, by omega⟩
  · rw [hu.init] at hpc
    cases hpc
  · rw [hpc'] at hpc
    cases hpc

lemma Under.allJoined {n : ℕ} {o : Observed F A} (hs : Under n o)
    (hpc : o.1.init = .returnedNull) : AllJoined o := by
  rcases hs with ⟨hopen, -⟩ | ⟨pc, hu⟩ | ⟨-, hall⟩
  · have hst := hopen.staffed
    simp [Staffed, hpc] at hst
  · rw [hu.init] at hpc
    cases hpc
  · exact hall

/-- From its loop on the call keeps its promise, whichever calls of `pthread_create` fail. -/
lemma start_sound (n : ℕ) (created : ℕ → Bool) :
    Runs.Leads (callStep created) (fun o : Observed F A => Returned o.1) (start F A n, []) ∧
      ∀ as t, Runs.run (callStep created) (start F A n, []) as = some t →
        (t.1.init = .returned → Ready n t.1) ∧ (t.1.init = .returnedNull → AllJoined t) := by
  constructor
  · exact Runs.leads_of_rank (I := Under n) (fun o => owed o.1) (fun _ _ _ hs h => hs.after h)
      (fun _ hs hr => hs.progress created hr) (under_start n)
  · intro as t hrun
    have ht : Under n t := Runs.run_keeps (fun _ _ _ hs h => (hs.after h).1) (under_start n) hrun
    exact ⟨ht.ready, ht.allJoined⟩

/-! ### The whole call -/

section Prepare

variable {n : ℤ} {o : Outcomes}

lemma prepare_usable (hn : 0 < n) (h : HeadUsable o) :
    prepare F A n o = .ok none ∨ prepare F A n o = .ok (some (start F A n.toNat)) := by
  have hn' : ¬ n ≤ 0 := by omega
  obtain ⟨pool, threads, head, mutex, cond, junk⟩ := o
  rcases h with rfl | ⟨rfl, rfl | rfl⟩
  · simp [prepare]
  · cases pool <;> cases mutex <;> cases cond <;>
      simp [prepare, hn', freePartial, Except.map]
  · cases pool <;> cases threads <;> cases mutex <;> cases cond <;>
      simp [prepare, hn', freePartial, Except.map]

lemma prepare_unusable (hn : 0 < n) (h : ¬ HeadUsable o) :
    ∃ f, prepare F A n o = .error f := by
  have hn' : ¬ n ≤ 0 := by omega
  obtain ⟨pool, threads, head, mutex, cond, junk⟩ := o
  simp only [HeadUsable, not_or, not_and, Bool.not_eq_false, Bool.not_eq_true] at h
  obtain ⟨rfl, hhead⟩ := h
  cases head with
  | false => exact ⟨.nullPointer, by simp [prepare, hn', freePartial, Except.map]⟩
  | true =>
    obtain ⟨rfl, hjunk⟩ := hhead rfl
    obtain ⟨k, rfl⟩ := Nat.exists_eq_succ_of_ne_zero hjunk
    exact ⟨.wildPointer, by simp [prepare, hn', freePartial, Except.map]⟩

end Prepare

/-- **`threadpool_init`.** Whatever fails, the call dereferences no bad pointer and returns, a
pool that is ready or `NULL` with all its workers joined, exactly if there is no pool to clean
up or its dummy head is there for `threadpool_free` to look at: the `malloc` of the head
succeeds, and that of `threads` does too or the memory of the head happens to hold `NULL` at
`next`. -/
theorem init_sound_iff (n : ℤ) (hn : 0 < n) (o : Outcomes) (created : ℕ → Bool) :
    Sound F A n o created ↔ HeadUsable o := by
  unfold Sound
  by_cases h : HeadUsable o
  · refine iff_of_true ?_ h
    rcases prepare_usable (F := F) (A := A) hn h with hp | hp
    · rw [hp]
      trivial
    · rw [hp]
      have hcast : ((n.toNat : ℕ) : ℤ) = n := Int.toNat_of_nonneg hn.le
      have hstart := start_sound (F := F) (A := A) n.toNat created
      rw [hcast] at hstart
      exact hstart
  · refine iff_of_false ?_ h
    obtain ⟨f, hf⟩ := prepare_unusable (F := F) (A := A) hn h
    rw [hf]
    exact id

/-- Three workers, the last of which cannot be created. -/
theorem init_sound_iff_lastFails :
    Sound Unit ℕ 3 ⟨true, true, true, true, true, 0⟩ (fun i => i != 2) ∧
      HeadUsable ⟨true, true, true, true, true, 0⟩ := by
  have h : HeadUsable ⟨true, true, true, true, true, 0⟩ := .inr ⟨rfl, .inl rfl⟩
  exact ⟨(init_sound_iff 3 (by decide) _ _).mpr h, h⟩

/-- Without memory for the dummy head, `threadpool_free` looks through a `NULL` pointer. -/
theorem not_sound_noHead :
    ¬ ∀ (n : ℤ) (o : Outcomes) (created : ℕ → Bool), 0 < n → Sound Unit ℕ n o created := by
  intro h
  exact h 1 ⟨true, true, false, true, true, 0⟩ (fun _ => true) (by decide)

end WeatherQuery.PoolInit
