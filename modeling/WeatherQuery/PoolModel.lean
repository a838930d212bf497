import Mathlib.Algebra.Ring.Int.Defs
import WeatherQuery.Runs
import WeatherQuery.Slots

/-!
The thread pool of `threadpool.c`.

Every access to the pool after `threadpool_init` has returned is made between
`pthread_mutex_lock` and the matching unlock (or `pthread_cond_wait`), so the pool moves by
whole critical sections. Each of them is a function on the pool, written as the source has
it; `step` interleaves them with the accesses made without the lock: the increments of
`threadpool_init`, the calls of the tasks, the joins of `threadpool_destroy` and
`threadpool_free`. The outcomes of `malloc` and of the `pthread` primitives, the workers
that a signal un-parks and the order of everything come in with the action.
-/

namespace WeatherQuery.PoolModel

/-- `threadpool_sd_t`. The field `shutdown` of the pool is `0`, here `none`, until it is set. -/
inductive Shutdown | immediate | graceful
  deriving DecidableEq

/-- `threadpool_error_t`. -/
inductive Err | invalid | lockFail | alreadyShutdown | condBroadcast | threadFail
  deriving DecidableEq

def Err.code : Err → ℤ
  | .invalid => -1
  | .lockFail => -2
  | .alreadyShutdown => -3
  | .condBroadcast => -4
  | .threadFail => -5

/-- The value `threadpool_destroy` returns. -/
def errCode (e : Option Err) : ℤ := (e.map Err.code).getD 0

/-- The threads that take the lock: the one inside `threadpool_init`, the callers of the
interface, the workers. -/
inductive Thread | init | client (c : ℕ) | worker (i : ℕ)
  deriving DecidableEq

inductive Mutex | free | held (who : Thread) | destroyed
  deriving DecidableEq

/-- `task_t`, with the number of the call of `threadpool_add` that made the node. -/
structure Task (F A : Type) where
  func : F
  arg : A
  ticket : ℕ
  deriving DecidableEq

/-- `threadpool_t`. The chain `head->next` is the list of its nodes. -/
structure Pool (F A : Type) where
  lock : Mutex
  head : List (Task F A)
  threadCount : ℕ
  queueSize : ℤ
  shutdown : Option Shutdown
  startSize : ℤ
  deriving DecidableEq

variable {F A : Type}

def intMax : ℤ := 2 ^ 31 - 1

/-- `pthread_mutex_lock`: not possible while the lock is held, or once it is destroyed. -/
def mutexLock (me : Thread) (p : Pool F A) : Option (Pool F A) :=
  if p.lock = .free then some { p with lock := .held me } else none

def mutexUnlock (p : Pool F A) : Pool F A := { p with lock := .free }

/-- `threadpool_add` on a pool that `threadpool_init` returned. Beside the value returned it
says whether `pthread_cond_signal` was called. A `queue_size` that cannot be incremented is
undefined behaviour and no step. -/
def threadpoolAdd (me : Thread) (malloc : Bool) (ticket : ℕ) (func : Option F) (arg : A)
    (p : Pool F A) : Option (ℤ × Bool × Pool F A) :=
  match func with
  | none => some (-1, false, p)
  | some func => do
    let p ← mutexLock me p
    if p.shutdown ≠ none then
      some (Err.alreadyShutdown.code, false, mutexUnlock p)
    else if !malloc then
      -- the source returns here without unlocking
      some (-1, false, p)
    else if p.queueSize = intMax then none
    else
      let p := { p with head := ⟨func, arg, ticket⟩ :: p.head, queueSize := p.queueSize + 1 }
      some (0, true, mutexUnlock p)

/-- How one turn of `threadpool_worker` under the lock ends. -/
inductive Outcome (F A : Type)
  | wait
  | null
  | quit
  | task (t : Task F A)

/-- One turn of `threadpool_worker` under the lock: from the lock taken at the top of the
loop, or taken back inside `pthread_cond_wait`, to the next unlock or wait. -/
def workerTurn (me : Thread) (p : Pool F A) : Option (Outcome F A × Pool F A) := do
  let p ← mutexLock me p
  if p.queueSize = 0 ∧ p.shutdown = none then
    some (.wait, mutexUnlock p)
  else if p.shutdown = some .immediate then
    some (.quit, mutexUnlock { p with startSize := p.startSize - 1 })
  else if p.shutdown = some .graceful ∧ p.queueSize = 0 then
    some (.quit, mutexUnlock { p with startSize := p.startSize - 1 })
  else
    match p.head with
    | [] => some (.null, mutexUnlock p)
    | task :: next =>
      some (.task task, mutexUnlock { p with head := next, queueSize := p.queueSize - 1 })

/-- `threadpool_destroy` up to its join loop. The two early exits leave the lock held. -/
def destroySection (me : Thread) (broadcast graceful : Bool) (p : Pool F A) :
    Option (Option Err × Pool F A) := do
  let p ← mutexLock me p
  if p.shutdown ≠ none then
    some (some .alreadyShutdown, p)
  else
    let p := { p with shutdown := some (if graceful then .graceful else .immediate) }
    if !broadcast then some (some .condBroadcast, p)
    else some (none, mutexUnlock p)

/-- `threadpool_free`: the value returned, the nodes released, the pool left. -/
def threadpoolFree (p : Pool F A) : ℤ × List (Task F A) × Pool F A :=
  if p.startSize > 0 then (-1, [], p)
  else (0, p.head, { p with head := [] })

/-! ### The threads -/

/-- Where a worker stands. -/
inductive Worker (F A : Type)
  /-- About to take the lock at the top of the loop. -/
  | top
  /-- Inside `pthread_cond_wait`, not yet signalled. -/
  | parked
  /-- Inside `pthread_cond_wait`, about to take the lock back. -/
  | woken
  /-- The node is off the chain and the lock released; the task is not called yet. -/
  | took (t : Task F A)
  /-- Inside the task. -/
  | running (t : Task F A)
  /-- Past `pool->start_size--` and the unlock. -/
  | exited
  deriving DecidableEq

namespace Worker

def isParked : Worker F A → Bool
  | parked => true
  | _ => false

def isWoken : Worker F A → Bool
  | woken => true
  | _ => false

def isExited : Worker F A → Bool
  | exited => true
  | _ => false

/-- The task a worker has dequeued and not finished. -/
def holds : Worker F A → Option (Task F A)
  | took t => some t
  | running t => some t
  | _ => none

/-- The task a worker is inside. -/
def inside : Worker F A → Option (Task F A)
  | running t => some t
  | _ => none

def wake : Worker F A → Worker F A
  | parked => woken
  | w => w

end Worker

/-- `pthread_cond_signal` un-parking the workers of `ws`. -/
def wakeAll (ws : List ℕ) (l : List (Worker F A)) : List (Worker F A) :=
  ws.foldl (fun l i => l.modify i Worker.wake) l

/-- A signal un-parks at least one worker when one is parked. -/
def Signals (ws : List ℕ) (l : List (Worker F A)) : Prop :=
  l.countP Worker.isParked = 0 ∨
    (wakeAll ws l).countP Worker.isParked < l.countP Worker.isParked

instance (ws : List ℕ) (l : List (Worker F A)) : Decidable (Signals ws l) :=
  inferInstanceAs (Decidable (_ ∨ _))

/-- The thread inside `threadpool_init`. The increment of `start_size` is a load and a store. -/
inductive InitPc
  | create (i : ℕ)
  | count (i : ℕ)
  | load (i : ℕ)
  | store (i : ℕ) (v : ℤ)
  | returned
  /-- `pthread_create` failed, and the given call of `threadpool_destroy` is under way. -/
  | unwind (d : ℕ)
  | returnedNull
  deriving DecidableEq

/-- A call of `threadpool_destroy` past its critical section. -/
inductive DestroyPc
  | joining (i : ℕ) (err : Option Err)
  | returned (err : Option Err)
  deriving DecidableEq

structure DestroyCall where
  graceful : Bool
  pc : DestroyPc
  deriving DecidableEq

/-- What has happened, for the statements to speak of. -/
inductive Event (F A : Type)
  /-- `threadpool_add` returned. -/
  | added (t : Task F A) (rc : ℤ)
  /-- The branch `task == NULL` of worker `i`. -/
  | nullTask (i : ℕ)
  | called (t : Task F A)
  | finished (t : Task F A)
  /-- `threadpool_free` released the node. -/
  | released (t : Task F A)
  deriving DecidableEq

structure Sys (F A : Type) where
  threadNum : ℕ
  pool : Pool F A
  workers : List (Worker F A)
  init : InitPc
  destroys : List DestroyCall
  tickets : ℕ
  log : List (Event F A)
  deriving DecidableEq

/-- `threadpool_init(n)` at its creation loop. -/
def start (F A : Type) (n : ℕ) : Sys F A where
  threadNum := n
  pool := ⟨.free, [], 0, 0, none, 0⟩
  workers := []
  init := .create 0
  destroys := []
  tickets := 0
  log := []

inductive Act (F A : Type)
  /-- `pthread_create` in `threadpool_init`, and `pthread_cond_broadcast` in the call of
  `threadpool_destroy` that follows when it fails. -/
  | create (ok broadcast : Bool)
  /-- The next access of `threadpool_init` to its own variables or to the pool. -/
  | initStep
  | add (c : ℕ) (func : F) (arg : A) (malloc signal : Bool) (ws : List ℕ)
  /-- A spurious wakeup. -/
  | spurious (i : ℕ)
  | turn (i : ℕ)
  | call (i : ℕ)
  | finish (i : ℕ)
  | destroy (c : ℕ) (graceful broadcast : Bool)
  /-- The next `pthread_join` of a call of `threadpool_destroy`. -/
  | join (d : ℕ) (ok : Bool)
  /-- The end of a call of `threadpool_destroy`, after its join loop. -/
  | leave (d : ℕ)

/-- `malloc` and the `pthread` primitives succeed. -/
def Act.Ok : Act F A → Prop
  | .create ok _ => ok = true
  | .add _ _ _ malloc signal _ => malloc = true ∧ signal = true
  | .destroy _ _ broadcast => broadcast = true
  | .join _ ok => ok = true
  | _ => True

instance (a : Act F A) : Decidable a.Ok :=
  match a with
  | .create ok _ => inferInstanceAs (Decidable (ok = true))
  | .add _ _ _ malloc signal _ => inferInstanceAs (Decidable (malloc = true ∧ signal = true))
  | .destroy _ _ broadcast => inferInstanceAs (Decidable (broadcast = true))
  | .join _ ok => inferInstanceAs (Decidable (ok = true))
  | .initStep | .spurious _ | .turn _ | .call _ | .finish _ | .leave _ => isTrue trivial

/-- `threadpool_init` between two calls of `pthread_create`. -/
def initStep (s : Sys F A) : Option (Sys F A) :=
  match s.init with
  | .create i => if i < s.threadNum then none else some { s with init := .returned }
  | .count i =>
    some { s with
      pool := { s.pool with threadCount := s.pool.threadCount + 1 }, init := .load i }
  | .load i => some { s with init := .store i s.pool.startSize }
  | .store i v =>
    some { s with pool := { s.pool with startSize := v + 1 }, init := .create (i + 1) }
  | .unwind d =>
    match s.destroys[d]? with
    | some ⟨_, .returned _⟩ => some { s with init := .returnedNull }
    | _ => none
  | .returned | .returnedNull => none

/-- A call of `threadpool_destroy` up to its join loop, the workers it wakes included. -/
def enterDestroy (me : Thread) (graceful broadcast : Bool) (s : Sys F A) : Option (Sys F A) := do
  let (err, p) ← destroySection me broadcast graceful s.pool
  match err with
  | some e => some { s with pool := p, destroys := s.destroys ++ [⟨graceful, .returned (some e)⟩] }
  | none =>
    some { s with
      pool := p, workers := s.workers.map Worker.wake
      destroys := s.destroys ++ [⟨graceful, .joining 0 none⟩] }

def turnStep (i : ℕ) (s : Sys F A) : Option (Sys F A) := do
  let (o, p) ← workerTurn (.worker i) s.pool
  match o with
  | .wait => some { s with pool := p, workers := s.workers.set i .parked }
  | .null => some { s with pool := p, workers := s.workers.set i .top, log := .nullTask i :: s.log }
  | .quit => some { s with pool := p, workers := s.workers.set i .exited }
  | .task t => some { s with pool := p, workers := s.workers.set i (.took t) }

def addStep (c : ℕ) (func : F) (arg : A) (malloc signal : Bool) (ws : List ℕ) (s : Sys F A) :
    Option (Sys F A) := do
  let (rc, signals, p) ← threadpoolAdd (.client c) malloc s.tickets (some func) arg s.pool
  let s' := { s with
    pool := p, tickets := s.tickets + 1, log := .added ⟨func, arg, s.tickets⟩ rc :: s.log }
  -- a call of `pthread_cond_signal` that fails wakes nobody
  if signals && signal then
    if Signals ws s.workers then some { s' with workers := wakeAll ws s.workers } else none
  else some s'

/-- The end of `threadpool_destroy`: `if (!err)` and the return. -/
def leaveDestroy (d : ℕ) (c : DestroyCall) (err : Option Err) (s : Sys F A) : Sys F A :=
  match err with
  | some e => { s with destroys := s.destroys.set d { c with pc := .returned (some e) } }
  | none =>
    let (_, released, p) := threadpoolFree { s.pool with lock := .destroyed }
    { s with
      pool := p, destroys := s.destroys.set d { c with pc := .returned none }
      log := released.map .released ++ s.log }

def step (s : Sys F A) : Act F A → Option (Sys F A)
  | .create ok broadcast =>
    match s.init with
    | .create i =>
      if i < s.threadNum then
        if ok then some { s with workers := s.workers ++ [.top], init := .count i }
        else (enterDestroy .init false broadcast s).map fun t =>
          { t with init := .unwind s.destroys.length }
      else none
    | _ => none
  | .initStep => initStep s
  | .add c func arg malloc signal ws =>
    if s.init = .returned then addStep c func arg malloc signal ws s else none
  | .spurious i =>
    match s.workers[i]? with
    | some .parked => some { s with workers := s.workers.set i .woken }
    | _ => none
  | .turn i =>
    match s.workers[i]? with
    | some .top => turnStep i s
    | some .woken => turnStep i s
    | _ => none
  | .call i =>
    match s.workers[i]? with
    | some (.took t) =>
      some { s with workers := s.workers.set i (.running t), log := .called t :: s.log }
    | _ => none
  | .finish i =>
    match s.workers[i]? with
    | some (.running t) =>
      some { s with workers := s.workers.set i .top, log := .finished t :: s.log }
    | _ => none
  | .destroy c graceful broadcast =>
    if s.init = .returned then enterDestroy (.client c) graceful broadcast s else none
  | .join d ok =>
    match s.destroys[d]? with
    | some ⟨g, .joining i err⟩ =>
      if i < s.pool.threadCount then
        if ok then
          match s.workers[i]? with
          | some .exited => some { s with destroys := s.destroys.set d ⟨g, .joining (i + 1) err⟩ }
          | _ => none
        else some { s with destroys := s.destroys.set d ⟨g, .joining (i + 1) (some .threadFail)⟩ }
      else none
    | _ => none
  | .leave d =>
    match s.destroys[d]? with
    | some ⟨g, .joining i err⟩ =>
      if i < s.pool.threadCount then none else some (leaveDestroy d ⟨g, .joining i err⟩ err s)
    | _ => none

/-- The states of a pool of `n` workers that actions allowed by `ok` lead to. -/
def Reaches (ok : Act F A → Prop) (n : ℕ) (s : Sys F A) : Prop :=
  ∃ as : List (Act F A), (∀ a ∈ as, ok a) ∧ Runs.run step (start F A n) as = some s

end WeatherQuery.PoolModel
