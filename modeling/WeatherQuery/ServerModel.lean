import Mathlib.Data.List.Perm.Subperm
import WeatherQuery.HttpModel
import WeatherQuery.Runs

/-!
The server: the epoll loop of `main` in `httpd.c`, with the kernel on one side and the workers of
the pool on the other.

Every call of `main` and every socket call of a worker is a step of its own, so that arrivals,
`main` and the workers interleave as they may. Of the kernel it is assumed that a registration
with `EPOLLONESHOT` delivers one event at most, that closing a descriptor removes its
registration, that `accept` gives a number that is not open, and that the edge of `listenfd`
becomes pending when a connection arrives. Of the pool, that a task whose `threadpool_add`
returned 0 is taken at most once. When its loop has ended `main` destroys the pool, which drops the
tasks that are still queued.
-/

namespace WeatherQuery.ServerModel

open WeatherQuery.Traced WeatherQuery.HttpModel

/-- An accepted connection: the number of its descriptor, and which `accept` gave it. The program
knows the number only. -/
structure Conn where
  fd : ℕ
  gen : ℕ
  deriving DecidableEq

/-- An entry of `events`. A client's is `sound` when it has `EPOLLIN` and neither `EPOLLERR` nor
`EPOLLHUP`. -/
inductive Ready
  | listenfd
  | client (conn : Conn) (sound : Bool)
  deriving DecidableEq

def Ready.conn : Ready → Option Conn
  | .listenfd => none
  | .client c _ => some c

/-- A call of `accept_request` on its socket. -/
inductive SockOp
  | use
  | close
  deriving DecidableEq

def sockOp : Event → Option SockOp
  | .recv _ _ | .send _ _ => some .use
  | .close => some .close
  | _ => none

/-- A running `accept_request`: its argument, the socket calls it has still to make, whether it
returns after them, and whether it has closed the socket. -/
structure Job where
  conn : Conn
  todo : List SockOp
  returns : Bool
  closed : Bool
  deriving DecidableEq

/-- `accept_request` on `c`, as it starts. -/
def startJob (c : Conn) (r : Ran World Event Unit) : Job where
  conn := c
  todo := r.log.filterMap sockOp
  returns := r.val.isSome
  closed := false

/-- The connection a worker holds. -/
def heldBy : Option Job → Option Conn
  | some job => if job.closed then none else some job.conn
  | none => none

/-- Where `main` stands. -/
inductive MainPc
  /-- About to call `My_epoll_wait`. -/
  | waiting
  /-- In the loop over `events`. -/
  | walking
  /-- About to call `accept`. -/
  | accepting
  /-- About to register the connection. -/
  | registering (c : Conn)
  | stopped
  deriving DecidableEq

/-- A read, write or close that was made: for which connection, and which one was open under its
number. -/
structure Call where
  conn : Conn
  close : Bool
  found : Option Conn
  deriving DecidableEq

structure St where
  main : MainPc
  /-- The part of `events` that is not walked yet. -/
  batch : List Ready
  /-- The connections in the backlog of `listenfd`. -/
  backlog : ℕ
  /-- A readiness event of `listenfd` is pending. -/
  pending : Bool
  opened : List Conn
  armed : List Conn
  queue : List Conn
  workers : List (Option Job)
  /-- Dropped by the program without a close. -/
  lost : List Conn
  calls : List Call
  gens : ℕ
  deriving DecidableEq

/-- `n` workers, and so many connections in the backlog when `listenfd` is registered. -/
def start (n backlog : ℕ) : St where
  main := .waiting
  batch := []
  backlog := backlog
  pending := backlog ≠ 0
  opened := []
  armed := []
  queue := []
  workers := List.replicate n none
  lost := []
  calls := []
  gens := 0

/-! ### Descriptors -/

def St.lookup (s : St) (fd : ℕ) : Option Conn := s.opened.find? (·.fd = fd)

/-- A read or write on the number of `c`. -/
def St.use (s : St) (c : Conn) : St := { s with calls := ⟨c, false, s.lookup c.fd⟩ :: s.calls }

/-- `close` on the number of `c`. -/
def St.close (s : St) (c : Conn) : St :=
  { s with
    calls := ⟨c, true, s.lookup c.fd⟩ :: s.calls
    opened := s.opened.filter (·.fd ≠ c.fd)
    armed := s.armed.filter (·.fd ≠ c.fd) }

/-! ### Steps -/

inductive Act
  /-- A connection arrives. -/
  | arrive
  | epollWait (evs : List Ready)
  | epollWaitTimeout
  | epollWaitFails
  /-- `accept` gives the descriptor `fd`. -/
  | accept (fd : ℕ)
  | acceptAgain
  /-- `accept` fails with another error than `EAGAIN`; `ECONNABORTED` takes a connection off the
  backlog. -/
  | acceptFails (aborted : Bool)
  /-- `epoll_ctl` on the connection just accepted, whose result `My_epoll_add` drops. -/
  | epollAdd (ok : Bool)
  /-- The next entry of `events`; `added` when `threadpool_add` returns 0. -/
  | walk (added : Bool)
  | walked
  /-- Worker `i` takes the task of `c` and runs it. -/
  | take (i : ℕ) (c : Conn) (host : Host) (fuel : ℕ) (w : World)
  /-- The next socket call of worker `i`. -/
  | call (i : ℕ)
  /-- `accept_request` returns in worker `i`. -/
  | finish (i : ℕ)
  /-- A turn of the loop of `threadpool_free`, which releases the task of `c`. -/
  | drop (c : Conn)

/-- `MAXEVENTS`. -/
def maxEvents : ℕ := 1024

/-- What `epoll_wait` can report. -/
def Reportable (s : St) (evs : List Ready) : Prop :=
  evs ≠ [] ∧ evs.length ≤ maxEvents ∧ (evs.filterMap Ready.conn).Subperm s.armed ∧
    evs.count .listenfd ≤ s.pending.toNat

instance (s : St) (evs : List Ready) : Decidable (Reportable s evs) :=
  inferInstanceAs (Decidable (_ ∧ _ ∧ _ ∧ _))

def report (s : St) (evs : List Ready) : St :=
  { s with
    main := .walking, batch := evs
    armed := s.armed.diff (evs.filterMap Ready.conn)
    pending := s.pending && !evs.contains .listenfd }

/-- The body of the loop over `events`. -/
def walkStep (added : Bool) (s : St) : Option St :=
  match s.batch with
  | [] => none
  | .listenfd :: rest => some { s with main := .accepting, batch := rest }
  | .client c false :: rest => some ({ s with batch := rest }.close c)
  | .client c true :: rest =>
    if added then some { s with batch := rest, queue := s.queue ++ [c] }
    else some { s with batch := rest, lost := c :: s.lost }

/-- The body of the accept loop. -/
def acceptStep (fd : ℕ) (s : St) : Option St :=
  if 0 < s.backlog ∧ fd ∉ s.opened.map Conn.fd then
    some { s with
      main := .registering ⟨fd, s.gens⟩, backlog := s.backlog - 1
      opened := ⟨fd, s.gens⟩ :: s.opened, gens := s.gens + 1 }
  else none

def registerStep (c : Conn) (ok : Bool) (s : St) : St :=
  if ok then { s with main := .accepting, armed := c :: s.armed }
  else { s with main := .accepting, lost := c :: s.lost }

def callStep (i : ℕ) (job : Job) (s : St) : Option St :=
  match job.todo with
  | [] => none
  | .use :: rest => some { s.use job.conn with
      workers := s.workers.set i (some { job with todo := rest }) }
  | .close :: rest => some { s.close job.conn with
      workers := s.workers.set i (some { job with todo := rest, closed := true }) }

def finishStep (i : ℕ) (job : Job) (s : St) : Option St :=
  if job.todo = [] ∧ job.returns = true then
    some { s with
      workers := s.workers.set i none
      lost := if job.closed then s.lost else job.conn :: s.lost }
  else none

def step (s : St) : Act → Option St
  | .arrive => some { s with backlog := s.backlog + 1, pending := true }
  | .epollWait evs => if s.main = .waiting ∧ Reportable s evs then some (report s evs) else none
  | .epollWaitTimeout => if s.main = .waiting then some s else none
  | .epollWaitFails => if s.main = .waiting then some { s with main := .stopped } else none
  | .accept fd => if s.main = .accepting then acceptStep fd s else none
  | .acceptAgain =>
    if s.main = .accepting ∧ s.backlog = 0 then some { s with main := .walking } else none
  | .acceptFails aborted =>
    if s.main = .accepting then
      some { s with main := .walking, backlog := s.backlog - aborted.toNat }
    else none
  | .epollAdd ok =>
    match s.main with
    | .registering c => some (registerStep c ok s)
    | _ => none
  | .walk added => if s.main = .walking then walkStep added s else none
  | .walked =>
    if s.main = .walking ∧ s.batch = [] then some { s with main := .waiting } else none
  | .take i c host fuel w =>
    if c ∈ s.queue ∧ s.workers[i]? = some none then
      some { s with
        queue := s.queue.erase c
        workers := s.workers.set i (some (startJob c (acceptRequest host fuel w))) }
    else none
  | .call i =>
    match s.workers[i]? with
    | some (some job) => callStep i job s
    | _ => none
  | .finish i =>
    match s.workers[i]? with
    | some (some job) => finishStep i job s
    | _ => none
  | .drop c =>
    if s.main = .stopped ∧ c ∈ s.queue then
      some { s with queue := s.queue.erase c, lost := c :: s.lost }
    else none

/-- The states the server can get to. -/
def Reaches (n backlog : ℕ) (s : St) : Prop :=
  ∃ as : List Act, Runs.run step (start n backlog) as = some s

/-- The states it can get to by steps that meet a condition. -/
def ReachesBy (ok : St → Act → Bool) (n backlog : ℕ) (s : St) : Prop :=
  ∃ as : List Act, Runs.run (Runs.restrict ok step) (start n backlog) as = some s

/-! ### Where a connection is -/

/-- The connection `main` has accepted and not registered. -/
def MainPc.conn : MainPc → List Conn
  | .registering c => [c]
  | _ => []

/-- The connections somebody owns: `main`, epoll, the batch, a queued task or a worker. -/
def St.held (s : St) : List Conn :=
  s.main.conn ++ s.armed ++ s.batch.filterMap Ready.conn ++ s.queue ++ s.workers.filterMap heldBy

/-- The connections that have been closed, one entry for every close. -/
def St.closes (s : St) : List Conn := (s.calls.filter Call.close).map Call.conn

end WeatherQuery.ServerModel
