import WeatherQuery.LoadModel
import WeatherQuery.TimerModel

/-!
The connections of `http_load`, all of them, over its timers.

`main` keeps a table of connections. It starts them, `select` says which of them can go on, and
`tmr_run` calls the procedures that give up a connection or end its pause. What the system calls
answer is in the actions, and so is the order in which things happen. The calls of `timers.c` go
through a function `tmr`, so that the program can be put on the timers as they are or on timers that
refuse what they do not allow. All of this is for as long as memory lasts: the program does not look
whether `tmr_create` has given it a timer, and here it always has.
-/

namespace WeatherQuery.LoadTable

open WeatherQuery.CText WeatherQuery.LoadModel
open WeatherQuery.TimerModel (Time Timers Timer Sys Pc micros nextTimer)

/-- The procedures given to `tmr_create`, with their data. -/
inductive Client
  | progressReport
  | startTimer
  | endTimer
  | idleConnection (cnum : ℕ)
  | wakeupConnection (cnum : ℕ)
  deriving DecidableEq

/-- `-parallel` or `-rate`; `limit` is how many descriptors there are, and `interval` is
`start_interval`. -/
inductive StartMode
  | parallel (n : ℕ)
  | rate (limit : ℕ) (interval : ℤ) (doJitter : Bool)

/-- `-fetches` or `-seconds`. -/
inductive EndMode
  | fetches (n : ℕ)
  | seconds (n : ℤ)

structure Options extends Config where
  idleSecs : ℤ
  doVerbose : Bool
  start : StartMode
  stop : EndMode

/-- What a `url` keeps of its first fetch; `none` where `got_bytes` or `got_checksum` is zero. -/
structure Seen where
  bytes : Option ℕ
  checksum : Option ℤ
  deriving DecidableEq

/-- The sum, the largest and the smallest of some times. -/
structure Usecs where
  total : ℤ
  max : ℤ
  min : ℤ
  deriving DecidableEq

/-- The statistics. -/
structure Totals where
  numConnections : ℤ
  maxParallel : ℤ
  fetchesStarted : ℕ
  connectsCompleted : ℕ
  responsesCompleted : ℕ
  fetchesCompleted : ℕ
  totalBytes : ℕ
  connectUsecs : Usecs
  responseUsecs : Usecs
  totalTimeouts : ℕ
  totalBadbytes : ℕ
  totalBadchecksums : ℕ
  httpStatusCounts : ℤ → ℕ

structure Load where
  connections : List Connection
  urls : List Seen
  totals : Totals
  timers : Sys Client
  finished : Bool

def Load.setConn (s : Load) (cnum : ℕ) (c : Connection) : Load :=
  { s with connections := s.connections.set cnum c }

/-! ### `close_connection` -/

def Usecs.note (u : Usecs) (d : ℤ) : Usecs := ⟨u.total + d, Max.max u.max d, Min.min u.min d⟩

/-- The counting in `close_connection`. -/
def Totals.close (n : Totals) (c : Connection) : Totals :=
  let n := { n with
    numConnections := n.numConnections - 1
    fetchesCompleted := n.fetchesCompleted + 1
    totalBytes := n.totalBytes + c.bytes }
  let n := if c.didConnect then
      { n with
        connectUsecs := n.connectUsecs.note (c.requestAt - c.connectAt)
        connectsCompleted := n.connectsCompleted + 1 }
    else n
  let n := if c.didResponse then
      { n with
        responseUsecs := n.responseUsecs.note (c.responseAt - c.requestAt)
        responsesCompleted := n.responsesCompleted + 1 }
    else n
  if 0 ≤ c.httpStatus ∧ c.httpStatus ≤ 999 then
    { n with
      httpStatusCounts :=
        Function.update n.httpStatusCounts c.httpStatus (n.httpStatusCounts c.httpStatus + 1) }
  else n

/-- The first fetch of a url says what the others should come to; true where this one does not. -/
def compareUrl (cfg : Config) (u : Seen) (c : Connection) : Seen × Bool :=
  if cfg.doChecksum then
    match u.checksum with
    | none => ({ u with checksum := some c.checksum }, false)
    | some sum => (u, c.checksum ≠ sum)
  else
    match u.bytes with
    | none => ({ u with bytes := some c.bytes }, false)
    | some bytes => (u, c.bytes ≠ bytes)

def Totals.bad (n : Totals) (cfg : Config) : Totals :=
  if cfg.doChecksum then { n with totalBadchecksums := n.totalBadchecksums + 1 }
  else { n with totalBadbytes := n.totalBadbytes + 1 }

/-- The end of `close_connection`, on the url of the connection. -/
def Load.checkUrl (s : Load) (cfg : Config) (c : Connection) : Option Load :=
  s.urls[c.urlNum]?.map fun u =>
    { s with
      urls := s.urls.set c.urlNum (compareUrl cfg u c).1
      totals := if (compareUrl cfg u c).2 then s.totals.bad cfg else s.totals }

section Program

variable (tmr : Sys Client → TimerModel.Act Client → Option (Sys Client)) (opt : Options)

def timerCall (s : Load) (act : TimerModel.Act Client) : Option Load :=
  (tmr s.timers act).map fun timers => { s with timers := timers }

/-- `tmr_cancel`, where the pointer is not zero. -/
def cancelSet (s : Load) : Option ℕ → Option Load
  | none => some s
  | some t => timerCall tmr s (.cancel t)

/-- `close_connection`. -/
def closeConnection (s : Load) (cnum : ℕ) : Option Load := do
  let c ← s.connections[cnum]?
  let s := s.setConn cnum { c with connState := .free }
  let s ← cancelSet tmr s c.idleTimer
  let s ← cancelSet tmr s c.wakeupTimer
  { s with totals := s.totals.close c }.checkUrl opt.toConfig c

/-! ### The life of a connection -/

/-- `tmr_create` with a procedure that is called once, while memory lasts. -/
def createOnce (s : Load) (now : Time) (client : Client) (msecs : ℤ) : Option Load :=
  timerCall tmr s (.create now client msecs false true)

/-- `handle_connect` behind its first test; `wrote` says whether `write` took the request. -/
def sendRequest (s : Load) (cnum : ℕ) (now : Time) (wrote : Bool) : Option Load := do
  let c ← s.connections[cnum]?
  let c := { c with didConnect := true, requestAt := micros now }
  if wrote then
    s.setConn cnum { c with connState := .headers, headerState := .line1Protocol }
  else closeConnection tmr opt (s.setConn cnum c) cnum

/-- What came of a connect that was under way. -/
inductive Connected
  | failed
  | sent (wrote : Bool)

/-- `handle_connect`. -/
def handleConnect (s : Load) (cnum : ℕ) (now : Time) : Connected → Option Load
  | .failed => closeConnection tmr opt s cnum
  | .sent wrote => sendRequest tmr opt s cnum now wrote

/-- What `start_socket` comes to: `noSocket` stands for an error before `connect`, `refused` for one
of `connect`; `instant` is a connect that succeeds at once, with the time it was then. -/
inductive Started
  | noSocket
  | refused
  | inProgress
  | instant (now : Time) (wrote : Bool)

/-- `gettimeofday` in `start_socket`. In the procedure of a timer, the time it writes to is the one
that `tmr_run` goes on with. -/
def readClock (s : Load) (now : Time) : Option Load :=
  match s.timers.pc with
  | .inProc .. => timerCall tmr s (.clock now)
  | _ => some s

/-- `start_socket`. -/
def startSocket (s : Load) (urlNum cnum : ℕ) (now : Time) (out : Started) : Option Load := do
  let c ← s.connections[cnum]?
  let idle := nextTimer s.timers.mem
  let s ← createOnce tmr s now (.idleConnection cnum) (opt.idleSecs * 1000)
  let c := { c with
    urlNum := urlNum, startedAt := micros now, didConnect := false, didResponse := false
    idleTimer := some idle, wakeupTimer := none, contentLength := -1, bytes := 0, checksum := 0
    httpStatus := -1 }
  match out with
  | .noSocket => s.setConn cnum c
  | .refused => s.setConn cnum { c with connectAt := micros now }
  | .inProgress => s.setConn cnum { c with connectAt := micros now, connState := .connecting }
  | .instant now' wrote => do
    let s ← readClock tmr (s.setConn cnum { c with connectAt := micros now }) now'
    sendRequest tmr opt s cnum now' wrote

/-- A connection that is not free, as `start_connection` counts it. -/
def Totals.up (n : Totals) : Totals :=
  { n with
    numConnections := n.numConnections + 1
    maxParallel := Max.max (n.numConnections + 1) n.maxParallel }

/-- `start_connection`, with the url that `random` gives; without a free slot the program is at its
end. -/
def startConnection (s : Load) (urlNum : ℕ) (now : Time) (out : Started) : Option Load :=
  match s.connections.findIdx? (·.connState = .free) with
  | none => some { s with finished := true }
  | some cnum =>
    if urlNum < s.urls.length then do
      let s ← startSocket tmr opt s urlNum cnum now out
      let c ← s.connections[cnum]?
      let n := if c.connState = .free then s.totals else s.totals.up
      some { s with totals := { n with fetchesStarted := n.fetchesStarted + 1 } }
    else none

/-- The timer that `handle_read` makes for a connection that is to pause. -/
def pauseTimer (s : Load) (cnum : ℕ) (now : Time) (r : Connection) : Option Load :=
  if r.connState = .pausing then createOnce tmr s now (.wakeupConnection cnum) 1000 else some s

/-- `handle_read`, on the bytes that `read` gave. -/
def readConnection (s : Load) (cnum : ℕ) (now : Time) (bytes : Bytes) : Option Load := do
  let c ← s.connections[cnum]?
  let idle ← c.idleTimer
  let s ← timerCall tmr s (.reset now idle)
  let r ← handleRead opt.toConfig (micros now) (nextTimer s.timers.mem) c bytes
  let s ← pauseTimer tmr (s.setConn cnum r.1) cnum now r.1
  if r.2 then closeConnection tmr opt s cnum else some s

/-- `idle_connection`. -/
def idleConnection (s : Load) (cnum : ℕ) : Option Load := do
  let c ← s.connections[cnum]?
  let s ← closeConnection tmr opt (s.setConn cnum { c with idleTimer := none }) cnum
  some { s with totals := { s.totals with totalTimeouts := s.totals.totalTimeouts + 1 } }

/-- `wakeup_connection`. -/
def wakeupConnection (s : Load) (cnum : ℕ) : Option Load :=
  s.connections[cnum]?.map fun c => s.setConn cnum (LoadModel.wakeupConnection c)

/-! ### The program -/

/-- What a start meets with: the url `random` chooses, what comes of the socket, and the next delay
that `random` chooses where there is jitter. -/
structure Chance where
  urlNum : ℕ
  out : Started
  delay : ℤ

/-- The time when a start returns. -/
def Started.time (now : Time) : Started → Time
  | .instant now' _ => now'
  | _ => now

/-- `start_timer`. -/
def startTimer (s : Load) (now : Time) (x : Chance) : Option Load := do
  let s ← startConnection tmr opt s x.urlNum now x.out
  match opt.start with
  | .rate _ _ true =>
    if s.finished then some s
    else createOnce tmr s (x.out.time now) .startTimer x.delay
  | _ => some s

/-- The procedure of a timer. -/
def callProc (s : Load) (now : Time) (x : Chance) : Client → Option Load
  | .progressReport => some s
  | .startTimer => startTimer tmr opt s now x
  | .endTimer => some { s with finished := true }
  | .idleConnection cnum => idleConnection tmr opt s cnum
  | .wakeupConnection cnum => wakeupConnection s cnum

/-- `start` and `connect`, `read` are what the main loop does with the answer of `select`; `run` and
`turn` are `tmr_run` up to the call of a procedure, `fire` is that call, and `finish` the test at
the head of the main loop. -/
inductive Act
  | start (now : Time) (x : Chance)
  | connect (cnum : ℕ) (now : Time) (out : Connected)
  | read (cnum : ℕ) (now : Time) (bytes : Bytes)
  | run (now : Time)
  | turn
  | fire (x : Chance)
  | finish

/-- The main loop starts one more connection. -/
def wantsMore (s : Load) : Bool :=
  match opt.start with
  | .parallel n =>
    s.totals.numConnections < n &&
      match opt.stop with
      | .fetches m => s.totals.fetchesStarted < m
      | .seconds _ => true
  | .rate .. => false

def stateOf (s : Load) (cnum : ℕ) : Option ConnState := s.connections[cnum]?.map (·.connState)

/-- The actions of the program while it has not come to its end. -/
def act (s : Load) : Act → Option Load
  | .start now x =>
    if s.timers.pc = .idle ∧ wantsMore opt s then startConnection tmr opt s x.urlNum now x.out
    else none
  | .connect cnum now out =>
    if s.timers.pc = .idle ∧ stateOf s cnum = some .connecting then
      handleConnect tmr opt s cnum now out
    else none
  | .read cnum now bytes =>
    if s.timers.pc = .idle ∧ (stateOf s cnum = some .headers ∨ stateOf s cnum = some .reading) then
      readConnection tmr opt s cnum now bytes
    else none
  | .run now => timerCall tmr s (.run now)
  | .turn => timerCall tmr s .turn
  | .fire x =>
    match s.timers.pc with
    | .inProc now _ t _ => do
      let s ← callProc tmr opt s now x (s.timers.mem.cell t).client
      if s.finished then some s else timerCall tmr s .ret
    | _ => none
  | .finish =>
    match opt.stop with
    | .fetches m =>
      if s.timers.pc = .idle ∧ m ≤ s.totals.fetchesCompleted then some { s with finished := true }
      else none
    | .seconds _ => none

def step (s : Load) (a : Act) : Option Load := if s.finished then none else act tmr opt s a

end Program

/-! ### The beginning -/

/-- The statistics before the main loop. -/
def noTotals : Totals :=
  { numConnections := 0, maxParallel := 0, fetchesStarted := 0, connectsCompleted := 0
    responsesCompleted := 0, fetchesCompleted := 0, totalBytes := 0
    connectUsecs := ⟨0, 0, 1000000000⟩, responseUsecs := ⟨0, 0, 1000000000⟩, totalTimeouts := 0
    totalBadbytes := 0, totalBadchecksums := 0, httpStatusCounts := fun _ => 0 }

def maxConnections (opt : Options) : ℕ :=
  match opt.start with
  | .parallel n => n
  | .rate limit _ _ => limit

/-- What is in memory before it is written to. -/
structure Memory where
  connection : ℕ → Connection
  cell : ℕ → Timer Client

/-- The timers `main` sets: client, delay and whether it is periodic. -/
def mainTimers (opt : Options) : List (Client × ℤ × Bool) :=
  (if opt.doVerbose then [(.progressReport, 60 * 1000, true)] else []) ++
    (match opt.start with
      | .parallel _ => []
      | .rate _ interval doJitter => [(.startTimer, interval, !doJitter)]) ++
    match opt.stop with
    | .fetches _ => []
    | .seconds n => [(.endTimer, n * 1000, false)]

/-- `tmr_create` for each of them, while memory lasts. -/
def createAll (now : Time) (m : Timers Client) : List (Client × ℤ × Bool) → Option (Timers Client)
  | [] => some m
  | (client, msecs, periodic) :: rest => do
    let r ← TimerModel.tmrCreate m now client msecs periodic true
    createAll now r.1 rest

/-- The table of connections before any is started. -/
def freeTable (opt : Options) (memory : Memory) : List Connection :=
  (List.range (maxConnections opt)).map fun cnum =>
    { memory.connection cnum with connState := .free }

/-- `main` up to its loop, with as many urls as were read. -/
def prepare (opt : Options) (numUrls : ℕ) (memory : Memory) (now : Time) : Option Load :=
  (createAll now (TimerModel.tmrInit memory.cell) (mainTimers opt)).map fun m =>
    { connections := freeTable opt memory
      urls := List.replicate numUrls ⟨none, none⟩
      totals := noTotals
      timers := ⟨m, .idle⟩
      finished := false }

end WeatherQuery.LoadTable
