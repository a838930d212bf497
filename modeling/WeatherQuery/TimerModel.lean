import Mathlib.Algebra.Order.Ring.Int
import Mathlib.Logic.Function.Basic

/-!
The timers of `http_load`: `timers.c`.

Timers are kept in doubly linked lists, one for each value of a hash of the time, each sorted by
time. Those not in use are on a list of their own. A timer is known by its address, here a number,
and memory is a function on these; `tmr_run` is taken apart into the steps between which the
procedures of the timers run, and they may call the module again.
-/

namespace WeatherQuery.TimerModel

variable {γ : Type}

/-- `struct timeval`. -/
structure Time where
  sec : ℤ
  usec : ℤ
  deriving DecidableEq, Repr

/-- The order as the tests of the module spell it. -/
def Time.le (a b : Time) : Bool := a.sec < b.sec || (a.sec = b.sec && a.usec ≤ b.usec)

def Time.gt (a b : Time) : Bool := a.sec > b.sec || (a.sec = b.sec && a.usec > b.usec)

/-- In microseconds, as `delta_timeval` takes its difference. -/
def micros (t : Time) : ℤ := t.sec * 1000000 + t.usec

/-- So many milliseconds later. -/
def Time.add (t : Time) (msecs : ℤ) : Time :=
  let sec := t.sec + msecs.tdiv 1000
  let usec := t.usec + msecs.tmod 1000 * 1000
  if usec ≥ 1000000 then ⟨sec + usec.tdiv 1000000, usec.tmod 1000000⟩ else ⟨sec, usec⟩

/-- `Timer`; `client` is the procedure with its data. -/
structure Timer (γ : Type) where
  client : γ
  msecs : ℤ
  periodic : Bool
  time : Time
  prev : Option ℕ
  next : Option ℕ
  hash : ℕ

/-- The static variables, and how many timers `malloc` has given out. -/
structure Timers (γ : Type) where
  cell : ℕ → Timer γ
  timers : ℕ → Option ℕ
  freeTimers : Option ℕ
  allocated : ℕ

def hashSize : ℕ := 67

/-- `hash`. -/
def hashOf (t : Time) : ℕ := ((t.sec % 2 ^ 32).toNat ^^^ (t.usec % 2 ^ 32).toNat) % hashSize

/-! ### Writing -/

def Timers.set (s : Timers γ) (t : ℕ) (f : Timer γ → Timer γ) : Timers γ :=
  { s with cell := Function.update s.cell t (f (s.cell t)) }

def Timers.setNext (s : Timers γ) (t : ℕ) (v : Option ℕ) : Timers γ :=
  s.set t fun c => { c with next := v }

def Timers.setPrev (s : Timers γ) (t : ℕ) (v : Option ℕ) : Timers γ :=
  s.set t fun c => { c with prev := v }

def Timers.setHead (s : Timers γ) (h : ℕ) (v : Option ℕ) : Timers γ :=
  { s with timers := Function.update s.timers h v }

/-! ### Lists -/

/-- The loop of `l_add`: the timer behind which `t` goes and the one before which it goes. -/
def walk (s : Timers γ) (t : ℕ) : ℕ → ℕ → Option ℕ → Option (ℕ × Option ℕ)
  | _, t2prev, none => some (t2prev, none)
  | 0, _, some _ => none
  | fuel + 1, t2prev, some t2 =>
    if (s.cell t).time.le (s.cell t2).time then some (t2prev, some t2)
    else walk s t fuel t2 (s.cell t2).next

/-- `l_add`. No list has more timers than there are. -/
def lAdd (s : Timers γ) (t : ℕ) : Option (Timers γ) :=
  let h := (s.cell t).hash
  match s.timers h with
  | none => some (((s.setHead h (some t)).setPrev t none).setNext t none)
  | some t2 =>
    if (s.cell t).time.le (s.cell t2).time then
      some ((((s.setHead h (some t)).setPrev t none).setNext t (some t2)).setPrev t2 (some t))
    else
      (walk s t s.allocated t2 (s.cell t2).next).map fun
        | (t2prev, some t2) =>
          (((s.setNext t2prev (some t)).setPrev t (some t2prev)).setNext t (some t2)).setPrev t2
            (some t)
        | (t2prev, none) => ((s.setNext t2prev (some t)).setPrev t (some t2prev)).setNext t none

/-- `l_remove`. -/
def lRemove (s : Timers γ) (t : ℕ) : Timers γ :=
  let h := (s.cell t).hash
  let s :=
    match (s.cell t).prev with
    | none => s.setHead h (s.cell t).next
    | some p => s.setNext p (s.cell t).next
  match (s.cell t).next with
  | none => s
  | some n => s.setPrev n (s.cell t).prev

/-- `l_resort`. -/
def lResort (s : Timers γ) (t : ℕ) : Option (Timers γ) :=
  let s := lRemove s t
  let s := s.set t fun c => { c with hash := hashOf c.time }
  lAdd s t

/-! ### Calls -/

/-- The state after `tmr_init`, before any other call. -/
def tmrInit (cell : ℕ → Timer γ) : Timers γ :=
  { cell := cell, timers := fun _ => none, freeTimers := none, allocated := 0 }

/-- Where `tmr_create` takes its memory from; `malloc` may fail. -/
def takeTimer (s : Timers γ) (malloc : Bool) : Option (ℕ × Timers γ) :=
  match s.freeTimers with
  | some t => some (t, { s with freeTimers := (s.cell t).next })
  | none => if malloc then some (s.allocated, { s with allocated := s.allocated + 1 }) else none

/-- The timer that the next `tmr_create` gives, when memory lasts. -/
def nextTimer (s : Timers γ) : ℕ := s.freeTimers.getD s.allocated

/-- `tmr_create`: the timer, `none` for the pointer zero. -/
def tmrCreate (s : Timers γ) (now : Time) (client : γ) (msecs : ℤ) (periodic malloc : Bool) :
    Option (Timers γ × Option ℕ) :=
  match takeTimer s malloc with
  | none => some (s, none)
  | some (t, s) =>
    let s := s.set t fun c =>
      { c with
        client := client, msecs := msecs, periodic := periodic, time := now.add msecs
        hash := hashOf (now.add msecs) }
    (lAdd s t).map fun s => (s, some t)

/-- `tmr_cancel`. -/
def tmrCancel (s : Timers γ) (t : ℕ) : Timers γ :=
  let s := lRemove s t
  ({ s.setNext t s.freeTimers with freeTimers := some t }).setPrev t none

/-- `tmr_reset`. -/
def tmrReset (s : Timers γ) (now : Time) (t : ℕ) : Option (Timers γ) :=
  lResort (s.set t fun c => { c with time := now.add c.msecs }) t

/-- The second half of the loop of `tmr_run`, once the procedure of `t` has returned. -/
def afterProc (s : Timers γ) (t : ℕ) : Option (Timers γ) :=
  if (s.cell t).periodic then
    lResort (s.set t fun c => { c with time := c.time.add c.msecs }) t
  else some (tmrCancel s t)

/-- The milliseconds until a time, in C's division. -/
def msUntil (now t : Time) : ℤ := (t.sec - now.sec) * 1000 + (t.usec - now.usec).tdiv 1000

/-- One turn of the loop of `tmr_mstimeout`. -/
def least (s : Timers γ) (now : Time) (msecs : Option ℤ) (h : ℕ) : Option ℤ :=
  match s.timers h with
  | none => msecs
  | some t =>
    let m := msUntil now (s.cell t).time
    match msecs with
    | none => some m
    | some msecs => some (if m < msecs then m else msecs)

/-- `tmr_mstimeout`; `none` is `INFTIM`. -/
def tmrMstimeout (s : Timers γ) (now : Time) : Option ℤ :=
  ((List.range hashSize).foldl (least s now) none).map fun msecs => if msecs ≤ 0 then 0 else msecs

/-! ### `tmr_run` -/

/-- Where `tmr_run` is: at the head of its inner loop with `t`, or in the procedure of `t` with the
timer behind it in `next`. -/
inductive Pc
  | idle
  | scan (now : Time) (h : ℕ) (t : Option ℕ)
  | inProc (now : Time) (h : ℕ) (t : ℕ) (next : Option ℕ)
  deriving DecidableEq

structure Sys (γ : Type) where
  mem : Timers γ
  pc : Pc

/-- `create`, `cancel` and `reset` are calls from the program, or from the procedure that runs;
`run` calls `tmr_run`, `turn` goes to the next test of its loop, and `ret` is the return of the
procedure, which may have written another time to `*nowP` before: `clock`. -/
inductive Act (γ : Type)
  | create (now : Time) (client : γ) (msecs : ℤ) (periodic malloc : Bool)
  | cancel (t : ℕ)
  | reset (now : Time) (t : ℕ)
  | run (now : Time)
  | turn
  | clock (now : Time)
  | ret

/-- The program is running, not the loop of `tmr_run`. -/
def Pc.outside : Pc → Bool
  | .scan .. => false
  | _ => true

/-- The outer loop goes on with the list `h`. -/
def nextList (s : Timers γ) (now : Time) (h : ℕ) : Pc :=
  if h < hashSize then .scan now h (s.timers h) else .idle

def step (s : Sys γ) : Act γ → Option (Sys γ)
  | .create now client msecs periodic malloc =>
    if s.pc.outside then
      (tmrCreate s.mem now client msecs periodic malloc).map fun r => { s with mem := r.1 }
    else none
  | .cancel t => if s.pc.outside then some { s with mem := tmrCancel s.mem t } else none
  | .reset now t =>
    if s.pc.outside then (tmrReset s.mem now t).map fun m => { s with mem := m } else none
  | .run now =>
    match s.pc with
    | .idle => some { s with pc := nextList s.mem now 0 }
    | _ => none
  | .turn =>
    match s.pc with
    | .scan now h none => some { s with pc := nextList s.mem now (h + 1) }
    | .scan now h (some t) =>
      if (s.mem.cell t).time.gt now then some { s with pc := nextList s.mem now (h + 1) }
      else some { s with pc := .inProc now h t (s.mem.cell t).next }
    | _ => none
  | .clock now =>
    match s.pc with
    | .inProc _ h t next => some { s with pc := .inProc now h t next }
    | _ => none
  | .ret =>
    match s.pc with
    | .inProc now h t next => (afterProc s.mem t).map fun m => ⟨m, .scan now h next⟩
    | _ => none

end WeatherQuery.TimerModel
