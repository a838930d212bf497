import WeatherQuery.LoadActs
import WeatherQuery.Runs

/-!
The books of `http_load`.

`num_connections` should be the number of connections that are open, and `fetches_started` should
count these and the fetches that are done. Both hold along a run exactly when every connection that
is started comes up. A start that fails has counted itself and left its timer behind; when the timer
runs out it closes whatever connection is in the slot by then.

A program that throttles has to have a patience of a second or more. With none at all the idle timer
of a connection that pauses is the earlier one, and its procedure cancels the timer that `tmr_run`
goes on with.
-/

namespace WeatherQuery.LoadBooks

open WeatherQuery.CText WeatherQuery.LoadModel WeatherQuery.LoadTable WeatherQuery.LoadSlots
open WeatherQuery.LoadSteps WeatherQuery.LoadActs
open WeatherQuery.LoadRead (readable)
open WeatherQuery.TimerModel (Time Timers Sys Pc nextTimer)
open WeatherQuery.TimerLists (Entry)
open WeatherQuery.TimerRun (safe view listed)
open WeatherQuery.TimerCalls

/-! ### The books -/

def openCount (conns : List Connection) : ℕ := conns.countP (·.connState ≠ .free)

def Books (s : Load) : Prop :=
  s.totals.numConnections = openCount s.connections ∧
    s.totals.fetchesStarted = s.totals.fetchesCompleted + openCount s.connections

section Books

variable {opt : Options} {s s' : Load} {cnum : ℕ} {c c' d : Connection}

lemma openCount_same {conns : List Connection} (hc : conns[cnum]? = some c)
    (h : c'.connState = .free ↔ c.connState = .free) :
    openCount (conns.set cnum c') = openCount conns := by
  obtain ⟨k, hk, hset⟩ := Slots.countP_set (fun c : Connection => decide (c.connState ≠ .free)) hc
  unfold openCount
  rw [hset, hk]
  simp [h]

lemma openCount_open {conns : List Connection} (hc : conns[cnum]? = some c)
    (hfree : c.connState = .free) (hopen : c'.connState ≠ .free) :
    openCount (conns.set cnum c') = openCount conns + 1 := by
  obtain ⟨k, hk, hset⟩ := Slots.countP_set (fun c : Connection => decide (c.connState ≠ .free)) hc
  unfold openCount
  rw [hset, hk]
  simp [hfree, hopen, Nat.add_comm]

lemma openCount_close {conns : List Connection} (hc : conns[cnum]? = some c)
    (hopen : c.connState ≠ .free) (hfree : c'.connState = .free) :
    openCount conns = openCount (conns.set cnum c') + 1 := by
  obtain ⟨k, hk, hset⟩ := Slots.countP_set (fun c : Connection => decide (c.connState ≠ .free)) hc
  unfold openCount
  rw [hset, hk]
  simp [hfree, hopen, Nat.add_comm]

lemma closed_totals (opt : Options) (s : Load) (cnum : ℕ) (c : Connection) (u : Seen)
    (timers : Sys Client) :
    (Load.closed opt s cnum c u timers).totals.numConnections = s.totals.numConnections - 1 ∧
      (Load.closed opt s cnum c u timers).totals.fetchesStarted = s.totals.fetchesStarted ∧
      (Load.closed opt s cnum c u timers).totals.fetchesCompleted =
        s.totals.fetchesCompleted + 1 ∧
      (Load.closed opt s cnum c u timers).totals.maxParallel = s.totals.maxParallel := by
  unfold Load.closed Totals.bad Totals.close
  dsimp only
  split_ifs <;> exact ⟨rfl, rfl, rfl, rfl⟩

lemma Books.closed (hb : Books s) (hc : s.connections[cnum]? = some c) (hopen : c.connState ≠ .free)
    (u : Seen) (timers : Sys Client) : Books (Load.closed opt s cnum d u timers) := by
  obtain ⟨hnum, hstarted⟩ := hb
  obtain ⟨h₁, h₂, h₃, -⟩ := closed_totals opt s cnum d u timers
  have hcount : openCount s.connections =
      openCount (Load.closed opt s cnum d u timers).connections + 1 := openCount_close hc hopen rfl
  unfold Books
  rw [h₁, h₂, h₃, hnum, hstarted, hcount]
  omega

lemma Books.same (hb : Books s) (hc : s.connections[cnum]? = some c)
    (h : c'.connState = .free ↔ c.connState = .free) (timers : Sys Client) :
    Books { s.setConn cnum c' with timers := timers } := by
  unfold Books
  rw [show ({ s.setConn cnum c' with timers := timers } : Load).connections =
    s.connections.set cnum c' from rfl, openCount_same hc h]
  exact hb

lemma startedRecord_open {urlNum t : ℕ} {now : Time} {out : Started} :
    (startedRecord c urlNum now t out).connState ≠ .free := by
  cases out <;> simp [startedRecord, sentRecord]

lemma Books.started (hb : Books s) (hc : s.connections[cnum]? = some c)
    (hfree : c.connState = .free) (hopen : c'.connState ≠ .free) (timers : Sys Client) :
    Books (Load.started s cnum c' timers) := by
  obtain ⟨hnum, hstarted⟩ := hb
  unfold Books Load.started
  dsimp only
  rw [openCount_open hc hfree hopen]
  simp only [Totals.up, hnum, hstarted]
  omega

lemma open_of_readable (h : readable c = true) : c.connState ≠ .free := by
  intro hfree
  simp [readable, hfree] at h

lemma effect_books {a : Act} (h : Effect opt s a s') (hb : Books s) : Books s' := by
  cases h with
  | quiet timers ha => exact hb
  | ended ha hwhy => exact hb
  | started timers ha hc hfree hmay hup hurl => exact hb.started hc hfree startedRecord_open timers
  | sent hc hstate =>
    exact hb.same hc (by simp [hstate, sentRecord]) s.timers
  | dropped timers hc hstate hd hu => exact hb.closed hc (by simp [hstate]) _ timers
  | read timers hc hread hr hopen =>
    exact hb.same hc (by simp [hopen, open_of_readable hread]) timers
  | readLast timers hc hread hr hu => exact hb.closed hc (open_of_readable hread) _ timers
  | woke timers hc hopen hwake =>
    exact hb.same hc (by simp [hopen, LoadModel.wakeupConnection]) timers
  | idle timers hc hopen hu => exact hb.closed hc hopen _ timers

/-! ### A start that fails -/

lemma timerCall_inv {tmr : Tmr} {act : TimerModel.Act Client} (h : timerCall tmr s act = some s') :
    ∃ timers, s' = { s with timers := timers } := by
  obtain ⟨timers, -, rfl⟩ := Option.map_eq_some_iff.mp h
  exact ⟨timers, rfl⟩

lemma cancelSet_inv {tmr : Tmr} {o : Option ℕ} (h : cancelSet tmr s o = some s') :
    ∃ timers, s' = { s with timers := timers } := by
  rcases o with _ | t
  · obtain rfl := Option.some.inj h
    exact ⟨s.timers, rfl⟩
  · exact timerCall_inv h

lemma readClock_inv {tmr : Tmr} {now : Time} (h : readClock tmr s now = some s') :
    ∃ timers, s' = { s with timers := timers } := by
  unfold readClock at h
  split at h
  · exact timerCall_inv h
  · obtain rfl := Option.some.inj h
    exact ⟨s.timers, rfl⟩

lemma closeConnection_inv {tmr : Tmr} (hc : s.connections[cnum]? = some c)
    (h : closeConnection tmr opt s cnum = some s') :
    ∃ u timers, s' = Load.closed opt s cnum c u timers := by
  simp only [closeConnection, Option.bind_eq_bind, hc, Option.bind_some] at h
  obtain ⟨s₁, h₁, h⟩ := Option.bind_eq_some_iff.mp h
  obtain ⟨s₂, h₂, h⟩ := Option.bind_eq_some_iff.mp h
  obtain ⟨timers₁, rfl⟩ := cancelSet_inv h₁
  obtain ⟨timers₂, rfl⟩ := cancelSet_inv h₂
  obtain ⟨u, -, rfl⟩ := Option.map_eq_some_iff.mp h
  exact ⟨u, timers₂, rfl⟩

/-- Only the connection that is closed matters, not what was in its slot. -/
lemma closed_over {u : Seen} {timers : Sys Client} (c d : Connection) (tm : Sys Client) :
    Load.closed opt { s with connections := s.connections.set cnum d, timers := tm } cnum c u
      timers = Load.closed opt s cnum c u timers := by
  simp [Load.closed]

/-- A start that does not come up leaves the slot free: the connection was never there, or it was
there and is closed again. -/
lemma startSocket_failed {tmr : Tmr} {urlNum : ℕ} {now : Time} {out : Started} (hout : ¬ up out)
    (hc : s.connections[cnum]? = some c) (hfree : c.connState = .free)
    (h : startSocket tmr opt s urlNum cnum now out = some s') :
    (∃ d timers, d.connState = .free ∧ s' = ({ s with timers := timers } : Load).setConn cnum d) ∨
      ∃ d u timers, s' = Load.closed opt s cnum d u timers := by
  have hget : ∀ d, (s.connections.set cnum d)[cnum]? = some d := getElem_setConn hc
  simp only [startSocket, Option.bind_eq_bind, hc, Option.bind_some, createOnce] at h
  obtain ⟨s₁, hcall, h⟩ := Option.bind_eq_some_iff.mp h
  obtain ⟨timers, rfl⟩ := timerCall_inv hcall
  rcases out with _ | _ | _ | ⟨now', wrote⟩
  · refine .inl ⟨_, timers, ?_, (Option.some.inj h).symm⟩
    exact hfree
  · refine .inl ⟨_, timers, ?_, (Option.some.inj h).symm⟩
    exact hfree
  · exact absurd trivial hout
  · obtain rfl : wrote = false := by simpa [up] using hout
    obtain ⟨s₂, hclock, h⟩ := Option.bind_eq_some_iff.mp h
    obtain ⟨timers₂, rfl⟩ := readClock_inv hclock
    simp only [sendRequest, Load.setConn, Option.bind_eq_bind, hget, Option.bind_some,
      Bool.false_eq_true, if_false, List.set_set] at h
    obtain ⟨u, timers', rfl⟩ := closeConnection_inv (hget _) h
    exact .inr ⟨_, u, timers', closed_over _ _ _⟩

lemma startConnection_inv {tmr : Tmr} {urlNum : ℕ} {now : Time} {out : Started}
    (hfind : s.connections.findIdx? (·.connState = .free) = some cnum)
    (h : startConnection tmr opt s urlNum now out = some s') :
    ∃ s₁ d, startSocket tmr opt s urlNum cnum now out = some s₁ ∧ s₁.connections[cnum]? = some d ∧
      s' = { s₁ with
        totals :=
          { (if d.connState = .free then s₁.totals else s₁.totals.up) with
            fetchesStarted :=
              (if d.connState = .free then s₁.totals else s₁.totals.up).fetchesStarted + 1 } } := by
  simp only [startConnection, hfind, Option.ite_none_right_eq_some, Option.bind_eq_bind] at h
  obtain ⟨s₁, h₁, h⟩ := Option.bind_eq_some_iff.mp h.2
  obtain ⟨d, hd, h⟩ := Option.bind_eq_some_iff.mp h
  exact ⟨s₁, d, h₁, hd, (Option.some.inj h).symm⟩

/-- The books after a start that does not come up: a fetch is counted that is neither open nor done,
or a connection is counted out that was never counted in. -/
lemma not_books_of_failed {tmr : Tmr} {urlNum : ℕ} {now : Time} {out : Started} (hb : Books s)
    (hfree : hasFree s = true) (hout : ¬ up out)
    (h : startConnection tmr opt s urlNum now out = some s') : ¬ Books s' := by
  rcases hfind : s.connections.findIdx? (·.connState = .free) with _ | cnum
  · simp [hasFree, hfind] at hfree
  obtain ⟨c, hc, hcfree⟩ := free_of_findIdx? hfind
  have hget : ∀ d, (s.connections.set cnum d)[cnum]? = some d := getElem_setConn hc
  obtain ⟨s₁, d, h₁, hd, rfl⟩ := startConnection_inv hfind h
  obtain ⟨hnum, hstarted⟩ := hb
  have hcount : ∀ e : Connection, e.connState = .free →
      openCount (s.connections.set cnum e) = openCount s.connections := fun e he =>
    openCount_same hc (by simp [he, hcfree])
  rcases startSocket_failed hout hc hcfree h₁ with ⟨e, timers, he, rfl⟩ | ⟨e, u, timers, rfl⟩
  · obtain rfl : e = d := Option.some.inj ((hget e).symm.trans hd)
    rintro ⟨-, hstarted'⟩
    simp only [Load.setConn, if_pos he, hcount e he, hstarted] at hstarted'
    omega
  · obtain rfl : ({ e with connState := .free } : Connection) = d :=
      Option.some.inj ((hget _).symm.trans hd)
    rintro ⟨hnum', -⟩
    have htotals := (closed_totals opt s cnum e u timers).1
    have hsame : openCount (Load.closed opt s cnum e u timers).connections =
        openCount s.connections := hcount _ rfl
    simp only [if_true, htotals, hsame, hnum] at hnum'
    omega

lemma not_books_of_act {a : Act} (hb : Books s) (hup : ¬ CameUp s a)
    (h : act TimerModel.step opt s a = some s') : ¬ Books s' := by
  unfold CameUp at hup
  push Not at hup
  obtain ⟨out, hout, hnot⟩ := hup
  cases a with
  | start now x =>
    simp only [startOf, Option.mem_def, Option.ite_none_right_eq_some, Option.some.injEq] at hout
    obtain ⟨hfree, rfl⟩ := hout
    simp only [act, Option.ite_none_right_eq_some] at h
    exact not_books_of_failed hb hfree hnot h.2
  | fire x =>
    simp only [startOf, Option.mem_def, Option.ite_none_right_eq_some, Option.some.injEq] at hout
    obtain ⟨⟨hrun, hfree⟩, rfl⟩ := hout
    rcases hc : s.timers.pc with _ | ⟨now, k, p⟩ | ⟨now, k, t, next⟩
    · simp [running, hc] at hrun
    · simp [running, hc] at hrun
    rw [running_eq hc, Option.some.injEq] at hrun
    simp only [act, hc, Option.bind_eq_bind, hrun, callProc, startTimer] at h
    obtain ⟨s₂, h₂, h⟩ := Option.bind_eq_some_iff.mp h
    obtain ⟨s₁, h₁, h₂⟩ := Option.bind_eq_some_iff.mp h₂
    have hb₁ := not_books_of_failed hb hfree hnot h₁
    -- what follows only goes to the timers
    have hsame : ∀ {s₁ s₂ : Load}, (∃ timers, s₂ = { s₁ with timers := timers }) → ¬ Books s₁ →
        ¬ Books s₂ := by
      rintro s₁ _ ⟨timers, rfl⟩ h
      exact h
    have hb₂ : ¬ Books s₂ := by
      refine hsame ?_ hb₁
      rcases hmode : opt.start with n | ⟨limit, interval, _ | _⟩
      · exact ⟨s₁.timers, by simpa [hmode] using h₂.symm⟩
      · exact ⟨s₁.timers, by simpa [hmode] using h₂.symm⟩
      · simp only [hmode] at h₂
        split_ifs at h₂
        · exact ⟨s₁.timers, (Option.some.inj h₂).symm⟩
        · exact timerCall_inv h₂
    refine hsame ?_ hb₂
    split_ifs at h
    · exact ⟨s₂.timers, (Option.some.inj h).symm⟩
    · exact timerCall_inv h
  | _ => simp [startOf] at hout

end Books

/-! ### The timer of a start that fails -/

section Left

variable {opt : Options} {s s' : Load} {bs : ℕ → List ℕ} {cnum : ℕ} {c : Connection}

/-- A start that fails before there is a connection leaves its timer set and the slot free. -/
lemma timer_left (hheld : Held s.timers bs) (hout : s.timers.pc.outside = true)
    (hfind : s.connections.findIdx? (·.connState = .free) = some cnum) {urlNum : ℕ}
    (hurl : urlNum < s.urls.length) (now : Time) {out : Started}
    (hfail : out = .noSocket ∨ out = .refused) :
    ∃ s' d, startConnection TimerModel.step opt s urlNum now out = some s' ∧
      s'.connections[cnum]? = some d ∧ d.connState = .free ∧
      listed s'.timers.mem (nextTimer s.timers.mem) = true ∧
      (s'.timers.mem.cell (nextTimer s.timers.mem)).client = .idleConnection cnum := by
  obtain ⟨c, hc, hfree⟩ := free_of_findIdx? hfind
  obtain ⟨timers, bs', hcall, -⟩ :=
    hheld.create hout now (.idleConnection cnum) (opt.idleSecs * 1000) false
  have hcreate := call_gives hcall _ (fun _ _ _ _ h => h : Allows TimerModel.step)
  beta_reduce at hcreate
  have hget : ∀ d, (s.connections.set cnum d)[cnum]? = some d := getElem_setConn hc
  have hset : view timers.mem bs' (nextTimer s.timers.mem) =
      some ⟨.idleConnection cnum, opt.idleSecs * 1000, false, now.add (opt.idleSecs * 1000)⟩ := by
    rw [hcall.view, Function.update_self]
  have hclient : (timers.mem.cell (nextTimer s.timers.mem)).client = .idleConnection cnum :=
    congrArg Entry.client (view_eq_some.mp hset).2
  have hslot : ∀ d : Connection, d.connState = .free →
      startSocket TimerModel.step opt s urlNum cnum now out =
        some (({ s with timers := timers } : Load).setConn cnum d) →
      ∃ s' d, startConnection TimerModel.step opt s urlNum now out = some s' ∧
        s'.connections[cnum]? = some d ∧ d.connState = .free ∧
        listed s'.timers.mem (nextTimer s.timers.mem) = true ∧
        (s'.timers.mem.cell (nextTimer s.timers.mem)).client = .idleConnection cnum := by
    intro d hd hsocket
    refine ⟨{ s with
      connections := s.connections.set cnum d
      totals := { s.totals with fetchesStarted := s.totals.fetchesStarted + 1 }
      timers := timers }, d, ?_, hget d, hd, hcall.held.listed hset, hclient⟩
    simp only [startConnection, hfind, if_pos hurl, hsocket, Option.bind_eq_bind, Option.bind_some,
      Load.setConn, hget, if_pos hd]
  rcases hfail with rfl | rfl
  · refine hslot { startRecord c urlNum now (nextTimer s.timers.mem) with
      connectAt := c.connectAt } hfree ?_
    simp only [startSocket, Option.bind_eq_bind, hc, Option.bind_some, createOnce, hcreate,
      startRecord]
  · refine hslot (startRecord c urlNum now (nextTimer s.timers.mem)) hfree ?_
    simp only [startSocket, Option.bind_eq_bind, hc, Option.bind_some, createOnce, hcreate,
      startRecord]

/-- The procedure of such a timer closes what is in the slot by then, and counts it as a fetch that
is done and has run out of time. It does not look whose timer it is. -/
lemma idle_closes {tmr : Tmr} {now : Time} {k t : ℕ} {next : Option ℕ} {x : Chance}
    (hpc : s.timers.pc = .inProc now k t next)
    (hclient : (s.timers.mem.cell t).client = .idleConnection cnum)
    (hc : s.connections[cnum]? = some c) (h : act tmr opt s (.fire x) = some s') :
    stateOf s' cnum = some .free ∧
      s'.totals.fetchesCompleted = s.totals.fetchesCompleted + 1 ∧
      s'.totals.totalTimeouts = s.totals.totalTimeouts + 1 := by
  simp only [act, hpc, hclient, callProc, idleConnection, Option.bind_eq_bind, hc,
    Option.bind_some] at h
  obtain ⟨s₁, h₁, h⟩ := Option.bind_eq_some_iff.mp h
  obtain ⟨s₂, h₂, hs₁⟩ := Option.bind_eq_some_iff.mp h₁
  obtain ⟨u, timers, rfl⟩ := closeConnection_inv (getElem_setConn hc _) h₂
  rw [closed_setConn] at hs₁
  obtain rfl := Option.some.inj hs₁
  obtain ⟨timers', rfl⟩ : ∃ timers', s' =
      { Load.timedOut (Load.closed opt s cnum { c with idleTimer := none } u timers) with
        timers := timers' } := by
    split_ifs at h
    · exact ⟨_, (Option.some.inj h).symm⟩
    · exact timerCall_inv h
  obtain ⟨-, -, hdone, -⟩ := closed_totals opt s cnum { c with idleTimer := none } u timers
  have hlate : (Load.closed opt s cnum { c with idleTimer := none } u timers).totals.totalTimeouts =
      s.totals.totalTimeouts := by
    unfold Load.closed Totals.bad Totals.close
    dsimp only
    split_ifs <;> rfl
  refine ⟨?_, hdone, congrArg (· + 1) hlate⟩
  simp [stateOf, Load.timedOut, Load.closed, (List.getElem?_eq_some_iff.mp hc).1]

end Left

/-! ### The beginning -/

section Prepare

variable {opt : Options}

/-- A procedure that `main` sets a timer for. -/
def OfMain (opt : Options) (client : Client) : Prop :=
  Apart client ∧ ∀ e : Entry Client, e.client = client → Made opt e

/-- The timers of `main` are set. -/
lemma createAll_held (now : Time) {l : List (Client × ℤ × Bool)} (hl : ∀ x ∈ l, OfMain opt x.1)
    {m : Timers Client} {bs : ℕ → List ℕ} (hheld : Held ⟨m, .idle⟩ bs)
    (hclient : ∀ t e, view m bs t = some e → OfMain opt e.client) :
    ∃ m' bs', createAll now m l = some m' ∧ Held ⟨m', .idle⟩ bs' ∧
      ∀ t e, view m' bs' t = some e → OfMain opt e.client := by
  induction l generalizing m bs with
  | nil => exact ⟨m, bs, rfl, hheld, hclient⟩
  | cons x l ih =>
    obtain ⟨client, msecs, periodic⟩ := x
    obtain ⟨hx, hl⟩ := List.forall_mem_cons.mp hl
    obtain ⟨c', bs₁, hcall, hpc, -, -⟩ := hheld.create rfl now client msecs periodic
    have hstep := hcall.step
    simp only [TimerModel.step, Pc.outside, if_true] at hstep
    obtain ⟨r, hr, rfl⟩ := Option.map_eq_some_iff.mp hstep
    obtain ⟨m', bs', hall, hheld', hclient'⟩ := ih hl hcall.held fun t e he => by
      rw [hcall.view] at he
      by_cases ht : t = nextTimer m
      · subst ht
        rw [Function.update_self, Option.some.injEq] at he
        subst he
        exact hx
      · rw [Function.update_of_ne ht] at he
        exact hclient t e he
    refine ⟨m', bs', ?_, hheld', hclient'⟩
    simp only [createAll, Option.bind_eq_bind, hr, Option.bind_some, hall]

lemma apart_end : Apart .endTimer := fun _ _ _ => ⟨by simp, by simp⟩

lemma mainTimers_ofMain (opt : Options) : ∀ x ∈ mainTimers opt, OfMain opt x.1 := by
  intro x hx
  simp only [mainTimers, List.mem_append] at hx
  rcases hx with (hx | hx) | hx
  · split_ifs at hx
    · obtain rfl := List.mem_singleton.mp hx
      exact ⟨apart_progress, fun e he => by simp only [Made, he]⟩
    · cases hx
  · split at hx
    · cases hx
    · rename_i limit interval doJitter hstart
      obtain rfl := List.mem_singleton.mp hx
      refine ⟨apart_start, fun e he => ?_⟩
      simp only [Made, he]
      exact ⟨limit, interval, doJitter, hstart⟩
  · split at hx
    · cases hx
    · rename_i n hstop
      obtain rfl := List.mem_singleton.mp hx
      refine ⟨apart_end, fun e he => ?_⟩
      simp only [Made, he]
      exact ⟨n, hstop⟩

lemma mem_freeTable {memory : Memory} {c : Connection} (hc : c ∈ freeTable opt memory) :
    c.connState = .free := by
  obtain ⟨n, -, rfl⟩ := List.mem_map.mp hc
  rfl

lemma own_freeTable (memory : Memory) (f : Connection → Option ℕ) (n : ℕ) :
    own f (freeTable opt memory) n = none := by
  rcases hn : (freeTable opt memory)[n]? with _ | c
  · simp only [own, hn, Option.bind_none]
  · have hfree := mem_freeTable (List.mem_of_getElem? hn)
    simp only [own, hn, Option.bind_some, timerOf, if_pos hfree]

/-- The table is free and no timer names a connection. -/
lemma prepare_good (opt : Options) (numUrls : ℕ) (memory : Memory) (now : Time) :
    ∃ s bs, prepare opt numUrls memory now = some s ∧ Good opt s bs ∧ Books s := by
  have hinit : ∀ t e, view (TimerModel.tmrInit memory.cell) (fun _ => []) t = some e →
      OfMain opt e.client := by
    intro t e he
    simp [view, TimerLists.actives] at he
  have hstart : Held ⟨TimerModel.tmrInit memory.cell, .idle⟩ fun _ => [] :=
    ⟨⟨[], TimerRun.inv_init memory.cell⟩, trivial⟩
  obtain ⟨m, bs, hall, hheld, hclient⟩ := createAll_held now (mainTimers_ofMain opt) hstart hinit
  have hcl : ∀ t n, clientOf (view m bs) t ≠ some (.idleConnection n) ∧
      clientOf (view m bs) t ≠ some (.wakeupConnection n) := by
    intro t n
    unfold clientOf
    rcases ht : view m bs t with _ | e
    · simp
    · exact (hclient t e ht).1 (n + 1) n (by omega)
  have hzero : openCount (freeTable opt memory) = 0 := by
    refine List.countP_eq_zero.mpr fun c hc => ?_
    simp [mem_freeTable hc]
  refine ⟨_, bs, by rw [prepare, hall]; rfl, ⟨hheld, ⟨?_, ?_, ?_, ?_⟩, ?_, ?_⟩, ?_⟩
  · intro t n
    simp [own_freeTable, (hcl t n).1]
  · intro t n
    simp [own_freeTable, (hcl t n).2]
  · exact fun c hc hopen => absurd (mem_freeTable hc) hopen
  · exact fun t e he => (hclient t e he).2 e rfl
  · intro n w t hw
    simp [own_freeTable] at hw
  · exact fun c hc hopen => absurd (mem_freeTable hc) hopen
  · simp [Books, hzero, noTotals]

end Prepare

/-! ### Whole runs -/

section Run

variable {opt : Options}

lemma allows_step : Allows TimerModel.step := fun _ _ _ _ h => h

lemma allows_safe : Allows (Runs.restrict safe TimerModel.step) := fun _ _ _ hsafe h =>
  Runs.restrict_eq_some.mpr ⟨hsafe, h⟩

/-- A step of the program is one over every such timers. -/
lemma step_good (hidle : opt.doThrottle = true → 1 ≤ opt.idleSecs) {s t : Load}
    {bs : ℕ → List ℕ} (hg : Good opt s bs) {a : Act} (hup : CameUp s a)
    (h : step TimerModel.step opt s a = some t) :
    Gives (fun tmr => step tmr opt s a) t ∧ (∃ bs', Good opt t bs') ∧ Effect opt s a t := by
  have hfin : s.finished = false := by
    unfold step at h
    split_ifs at h with hfin
    simpa using hfin
  have hstep : ∀ tmr, step tmr opt s a = act tmr opt s a := fun tmr => if_neg (by simp [hfin])
  rw [hstep] at h
  obtain ⟨s', bs', hgives, hg', heff⟩ := act_good hg hidle hfin (possible_of_act h) hup
  obtain rfl : t = s' := Option.some.inj (h.symm.trans (hgives _ allows_step))
  exact ⟨fun tmr htmr => (hstep tmr).trans (hgives tmr htmr), ⟨bs', hg'⟩, heff⟩

/-- **The books are right as long as the starts come up**, and no longer, while memory lasts and
where a program that throttles has a patience of at least a second. -/
theorem books_iff (opt : Options) (hidle : opt.doThrottle = true → 1 ≤ opt.idleSecs)
    (numUrls : ℕ) (memory : Memory) (now : Time) :
    ∃ s₀, prepare opt numUrls memory now = some s₀ ∧
      ∀ acts, Runs.Visits (step TimerModel.step opt) Books s₀ acts ↔
        Runs.Steps (step TimerModel.step opt) CameUp s₀ acts := by
  obtain ⟨s₀, bs, hprep, hg, hb⟩ := prepare_good opt numUrls memory now
  refine ⟨s₀, hprep, fun acts => ?_⟩
  have hstep : ∀ (s : Load) a t, (∃ bs, Good opt s bs) → Books s →
      step TimerModel.step opt s a = some t → (Books t ↔ CameUp s a) := by
    rintro s a t ⟨bs, hg⟩ hb h
    refine ⟨fun hbt => ?_, fun hup => effect_books (step_good hidle hg hup h).2.2 hb⟩
    by_contra hup
    unfold step at h
    split_ifs at h
    exact not_books_of_act hb hup h hbt
  have hgood : ∀ (s : Load) a t, (∃ bs, Good opt s bs) → Books s → CameUp s a →
      step TimerModel.step opt s a = some t → ∃ bs, Good opt t bs := by
    rintro s a t ⟨bs, hg⟩ - hup h
    exact (step_good hidle hg hup h).2.1
  exact Runs.visits_iff_steps hstep hgood ⟨bs, hg⟩ hb acts

/-- The timers that name a connection are those of the open connections. -/
structure Named (s : Load) : Prop where
  idle : ∀ t n, listed s.timers.mem t = true ∧
      (s.timers.mem.cell t).client = .idleConnection n ↔
    ∃ c, s.connections[n]? = some c ∧ c.connState ≠ .free ∧ c.idleTimer = some t
  wake : ∀ t n, listed s.timers.mem t = true ∧
      (s.timers.mem.cell t).client = .wakeupConnection n ↔
    ∃ c, s.connections[n]? = some c ∧ c.connState = .pausing ∧ c.wakeupTimer = some t

lemma named_of_good {s : Load} {bs : ℕ → List ℕ} (hg : Good opt s bs) : Named s := by
  obtain ⟨fr, hI⟩ := hg.held.inv
  have hclient : ∀ t client, listed s.timers.mem t = true ∧ (s.timers.mem.cell t).client = client ↔
      clientOf (view s.timers.mem bs) t = some client := by
    intro t client
    rw [TimerRun.listed_iff hI]
    simp [clientOf, view, TimerLists.entry]
  constructor
  · intro t n
    rw [hclient, hg.tab.idle t n]
    refine ⟨exists_slot, ?_⟩
    rintro ⟨c, hc, hopen, ht⟩
    rw [own_eq hc, timerOf, if_neg hopen]
    exact ht
  · intro t n
    rw [hclient, hg.tab.wake t n]
    constructor
    · intro h
      obtain ⟨c, hc, hopen, ht⟩ := exists_slot h
      have htimed := (hg.tab.timed c (List.mem_of_getElem? hc) hopen).2
      exact ⟨c, hc, htimed.mp (by rw [ht]; rfl), ht⟩
    · rintro ⟨c, hc, hpause, ht⟩
      rw [own_eq hc, timerOf, if_neg (by simp [hpause])]
      exact ht

lemma run_good (hidle : opt.doThrottle = true → 1 ≤ opt.idleSecs) {s t : Load} {acts : List Act}
    (hg : ∃ bs, Good opt s bs) (hup : Runs.Steps (step TimerModel.step opt) CameUp s acts)
    (h : Runs.run (step TimerModel.step opt) s acts = some t) :
    (∃ bs, Good opt t bs) ∧
      Runs.run (step (Runs.restrict safe TimerModel.step) opt) s acts = some t := by
  induction acts generalizing s with
  | nil =>
    obtain rfl : s = t := by simpa using h
    exact ⟨hg, rfl⟩
  | cons a acts ih =>
    obtain ⟨r, hr, h⟩ := Runs.run_cons_iff.mp h
    obtain ⟨hup, hrest⟩ := hup r hr
    obtain ⟨bs, hg⟩ := hg
    obtain ⟨hgives, hg', -⟩ := step_good hidle hg hup hr
    obtain ⟨hgt, hrun⟩ := ih hg' hrest h
    exact ⟨hgt, Runs.run_cons_iff.mpr ⟨r, hgives _ allows_safe, hrun⟩⟩

/-- **`http_load` uses its timers as it may.** In a run whose starts come up, every call of
`timers.c` is one that its lists can bear: the same run is possible over timers that refuse all
others. In every state of it the timers that name a connection are exactly those of the open
connections, and whatever can happen next is answered. -/
theorem timers_respected (opt : Options) (hidle : opt.doThrottle = true → 1 ≤ opt.idleSecs)
    (numUrls : ℕ) (memory : Memory) (now : Time) :
    ∃ s₀, prepare opt numUrls memory now = some s₀ ∧
      ∀ acts s, Runs.Steps (step TimerModel.step opt) CameUp s₀ acts →
        Runs.run (step TimerModel.step opt) s₀ acts = some s →
        Runs.run (step (Runs.restrict safe TimerModel.step) opt) s₀ acts = some s ∧ Named s ∧
          ∀ a, s.finished = false → Possible opt s a → CameUp s a →
            (step TimerModel.step opt s a).isSome = true := by
  obtain ⟨s₀, bs, hprep, hg, -⟩ := prepare_good opt numUrls memory now
  refine ⟨s₀, hprep, fun acts s hup hrun => ?_⟩
  obtain ⟨⟨bs', hg'⟩, hsafe⟩ := run_good hidle ⟨bs, hg⟩ hup hrun
  refine ⟨hsafe, named_of_good hg', fun a hfin hp hcame => ?_⟩
  obtain ⟨t, -, hgives, -⟩ := act_good hg' hidle hfin hp hcame
  have hact := hgives _ allows_step
  beta_reduce at hact
  rw [step, if_neg (by simp [hfin]), hact]
  rfl

end Run

/-! ### Runs -/

/-- The starts of an action, whenever it makes one, come up. -/
def actUp : Act → Prop
  | .start _ x => up x.out
  | .fire x => up x.out
  | _ => True

lemma cameUp_of_actUp {s : Load} {a : Act} (h : actUp a) : CameUp s a := by
  intro out hout
  cases a <;> simp only [startOf] at hout
  case start now x =>
    split_ifs at hout
    · obtain rfl := Option.some.inj hout
      exact h
    · cases hout
  case fire x =>
    split_ifs at hout
    · obtain rfl := Option.some.inj hout
      exact h
    · cases hout
  all_goals cases hout

lemma steps_of_actUp {opt : Options} {acts : List Act} (h : ∀ a ∈ acts, actUp a) (s : Load) :
    Runs.Steps (step TimerModel.step opt) CameUp s acts := by
  induction acts generalizing s with
  | nil => trivial
  | cons a acts ih =>
    obtain ⟨ha, hacts⟩ := List.forall_mem_cons.mp h
    exact fun t _ => ⟨cameUp_of_actUp ha, ih hacts t⟩

/-- One connection at a time, a throttle that makes every read a pause, and a second until a
connection is given up: the pause and the patience end together. -/
def oneSecond : Options :=
  { doThrottle := true, doChecksum := true, tooFast := fun _ _ => true, idleSecs := 1
    doVerbose := false, start := .parallel 1, stop := .fetches 1 }

def blankMemory : Memory :=
  ⟨fun _ => LoadRead.freshConn, fun _ => ⟨.progressReport, 0, false, ⟨0, 0⟩, none, none, 0⟩⟩

def luck : Chance := ⟨0, .inProgress, 0⟩

/-- An answer comes up to its body and no further; the timer of the pause runs, then the other. -/
def pausedSecond : List Act :=
  [.start ⟨5, 0⟩ luck, .connect 0 ⟨5, 0⟩ (.sent true),
    .read 0 ⟨5, 0⟩ (lit ['H', ' ', '2', '0', '0', '\n', '\n', 'a']), .run ⟨6, 0⟩] ++
  List.replicate 7 .turn ++ [.fire luck, .turn, .fire luck]

lemma pausedSecond_up : ∀ a ∈ pausedSecond, actUp a := by
  simp [pausedSecond, actUp, luck, up]

lemma pausedSecond_ends :
    ((prepare oneSecond 1 blankMemory ⟨5, 0⟩).bind fun s =>
      Runs.run (step TimerModel.step oneSecond) s pausedSecond).map
        (fun s => (s.totals.numConnections, s.totals.fetchesStarted, s.totals.fetchesCompleted,
          s.totals.totalTimeouts)) = some (0, 1, 1, 1) := by
  decide +kernel

theorem books_iff_pausedSecond :
    ∃ s₀, prepare oneSecond 1 blankMemory ⟨5, 0⟩ = some s₀ ∧
      Runs.Visits (step TimerModel.step oneSecond) Books s₀ pausedSecond := by
  obtain ⟨s₀, hprep, hall⟩ := books_iff oneSecond (fun _ => le_refl 1) 1 blankMemory ⟨5, 0⟩
  exact ⟨s₀, hprep, (hall pausedSecond).mpr (steps_of_actUp pausedSecond_up s₀)⟩

/-- A socket that could not be made, and half a second later a connection in the same slot. -/
def lostSocket : List Act :=
  [.start ⟨5, 0⟩ ⟨0, .noSocket, 0⟩, .start ⟨5, 500000⟩ luck, .run ⟨6, 0⟩] ++
  List.replicate 7 .turn ++ [.fire luck]

/-- By `timer_left` and `idle_closes` the timer of the first closes the second before its time. Of
two fetches one is done, and none is open. -/
example :
    ((prepare { oneSecond with stop := .fetches 2 } 1 blankMemory ⟨5, 0⟩).bind fun s =>
      Runs.run (step TimerModel.step { oneSecond with stop := .fetches 2 }) s lostSocket).map
        (fun s => (s.totals.fetchesStarted, s.totals.fetchesCompleted, openCount s.connections)) =
      some (2, 1, 0) := by
  decide +kernel

theorem timers_respected_pausedSecond :
    ∃ s₀ s, prepare oneSecond 1 blankMemory ⟨5, 0⟩ = some s₀ ∧
      Runs.run (step (Runs.restrict safe TimerModel.step) oneSecond) s₀ pausedSecond = some s ∧
      s.totals.totalTimeouts = 1 := by
  obtain ⟨s₀, hprep, hall⟩ := timers_respected oneSecond (fun _ => le_refl 1) 1 blankMemory ⟨5, 0⟩
  have hends := pausedSecond_ends
  rw [hprep, Option.bind_some] at hends
  obtain ⟨s, hrun, hs⟩ := Option.map_eq_some_iff.mp hends
  simp only [Prod.mk.injEq] at hs
  exact ⟨s₀, s, hprep, (hall pausedSecond s (steps_of_actUp pausedSecond_up s₀) hrun).1,
    hs.2.2.2⟩

end WeatherQuery.LoadBooks
