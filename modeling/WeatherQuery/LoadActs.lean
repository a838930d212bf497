import WeatherQuery.LoadSteps

/-!
The actions of `http_load`.

From a state in which the table and the timers belong together, every action that is possible is
answered and leads to such a state again. What it does to the connections and to the statistics is
one of nine things.
-/

namespace WeatherQuery.LoadActs

open WeatherQuery.CText WeatherQuery.LoadModel WeatherQuery.LoadTable WeatherQuery.LoadSlots
open WeatherQuery.LoadSteps
open WeatherQuery.LoadRead (readable)
open WeatherQuery.TimerModel (Time Timers Sys Pc micros nextTimer)
open WeatherQuery.TimerLists (Entry)
open WeatherQuery.TimerRun (view)
open WeatherQuery.TimerCalls

/-! ### What an action can do -/

def hasFree (s : Load) : Bool := (s.connections.findIdx? (·.connState = .free)).isSome

/-- The main loop or a timer asks for a connection. -/
def MayStart (opt : Options) (s : Load) : Prop := wantsMore opt s = true ∨ Options.AtRate opt

/-- The ways in which the program comes to its end. -/
def EndsBy (opt : Options) (s : Load) : Prop :=
  (hasFree s = false ∧ MayStart opt s) ∨ (∃ n, opt.stop = .seconds n) ∨
    ∃ m, opt.stop = .fetches m ∧ m ≤ s.totals.fetchesCompleted

/-- What an action does to the connections, the urls and the statistics. -/
inductive Effect (opt : Options) (s : Load) : Act → Load → Prop
  | quiet {a : Act} (timers : Sys Client) (ha : ∀ cnum now bytes, a ≠ .read cnum now bytes) :
      Effect opt s a { s with timers := timers }
  | ended {a : Act} (ha : ∀ cnum now bytes, a ≠ .read cnum now bytes) (hwhy : EndsBy opt s) :
      Effect opt s a { s with finished := true }
  | started {a : Act} {cnum urlNum t : ℕ} {c : Connection} {now : Time} {out : Started}
      (timers : Sys Client) (ha : ∀ cnum now bytes, a ≠ .read cnum now bytes)
      (hc : s.connections[cnum]? = some c) (hfree : c.connState = .free) (hmay : MayStart opt s)
      (hup : up out) (hurl : urlNum < s.urls.length) :
      Effect opt s a (Load.started s cnum (startedRecord c urlNum now t out) timers)
  | sent {cnum : ℕ} {now : Time} {c : Connection} (hc : s.connections[cnum]? = some c)
      (hstate : c.connState = .connecting) :
      Effect opt s (.connect cnum now (.sent true)) (s.setConn cnum (sentRecord c now))
  | dropped {cnum : ℕ} {now : Time} {out : Connected} {c d : Connection} {u : Seen}
      (timers : Sys Client) (hc : s.connections[cnum]? = some c)
      (hstate : c.connState = .connecting)
      (hd : d = c ∨ d = { c with didConnect := true, requestAt := micros now })
      (hu : s.urls[c.urlNum]? = some u) :
      Effect opt s (.connect cnum now out) (Load.closed opt s cnum d u timers)
  | read {cnum timer : ℕ} {now : Time} {bytes : Bytes} {c r : Connection} (timers : Sys Client)
      (hc : s.connections[cnum]? = some c) (hread : readable c = true)
      (hr : handleRead opt.toConfig (micros now) timer c bytes = some (r, false))
      (hopen : r.connState ≠ .free) :
      Effect opt s (.read cnum now bytes) { s.setConn cnum r with timers := timers }
  | readLast {cnum timer : ℕ} {now : Time} {bytes : Bytes} {c r : Connection} {u : Seen}
      (timers : Sys Client) (hc : s.connections[cnum]? = some c) (hread : readable c = true)
      (hr : handleRead opt.toConfig (micros now) timer c bytes = some (r, true))
      (hu : s.urls[r.urlNum]? = some u) :
      Effect opt s (.read cnum now bytes) (Load.closed opt s cnum r u timers)
  | woke {x : Chance} {cnum : ℕ} {c : Connection} (timers : Sys Client)
      (hc : s.connections[cnum]? = some c) (hopen : c.connState ≠ .free)
      (hwake : c.wakeupTimer.isSome = true) :
      Effect opt s (.fire x)
        { s.setConn cnum (LoadModel.wakeupConnection c) with timers := timers }
  | idle {x : Chance} {cnum : ℕ} {c : Connection} {u : Seen} (timers : Sys Client)
      (hc : s.connections[cnum]? = some c) (hopen : c.connState ≠ .free)
      (hu : s.urls[c.urlNum]? = some u) :
      Effect opt s (.fire x)
        (Load.timedOut (Load.closed opt s cnum { c with idleTimer := none } u timers))

/-- A url that `random` can give, where one is asked for. -/
def Startable (s : Load) (x : Chance) : Prop := hasFree s = true → x.urlNum < s.urls.length

/-- The client of the timer whose procedure `tmr_run` calls. -/
def running (s : Load) : Option Client :=
  match s.timers.pc with
  | .inProc _ _ t _ => some (s.timers.mem.cell t).client
  | _ => none

/-- What can happen next. -/
def Possible (opt : Options) (s : Load) : Act → Prop
  | .start _ x => s.timers.pc = .idle ∧ wantsMore opt s = true ∧ Startable s x
  | .connect cnum _ _ => s.timers.pc = .idle ∧ stateOf s cnum = some .connecting
  | .read cnum _ bytes =>
    s.timers.pc = .idle ∧ (stateOf s cnum = some .headers ∨ stateOf s cnum = some .reading) ∧
      bytes.length ≤ bufSize
  | .run _ => s.timers.pc = .idle
  | .turn => s.timers.pc.outside = false
  | .fire x => (running s).isSome = true ∧ (running s = some .startTimer → Startable s x)
  | .finish => s.timers.pc = .idle ∧
    ∃ m, opt.stop = .fetches m ∧ m ≤ s.totals.fetchesCompleted

/-- The start that an action makes. -/
def startOf (s : Load) : Act → Option Started
  | .start _ x => if hasFree s then some x.out else none
  | .fire x => if running s = some .startTimer ∧ hasFree s then some x.out else none
  | _ => none

/-- A connection that the action starts comes up. -/
def CameUp (s : Load) (a : Act) : Prop := ∀ out ∈ startOf s a, up out

section Steps

variable {opt : Options} {s : Load} {bs : ℕ → List ℕ}

lemma running_eq {now : Time} {k t : ℕ} {next : Option ℕ}
    (hpc : s.timers.pc = .inProc now k t next) :
    running s = some (s.timers.mem.cell t).client := by simp [running, hpc]

/-- `start_connection` comes to an end of the program, or to a connection. -/
lemma start_good (hg : Good opt s bs) (hout : s.timers.pc.outside = true) {x : Chance}
    (hx : Startable s x) (hup : hasFree s = true → up x.out) (now : Time) :
    (hasFree s = false ∧ Gives (fun tmr => startConnection tmr opt s x.urlNum now x.out)
      { s with finished := true }) ∨
    ∃ cnum c timers bs', s.connections[cnum]? = some c ∧ c.connState = .free ∧ up x.out ∧
      x.urlNum < s.urls.length ∧
      Gives (fun tmr => startConnection tmr opt s x.urlNum now x.out)
        (Load.started s cnum (startedRecord c x.urlNum now (nextTimer s.timers.mem) x.out) timers) ∧
      Good opt (Load.started s cnum
        (startedRecord c x.urlNum now (nextTimer s.timers.mem) x.out) timers) bs' ∧
      (∃ now', timers.pc = setNow now' s.timers.pc) ∧
      ∀ y e, view s.timers.mem bs y = some e → view timers.mem bs' y = some e := by
  rcases hfind : s.connections.findIdx? (·.connState = .free) with _ | cnum
  · refine .inl ⟨by simp [hasFree, hfind], gives_of_eq fun tmr => ?_⟩
    simp [startConnection, hfind]
  · have hfree : hasFree s = true := by simp [hasFree, hfind]
    obtain ⟨c, hc, hcfree⟩ := free_of_findIdx? hfind
    obtain ⟨timers, bs', hgives, hg', hnow, hkeep⟩ :=
      hg.start hout hfind hc hcfree (hx hfree) now (hup hfree)
    exact .inr ⟨cnum, c, timers, bs', hc, hcfree, hup hfree, hx hfree, hgives, hg', hnow, hkeep⟩

/-- The procedure that a timer calls, and the way back. -/
lemma fire_gives {now : Time} {k t : ℕ} {next : Option ℕ} (hpc : s.timers.pc = .inProc now k t next)
    {x : Chance} {s₁ s₂ : Load}
    (hproc : Gives (fun tmr => callProc tmr opt s now x (s.timers.mem.cell t).client) s₁)
    (hret : Gives (fun tmr => if s₁.finished then some s₁ else timerCall tmr s₁ .ret) s₂) :
    Gives (fun tmr => act tmr opt s (.fire x)) s₂ := by
  intro tmr htmr
  have h₁ := hproc tmr htmr
  have h₂ := hret tmr htmr
  beta_reduce at h₁ h₂
  simp only [act, hpc, Option.bind_eq_bind, h₁, Option.bind_some, h₂]

/-- `start_timer` once the connection is started: with jitter it makes a new timer. -/
lemma startTimer_gives {now : Time} {x : Chance} {s₁ : Load} {bs₁ : ℕ → List ℕ}
    (hstart : Gives (fun tmr => startConnection tmr opt s x.urlNum now x.out) s₁)
    (hg₁ : Good opt s₁ bs₁) (hrate : Options.AtRate opt) (hfin : s₁.finished = false)
    (hout : s₁.timers.pc.outside = true) :
    ∃ timers bs₂, Gives (fun tmr => startTimer tmr opt s now x) { s₁ with timers := timers } ∧
      Good opt { s₁ with timers := timers } bs₂ ∧ timers.pc = s₁.timers.pc ∧
      ∀ y e, view s₁.timers.mem bs₁ y = some e → view timers.mem bs₂ y = some e := by
  have hplain : (∀ tmr, startTimer tmr opt s now x =
      (startConnection tmr opt s x.urlNum now x.out).bind some) →
      ∃ timers bs₂, Gives (fun tmr => startTimer tmr opt s now x) { s₁ with timers := timers } ∧
        Good opt { s₁ with timers := timers } bs₂ ∧ timers.pc = s₁.timers.pc ∧
        ∀ y e, view s₁.timers.mem bs₁ y = some e → view timers.mem bs₂ y = some e := by
    intro heq
    refine ⟨s₁.timers, bs₁, fun tmr htmr => ?_, hg₁, rfl, fun _ _ h => h⟩
    have h₁ := hstart tmr htmr
    beta_reduce at h₁ ⊢
    rw [heq, h₁]
    rfl
  rcases hmode : opt.start with n | ⟨limit, interval, jitter⟩
  · exact hplain fun tmr => by simp [startTimer, hmode]
  · cases jitter with
    | false => exact hplain fun tmr => by simp [startTimer, hmode]
    | true =>
      obtain ⟨timers, bs₂, hgives, hg₂, hpc, hkeep⟩ :=
        hg₁.createApart hout (x.out.time now) apart_start x.delay hrate
      refine ⟨timers, bs₂, fun tmr htmr => ?_, hg₂, hpc, hkeep⟩
      have h₁ := hstart tmr htmr
      have h₂ := hgives tmr htmr
      beta_reduce at h₁ h₂ ⊢
      simp only [startTimer, Option.bind_eq_bind, h₁, Option.bind_some, hmode, hfin,
        Bool.false_eq_true, if_false, h₂]

/-- The procedure has not ended the program. -/
lemma back_gives {s₁ s₂ : Load} (hfin : s₁.finished = false)
    (hret : Gives (fun tmr => timerCall tmr s₁ .ret) s₂) :
    Gives (fun tmr => if s₁.finished then some s₁ else timerCall tmr s₁ .ret) s₂ := by
  intro tmr htmr
  rw [hfin]
  exact hret tmr htmr

lemma fire_ne (x : Chance) : ∀ cnum now bytes, Act.fire x ≠ .read cnum now bytes := by simp

/-- What a call of a procedure comes to. -/
def FireGood (opt : Options) (s : Load) (x : Chance) : Prop :=
  ∃ s' bs', Gives (fun tmr => act tmr opt s (.fire x)) s' ∧ Good opt s' bs' ∧
    Effect opt s (.fire x) s'

section Fire

variable {x : Chance} {now : Time} {k t : ℕ} {next : Option ℕ} {e : Entry Client}

lemma progress_good (hg : Good opt s bs) (hfin : s.finished = false)
    (hpc : s.timers.pc = .inProc now k t next) (he : view s.timers.mem bs t = some e)
    (hcl : e.client = .progressReport) (hcell : (s.timers.mem.cell t).client = e.client) :
    FireGood opt s x := by
  obtain ⟨timers, bs', hret, hg'⟩ := hg.ret hpc he (by rw [hcl]; exact apart_progress)
  have hproc : Gives (fun tmr => callProc tmr opt s now x (s.timers.mem.cell t).client) s :=
    gives_of_eq fun tmr => by simp [hcell, hcl, callProc]
  exact ⟨_, bs', fire_gives hpc hproc (back_gives hfin hret), hg', .quiet timers (fire_ne x)⟩

lemma end_good (hg : Good opt s bs) (hpc : s.timers.pc = .inProc now k t next)
    (he : view s.timers.mem bs t = some e) (hcl : e.client = .endTimer)
    (hcell : (s.timers.mem.cell t).client = e.client) :
    FireGood opt s x := by
  have hproc : Gives (fun tmr => callProc tmr opt s now x (s.timers.mem.cell t).client)
      { s with finished := true } := gives_of_eq fun tmr => by simp [hcell, hcl, callProc]
  have hmade := hg.tab.made t e he
  simp only [Made, hcl] at hmade
  exact ⟨_, bs, fire_gives hpc hproc (gives_of_eq fun _ => rfl),
    ⟨hg.held, hg.tab, hg.ordered, hg.urls⟩, .ended (fire_ne x) (.inr (.inl hmade))⟩

lemma idle_good (hg : Good opt s bs) (hfin : s.finished = false)
    (hpc : s.timers.pc = .inProc now k t next) (he : view s.timers.mem bs t = some e) {cnum : ℕ}
    (hcl : e.client = .idleConnection cnum) (hcell : (s.timers.mem.cell t).client = e.client) :
    FireGood opt s x := by
  obtain ⟨d, u, timers₁, timers, bs', hd, hopen, hu, hidle, hret, hg'⟩ := hg.idleFire hpc he hcl
  have hproc : Gives (fun tmr => callProc tmr opt s now x (s.timers.mem.cell t).client)
      (Load.timedOut (Load.closed opt s cnum { d with idleTimer := none } u timers₁)) := by
    intro tmr htmr
    have h₁ := hidle tmr htmr
    beta_reduce at h₁ ⊢
    rw [hcell, hcl, callProc, h₁]
  exact ⟨_, bs', fire_gives hpc hproc (back_gives hfin hret), hg', .idle timers hd hopen hu⟩

lemma wake_good (hg : Good opt s bs) (hfin : s.finished = false)
    (hpc : s.timers.pc = .inProc now k t next) (he : view s.timers.mem bs t = some e) {cnum : ℕ}
    (hcl : e.client = .wakeupConnection cnum) (hcell : (s.timers.mem.cell t).client = e.client) :
    FireGood opt s x := by
  obtain ⟨d, timers, bs', hd, hopen, hwake, heq, hret, hg'⟩ := hg.wakeFire hpc he hcl
  have hproc : Gives (fun tmr => callProc tmr opt s now x (s.timers.mem.cell t).client)
      (s.setConn cnum (LoadModel.wakeupConnection d)) :=
    gives_of_eq fun tmr => by rw [hcell, hcl, callProc, heq]
  exact ⟨_, bs', fire_gives hpc hproc (back_gives hfin hret), hg',
    .woke timers hd hopen (by simp [hwake])⟩

lemma startFire_good (hg : Good opt s bs) (hfin : s.finished = false)
    (hpc : s.timers.pc = .inProc now k t next) (he : view s.timers.mem bs t = some e)
    (hcl : e.client = .startTimer) (hcell : (s.timers.mem.cell t).client = e.client)
    (hx : Startable s x) (hup : hasFree s = true → up x.out) : FireGood opt s x := by
  have hout : s.timers.pc.outside = true := by
    rw [hpc]
    rfl
  have hrate : Options.AtRate opt := by
    have hmade := hg.tab.made t e he
    simpa only [Made, hcl] using hmade
  have hproc : ∀ {s₁ : Load}, Gives (fun tmr => startTimer tmr opt s now x) s₁ →
      Gives (fun tmr => callProc tmr opt s now x (s.timers.mem.cell t).client) s₁ := by
    intro s₁ hgives tmr htmr
    have h₁ := hgives tmr htmr
    beta_reduce at h₁ ⊢
    rw [hcell, hcl, callProc, h₁]
  rcases start_good hg hout hx hup now with ⟨hno, hgives⟩ | ⟨cnum, c, timers₁, bs₁, hc, hfree, hup',
    hurl, hgives, hg₁, ⟨now', hnow⟩, hkeep⟩
  · -- there is no slot
    have hstart : Gives (fun tmr => startTimer tmr opt s now x) { s with finished := true } := by
      intro tmr htmr
      have h₁ := hgives tmr htmr
      beta_reduce at h₁ ⊢
      rcases hmode : opt.start with n | ⟨limit, interval, _ | _⟩ <;>
        simp [startTimer, h₁, hmode]
    exact ⟨_, bs, fire_gives hpc (hproc hstart) (gives_of_eq fun _ => rfl),
      ⟨hg.held, hg.tab, hg.ordered, hg.urls⟩, .ended (fire_ne x) (.inl ⟨hno, .inr hrate⟩)⟩
  · rw [hpc] at hnow
    have hout₁ : (Load.started s cnum (startedRecord c x.urlNum now (nextTimer s.timers.mem) x.out)
        timers₁).timers.pc.outside = true := by
      rw [show (Load.started s cnum _ timers₁).timers = timers₁ from rfl, hnow]
      rfl
    obtain ⟨timers₂, bs₂, hstart, hg₂, hpc₂, hkeep₂⟩ := startTimer_gives hgives hg₁ hrate hfin hout₁
    obtain ⟨timers, bs', hret, hg'⟩ := hg₂.ret (hpc₂.trans hnow) (hkeep₂ t e (hkeep t e he))
      (by rw [hcl]; exact apart_start)
    exact ⟨_, bs', fire_gives hpc (hproc hstart) (back_gives hfin hret), hg',
      .started timers (fire_ne x) hc hfree (.inr hrate) hup' hurl⟩

/-- **A procedure is called.** -/
lemma fire_good (hg : Good opt s bs) (hfin : s.finished = false)
    (hp : Possible opt s (.fire x)) (hup : CameUp s (.fire x)) : FireGood opt s x := by
  obtain ⟨hrun, hx⟩ := hp
  rcases hpc : s.timers.pc with _ | ⟨now, k, p⟩ | ⟨now, k, t, next⟩
  · simp [running, hpc] at hrun
  · simp [running, hpc] at hrun
  obtain ⟨e, he, hcell⟩ : ∃ e, view s.timers.mem bs t = some e ∧
      (s.timers.mem.cell t).client = e.client := by
    have hwithin := hg.held.within
    rw [hpc] at hwithin
    exact ⟨_, view_eq_some.mpr ⟨TimerLists.mem_actives.mpr ⟨k, hwithin.1, hwithin.2.1⟩, rfl⟩, rfl⟩
  have hclient : running s = some e.client := (running_eq hpc).trans (by rw [hcell])
  cases hcl : e.client with
  | progressReport => exact progress_good hg hfin hpc he hcl hcell
  | endTimer => exact end_good hg hpc he hcl hcell
  | idleConnection cnum => exact idle_good hg hfin hpc he hcl hcell
  | wakeupConnection cnum => exact wake_good hg hfin hpc he hcl hcell
  | startTimer =>
    have hstart : running s = some .startTimer := by rw [hclient, hcl]
    refine startFire_good hg hfin hpc he hcl hcell (hx hstart) fun hfree => hup x.out ?_
    simp [startOf, hstart, hfree]

end Fire

/-- `tmr_run` goes on, and nothing is called. -/
lemma walk_good (hg : Good opt s bs) {timers : Sys Client} (hmem : timers.mem = s.timers.mem)
    (hheld : Held timers bs) : Good opt { s with timers := timers } bs where
  held := hheld
  tab := by
    have htab := hg.tab
    rwa [← hmem] at htab
  ordered := hg.ordered
  urls := hg.urls

/-- **Every action that is possible is answered**, and the timers are called as they may be. -/
lemma act_good (hg : Good opt s bs) (hidle : opt.doThrottle = true → 1 ≤ opt.idleSecs)
    (hfin : s.finished = false) {a : Act} (hp : Possible opt s a) (hup : CameUp s a) :
    ∃ s' bs', Gives (fun tmr => act tmr opt s a) s' ∧ Good opt s' bs' ∧ Effect opt s a s' := by
  cases a with
  | start now x =>
    obtain ⟨hpc, hmore, hx⟩ := hp
    have hout : s.timers.pc.outside = true := by
      rw [hpc]
      rfl
    have hgives : ∀ {s' : Load},
        Gives (fun tmr => startConnection tmr opt s x.urlNum now x.out) s' →
        Gives (fun tmr => act tmr opt s (.start now x)) s' := fun h tmr htmr =>
      (if_pos ⟨hpc, hmore⟩).trans (h tmr htmr)
    rcases start_good hg hout hx (fun hfree => hup x.out (by simp [startOf, hfree])) now with
      ⟨hno, h⟩ | ⟨cnum, c, timers, bs', hc, hfree, hup', hurl, h, hg', -, -⟩
    · exact ⟨_, bs, hgives h, ⟨hg.held, hg.tab, hg.ordered, hg.urls⟩,
        .ended (by simp) (.inl ⟨hno, .inl hmore⟩)⟩
    · exact ⟨_, bs', hgives h, hg', .started timers (by simp) hc hfree (.inl hmore) hup' hurl⟩
  | connect cnum now out =>
    obtain ⟨hpc, hstate⟩ := hp
    obtain ⟨c, hc, hconn⟩ : ∃ c, s.connections[cnum]? = some c ∧ c.connState = .connecting := by
      simpa [stateOf] using hstate
    obtain ⟨s', bs', h, hg', -, hor⟩ := hg.connect hpc hc hconn now out
    refine ⟨s', bs', fun tmr htmr => (if_pos ⟨hpc, hstate⟩).trans (h tmr htmr), hg', ?_⟩
    rcases hor with ⟨rfl, rfl⟩ | ⟨d, u, timers, hd, hu, rfl⟩
    · exact .sent hc hconn
    · exact .dropped timers hc hconn hd hu
  | read cnum now bytes =>
    obtain ⟨hpc, hstate, hfit⟩ := hp
    obtain ⟨c, hc, hread⟩ : ∃ c, s.connections[cnum]? = some c ∧ readable c = true := by
      rcases hstate with hstate | hstate
      all_goals
        obtain ⟨c, hc, hconn⟩ := Option.map_eq_some_iff.mp hstate
        exact ⟨c, hc, by simp [readable, hconn]⟩
    obtain ⟨s', bs', timer, r, closed, timers, h, hg', -, hopen, hr, hor⟩ :=
      hg.read hidle hpc hc hread now hfit
    refine ⟨s', bs', fun tmr htmr => (if_pos ⟨hpc, hstate⟩).trans (h tmr htmr), hg', ?_⟩
    rcases hor with ⟨rfl, rfl⟩ | ⟨rfl, u, hu, rfl⟩
    · exact .read timers hc hread hr hopen
    · exact .readLast timers hc hread hr hu
  | run now =>
    have hstep : TimerModel.step s.timers (.run now) =
        some { s.timers with pc := TimerModel.nextList s.timers.mem now 0 } := by
      simp [TimerModel.step, show s.timers.pc = .idle from hp]
    obtain ⟨hmem, hheld⟩ := hg.held.run now hstep
    refine ⟨_, bs, fun tmr htmr => ?_, walk_good hg hmem hheld, .quiet _ (by simp)⟩
    simp only [act, timerCall, htmr _ _ _ rfl hstep, Option.map_some]
  | turn =>
    obtain ⟨timers, hstep⟩ : ∃ timers, TimerModel.step s.timers .turn = some timers := by
      have hpc : s.timers.pc.outside = false := hp
      unfold TimerModel.step
      rcases hc : s.timers.pc with _ | ⟨now, k, _ | t⟩ | ⟨now, k, t, next⟩
      · simp [hc, Pc.outside] at hpc
      · exact ⟨_, rfl⟩
      · dsimp only
        split_ifs <;> exact ⟨_, rfl⟩
      · simp [hc, Pc.outside] at hpc
    obtain ⟨hmem, hheld⟩ := hg.held.turn hstep
    refine ⟨_, bs, fun tmr htmr => ?_, walk_good hg hmem hheld, .quiet timers (by simp)⟩
    simp only [act, timerCall, htmr _ _ _ rfl hstep, Option.map_some]
  | fire x => exact fire_good hg hfin hp hup
  | finish =>
    obtain ⟨hpc, m, hm, hdone⟩ := hp
    refine ⟨{ s with finished := true }, bs, gives_of_eq fun tmr => ?_,
      ⟨hg.held, hg.tab, hg.ordered, hg.urls⟩,
      .ended (by simp) (.inr (.inr ⟨m, hm, hdone⟩))⟩
    simp only [act, hm, if_pos (show s.timers.pc = .idle ∧ m ≤ _ from ⟨hpc, hdone⟩)]

/-! ### What an action needs -/

lemma startable_of_some {tmr : Tmr} {now : Time} {x : Chance} {s' : Load}
    (h : startConnection tmr opt s x.urlNum now x.out = some s') : Startable s x := by
  intro hfree
  unfold hasFree at hfree
  unfold startConnection at h
  rcases hfind : s.connections.findIdx? (·.connState = .free) with _ | cnum
  · simp [hfind] at hfree
  · simp only [hfind, Option.ite_none_right_eq_some] at h
    exact h.1

lemma readConnection_fits {tmr : Tmr} {cnum : ℕ} {now : Time} {bytes : Bytes} {s' : Load}
    (h : readConnection tmr opt s cnum now bytes = some s') : bytes.length ≤ bufSize := by
  simp only [readConnection, Option.bind_eq_bind] at h
  obtain ⟨c, -, h⟩ := Option.bind_eq_some_iff.mp h
  obtain ⟨idle, -, h⟩ := Option.bind_eq_some_iff.mp h
  obtain ⟨s₁, -, h⟩ := Option.bind_eq_some_iff.mp h
  obtain ⟨r, hr, -⟩ := Option.bind_eq_some_iff.mp h
  exact LoadRead.handleRead_fits hr

lemma possible_of_act {a : Act} {s' : Load} (h : act TimerModel.step opt s a = some s') :
    Possible opt s a := by
  cases a with
  | start now x =>
    simp only [act, Option.ite_none_right_eq_some] at h
    exact ⟨h.1.1, h.1.2, startable_of_some h.2⟩
  | connect cnum now out =>
    simp only [act, Option.ite_none_right_eq_some] at h
    exact h.1
  | read cnum now bytes =>
    simp only [act, Option.ite_none_right_eq_some] at h
    exact ⟨h.1.1, h.1.2, readConnection_fits h.2⟩
  | run now =>
    obtain ⟨timers, hstep, -⟩ := Option.map_eq_some_iff.mp h
    unfold TimerModel.step at hstep
    rcases hc : s.timers.pc with _ | ⟨now', k, p⟩ | ⟨now', k, t, next⟩ <;> simp [hc] at hstep
    exact hc
  | turn =>
    obtain ⟨timers, hstep, -⟩ := Option.map_eq_some_iff.mp h
    unfold TimerModel.step at hstep
    rcases hc : s.timers.pc with _ | ⟨now', k, p⟩ | ⟨now', k, t, next⟩ <;> simp [hc] at hstep
    simp [Possible, hc, Pc.outside]
  | fire x =>
    rcases hc : s.timers.pc with _ | ⟨now, k, p⟩ | ⟨now, k, t, next⟩
    · simp [act, hc] at h
    · simp [act, hc] at h
    · refine ⟨by simp [running, hc], fun hstart => ?_⟩
      rw [running_eq hc, Option.some.injEq] at hstart
      simp only [act, hc, Option.bind_eq_bind, hstart, callProc, startTimer] at h
      obtain ⟨s₁, h₁, -⟩ := Option.bind_eq_some_iff.mp h
      obtain ⟨s₂, h₂, -⟩ := Option.bind_eq_some_iff.mp h₁
      exact startable_of_some h₂
  | finish =>
    rcases hstop : opt.stop with m | n
    · simp only [act, hstop, Option.ite_none_right_eq_some] at h
      exact ⟨h.1.1, m, hstop, h.1.2⟩
    · simp [act, hstop] at h

end Steps

end WeatherQuery.LoadActs
