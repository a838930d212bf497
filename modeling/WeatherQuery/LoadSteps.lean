import WeatherQuery.LoadSlots

/-!
What the functions of `http_load` do to the table and to the timers.

Each function is given a specification that holds over any timers that do what `timers.c` does where
it is called as it may be. So the calls that the functions make are shown to be such calls, and the
specification holds over `timers.c` itself.
-/

namespace WeatherQuery.LoadSteps

open WeatherQuery.CText WeatherQuery.LoadModel WeatherQuery.LoadTable WeatherQuery.LoadSlots
open WeatherQuery.LoadRead (readable respond fold_frame)
open WeatherQuery.TimerModel (Time Timers Sys Pc micros nextTimer hashSize)
open WeatherQuery.TimerLists (Entry Front)
open WeatherQuery.TimerRun (safe view)
open WeatherQuery.TimerCalls

abbrev Tmr := Sys Client → TimerModel.Act Client → Option (Sys Client)

/-- The timers answer as `timers.c` does, where it may be called. -/
def Allows (tmr : Tmr) : Prop :=
  ∀ c act c', safe c act = true → TimerModel.step c act = some c' → tmr c act = some c'

/-- A function of the program comes to `s'`, over all such timers. -/
def Gives (f : Tmr → Option Load) (s' : Load) : Prop := ∀ tmr, Allows tmr → f tmr = some s'

lemma gives_of_eq {f : Tmr → Option Load} {s' : Load} (h : ∀ tmr, f tmr = some s') : Gives f s' :=
  fun tmr _ => h tmr

section Calls

variable {s : Load} {bs : ℕ → List ℕ}

lemma call_gives {act : TimerModel.Act Client} {t : ℕ} {e : Option (Entry Client)}
    {c' : Sys Client} {bs' : ℕ → List ℕ} (h : Called s.timers bs act t e c' bs') :
    Gives (fun tmr => timerCall tmr s act) { s with timers := c' } := by
  intro tmr htmr
  simp only [timerCall, htmr _ _ _ h.safe h.step, Option.map_some]

/-- The timer may be cancelled. -/
def Spare (s : Load) (bs : ℕ → List ℕ) (t : ℕ) : Prop :=
  (∃ e, view s.timers.mem bs t = some e) ∧
    ∀ now k u next, s.timers.pc = .inProc now k u next → u ≠ t ∧ next ≠ some t

/-- The timers after some of them were cancelled. -/
structure Without (c : Sys Client) (bs : ℕ → List ℕ) (off : ℕ → Prop) (c' : Sys Client)
    (bs' : ℕ → List ℕ) : Prop where
  held : Held c' bs'
  gone : ∀ x, off x → view c'.mem bs' x = none
  kept : ∀ x, ¬ off x → view c'.mem bs' x = view c.mem bs x
  front : ∀ x y, ¬ off x → ¬ off y → Front bs x y → Front bs' x y

lemma cancelSet_gives (hheld : Held s.timers bs) (hpc : s.timers.pc.outside = true) (o : Option ℕ)
    (ho : ∀ t ∈ o, Spare s bs t) :
    ∃ c' bs', Gives (fun tmr => cancelSet tmr s o) { s with timers := c' } ∧
      Without s.timers bs (o = some ·) c' bs' ∧ c'.pc = s.timers.pc := by
  rcases o with _ | t
  · refine ⟨s.timers, bs, gives_of_eq fun _ => rfl, ⟨hheld, ?_, fun _ _ => rfl,
      fun _ _ _ _ h => h⟩, rfl⟩
    rintro x ⟨⟩
  · obtain ⟨⟨e, he⟩, hrun⟩ := ho t rfl
    obtain ⟨c', bs', hcall, hpc'⟩ := hheld.cancel hpc he hrun
    refine ⟨c', bs', call_gives hcall, ⟨hcall.held, ?_, ?_, ?_⟩, hpc'⟩
    · rintro x hx
      obtain rfl : t = x := by simpa using hx
      rw [hcall.view, Function.update_self]
    · intro x hx
      rw [hcall.view, Function.update_of_ne fun h => hx (by rw [h])]
    · exact fun x y hx hy hxy =>
        hcall.front x y (fun h => hx (by rw [h])) (fun h => hy (by rw [h])) hxy

end Calls

/-! ### `close_connection` -/

/-- The program once a connection is closed; `u` is what its url says. -/
def Load.closed (opt : Options) (s : Load) (cnum : ℕ) (c : Connection) (u : Seen)
    (timers : Sys Client) : Load :=
  { connections := s.connections.set cnum { c with connState := .free }
    urls := s.urls.set c.urlNum (compareUrl opt.toConfig u c).1
    totals := if (compareUrl opt.toConfig u c).2 then (s.totals.close c).bad opt.toConfig
      else s.totals.close c
    timers := timers
    finished := s.finished }

section Close

variable {opt : Options} {s : Load} {bs : ℕ → List ℕ} {cnum : ℕ} {c : Connection} {u : Seen}

variable (opt) in
lemma close_gives (hheld : Held s.timers bs) (hpc : s.timers.pc.outside = true)
    (hc : s.connections[cnum]? = some c) (hu : s.urls[c.urlNum]? = some u)
    (hidle : ∀ t ∈ c.idleTimer, Spare s bs t) (hwake : ∀ t ∈ c.wakeupTimer, Spare s bs t)
    (hne : ∀ t ∈ c.idleTimer, c.wakeupTimer ≠ some t) :
    ∃ c' bs', Gives (fun tmr => closeConnection tmr opt s cnum) (Load.closed opt s cnum c u c') ∧
      Without s.timers bs (fun x => c.idleTimer = some x ∨ c.wakeupTimer = some x) c' bs' ∧
      c'.pc = s.timers.pc := by
  obtain ⟨c₁, bs₁, hgives₁, hw₁, hpc₁⟩ :=
    cancelSet_gives (s := s.setConn cnum { c with connState := .free }) hheld hpc c.idleTimer hidle
  have hwake₁ : ∀ t ∈ c.wakeupTimer,
      Spare { s.setConn cnum { c with connState := .free } with timers := c₁ } bs₁ t := by
    intro t ht
    obtain ⟨⟨e, he⟩, hrun⟩ := hwake t ht
    have hkept : c.idleTimer ≠ some t := fun heq => hne t heq ht
    refine ⟨⟨e, (hw₁.kept t hkept).trans he⟩, fun now k v next hc₁ => hrun now k v next ?_⟩
    exact hpc₁.symm.trans hc₁
  obtain ⟨c₂, bs₂, hgives₂, hw₂, hpc₂⟩ := cancelSet_gives hw₁.held
    (s := { s.setConn cnum { c with connState := .free } with timers := c₁ })
    (by rw [hpc₁]; exact hpc) c.wakeupTimer hwake₁
  refine ⟨c₂, bs₂, ?_, ⟨hw₂.held, ?_, ?_, ?_⟩, hpc₂.trans hpc₁⟩
  · intro tmr htmr
    unfold closeConnection
    rw [hc]
    have h₁ := hgives₁ tmr htmr
    have h₂ := hgives₂ tmr htmr
    beta_reduce at h₁ h₂
    simp only [Option.bind_eq_bind, Option.bind_some, h₁, h₂]
    simp [Load.checkUrl, Load.setConn, hu, Load.closed]
  · rintro x hx
    by_cases hwx : c.wakeupTimer = some x
    · exact hw₂.gone x hwx
    · rw [hw₂.kept x hwx]
      exact hw₁.gone x (hx.resolve_right hwx)
  · intro x hx
    rw [not_or] at hx
    rw [hw₂.kept x hx.2, hw₁.kept x hx.1]
    rfl
  · intro x y hx hy hxy
    rw [not_or] at hx hy
    exact hw₂.front x y hx.2 hy.2 (hw₁.front x y hx.1 hy.1 hxy)

end Close

/-! ### `handle_read` -/

lemma headerByte_connState {c : Connection} (h : c.connState = .headers) (b : UInt8) :
    (headerByte c b).connState = .headers ∨ (headerByte c b).connState = .reading := by
  unfold headerByte waitFor lineStart inLine
  dsimp only
  split <;> split_ifs <;> simp [h]

/-- The header loop leaves nothing, or a connection that reads its body. -/
lemma headerLoop_left {c : Connection} (h : c.connState = .headers) (bytes : Bytes) :
    ∃ p : Bytes, (headerLoop c bytes).1 = p.foldl headerByte c ∧
      (((headerLoop c bytes).1.connState = .headers ∧ (headerLoop c bytes).2 = []) ∨
        (headerLoop c bytes).1.connState = .reading) := by
  induction bytes generalizing c with
  | nil => exact ⟨[], rfl, .inl ⟨h, rfl⟩⟩
  | cons b bytes ih =>
    rw [headerLoop, if_pos h]
    rcases headerByte_connState h b with hb | hb
    · obtain ⟨p, hp, hor⟩ := ih hb
      exact ⟨b :: p, hp, hor⟩
    · refine ⟨[b], ?_, .inr ?_⟩ <;> cases bytes <;> simp [headerLoop, hb]

/-- A read leaves the timers of a connection alone, unless it makes it pause. -/
structure Reads (cfg : Config) (timer : ℕ) (c r : Connection) : Prop where
  idle : r.idleTimer = c.idleTimer
  url : r.urlNum = c.urlNum
  state : (readable r = true ∧ r.wakeupTimer = c.wakeupTimer) ∨
    (cfg.doThrottle = true ∧ r.connState = .pausing ∧ r.wakeupTimer = some timer)

/-- The same timers and the same url. -/
def SameOwner (c d : Connection) : Prop :=
  d.idleTimer = c.idleTimer ∧ d.urlNum = c.urlNum ∧ d.wakeupTimer = c.wakeupTimer

section Read

variable {cfg : Config} {now : ℤ} {timer : ℕ} {c d r : Connection}

lemma Reads.of_same (h : Reads cfg timer d r) (hd : SameOwner c d) : Reads cfg timer c r :=
  ⟨h.idle.trans hd.1, h.url.trans hd.2.1, by rw [← hd.2.2]; exact h.state⟩

lemma reads_same (hr : readable r = true) (h : SameOwner c r) : Reads cfg timer c r :=
  ⟨h.1, h.2.1, .inl ⟨hr, h.2.2⟩⟩

lemma respond_same (now : ℤ) (c : Connection) : SameOwner c (respond now c) := by
  unfold respond
  split_ifs <;> exact ⟨rfl, rfl, rfl⟩

lemma fold_same (c : Connection) (p : Bytes) : SameOwner c (p.foldl headerByte c) := by
  rw [fold_frame]
  exact ⟨rfl, rfl, rfl⟩

lemma readBody_reads {rest : Bytes} (h : c.connState = .reading) :
    Reads cfg timer c (readBody cfg now timer c rest) := by
  unfold readBody
  dsimp only
  constructor <;> split_ifs <;> simp_all [readable]

lemma readLoop_reads (h : c.connState = .reading) (fuel : ℕ) (left : Bytes) :
    ∃ r closed, readLoop cfg now timer (fuel + 1) c left = some (r, closed) ∧
      Reads cfg timer c r := by
  rcases left with _ | ⟨b, rest⟩
  · exact ⟨c, false, rfl, reads_same (by simp [readable, h]) ⟨rfl, rfl, rfl⟩⟩
  · rw [readLoop, h]
    dsimp only
    split_ifs
    · exact ⟨_, true, rfl, readBody_reads h⟩
    · exact ⟨_, false, by cases fuel <;> rfl, readBody_reads h⟩

/-- `handle_read` returns. -/
lemma handleRead_reads (cfg : Config) (now : ℤ) (timer : ℕ) (h : readable c = true)
    {bytes : Bytes} (hfit : bytes.length ≤ bufSize) :
    ∃ r closed, handleRead cfg now timer c bytes = some (r, closed) ∧ Reads cfg timer c r := by
  have hstate := LoadRead.respond_connState now c
  have hsame := respond_same now c
  unfold handleRead
  dsimp only
  rw [if_neg (Nat.not_lt.mpr hfit)]
  change ∃ r closed, (if bytes = [] then some (respond now c, true)
    else readLoop cfg now timer 2 (respond now c) bytes) = some (r, closed) ∧ _
  split_ifs with hne
  · exact ⟨_, true, rfl, reads_same (by simpa [readable, hstate] using h) hsame⟩
  · obtain ⟨b, rest, rfl⟩ := List.exists_cons_of_ne_nil hne
    have hor : c.connState = .headers ∨ c.connState = .reading := by simpa [readable] using h
    rcases hor with hc | hc
    · rw [readLoop, hstate, hc]
      obtain ⟨p, hp, hleft⟩ := headerLoop_left (hstate.trans hc) (b :: rest)
      have hd : SameOwner (respond now c) (headerLoop (respond now c) (b :: rest)).1 := by
        rw [hp]
        exact fold_same _ p
      rcases hleft with ⟨hh, hnil⟩ | hr
      · -- all of it was header
        refine ⟨_, false, ?_, (reads_same (by simp [readable, hh]) hd).of_same hsame⟩
        simp only [hnil]
        rfl
      · obtain ⟨r, closed, hrl, hreads⟩ := readLoop_reads hr 0 _
        exact ⟨r, closed, hrl, (hreads.of_same hd).of_same hsame⟩
    · obtain ⟨r, closed, hrl, hreads⟩ := readLoop_reads (hstate.trans hc) 1 (b :: rest)
      exact ⟨r, closed, hrl, hreads.of_same hsame⟩

end Read

/-! ### The invariant -/

/-- The timer that wakes a connection is in front of the one that gives it up. -/
def Ordered (conns : List Connection) (bs : ℕ → List ℕ) : Prop :=
  ∀ cnum w t, own (·.wakeupTimer) conns cnum = some w → own (·.idleTimer) conns cnum = some t →
    Front bs w t

structure Good (opt : Options) (s : Load) (bs : ℕ → List ℕ) : Prop where
  held : Held s.timers bs
  tab : Tab opt s.connections (view s.timers.mem bs)
  ordered : Ordered s.connections bs
  urls : ∀ c ∈ s.connections, c.connState ≠ .free → c.urlNum < s.urls.length

section Good

variable {opt : Options} {s : Load} {bs bs' : ℕ → List ℕ} {cnum : ℕ} {c c' : Connection}
  {timers : Sys Client}

lemma exists_entry {E : Entries} {t : ℕ} {client : Client} (h : clientOf E t = some client) :
    ∃ e, E t = some e ∧ e.client = client := by
  simpa [clientOf] using h

/-- One slot is rewritten, and timers are moved that name no other. -/
lemma Ordered.change {conns : List Connection} {E : Entries} (h : Ordered conns bs)
    (htab : Tab opt conns E) (hc : conns[cnum]? = some c) (moved : ℕ → Prop)
    (hmoved : ∀ x, moved x → Beside cnum (clientOf E x))
    (hfront : ∀ x y, ¬ moved x → ¬ moved y → Front bs x y → Front bs' x y)
    (hself : ∀ w t, timerOf (·.wakeupTimer) c' = some w → timerOf (·.idleTimer) c' = some t →
      Front bs' w t) : Ordered (conns.set cnum c') bs' := by
  intro n w t hw ht
  rw [own_set hc] at hw ht
  by_cases hn : n = cnum
  · rw [if_pos hn] at hw ht
    exact hself w t hw ht
  · rw [if_neg hn] at hw ht
    refine hfront w t (fun hm => ?_) (fun hm => ?_) (h n w t hw ht)
    · exact (hmoved w hm n hn).2 ((htab.wake w n).mpr hw)
    · exact (hmoved t hm n hn).1 ((htab.idle t n).mpr ht)

lemma urls_set {conns : List Connection} {n : ℕ}
    (h : ∀ c ∈ conns, c.connState ≠ .free → c.urlNum < n)
    (hc' : c'.connState ≠ .free → c'.urlNum < n) :
    ∀ d ∈ conns.set cnum c', d.connState ≠ .free → d.urlNum < n := by
  intro d hd
  rcases List.mem_or_eq_of_mem_set hd with hd | rfl
  · exact h d hd
  · exact hc'

/-- A connection goes on, with its timers as they are. -/
lemma Good.setConn (hg : Good opt s bs) (hc : s.connections[cnum]? = some c)
    (hopen : c.connState ≠ .free) (hopen' : c'.connState ≠ .free)
    (hpause : c'.connState = .pausing ↔ c.connState = .pausing)
    (hidle : c'.idleTimer = c.idleTimer) (hwake : c'.wakeupTimer = c.wakeupTimer)
    (hurl : c'.urlNum = c.urlNum) : Good opt (s.setConn cnum c') bs where
  held := hg.held
  tab := hg.tab.goOn hc (by simp [hopen, hopen']) hpause hidle hwake
  ordered := by
    refine hg.ordered.change hg.tab hc (fun _ => False) (by simp)
      (fun _ _ _ _ h => h) fun w t hw ht => hg.ordered cnum w t ?_ ?_
    · rw [own_eq hc]
      simpa [timerOf, hopen, hopen', hwake] using hw
    · rw [own_eq hc]
      simpa [timerOf, hopen, hopen', hidle] using ht
  urls := urls_set hg.urls fun _ => by
    rw [hurl]
    exact hg.urls c (List.mem_of_getElem? hc) hopen

/-- The timers of an open connection. -/
lemma Good.idle_timer (hg : Good opt s bs) (hc : s.connections[cnum]? = some c)
    (hopen : c.connState ≠ .free) :
    ∃ t e, c.idleTimer = some t ∧ view s.timers.mem bs t = some e ∧
      e.client = .idleConnection cnum := by
  obtain ⟨t, ht⟩ := Option.isSome_iff_exists.mp
    (hg.tab.timed c (List.mem_of_getElem? hc) hopen).1
  have hclient := (hg.tab.idle.own_iff hc t).mpr (by simpa [timerOf, hopen] using ht)
  obtain ⟨e, he, hcl⟩ := exists_entry hclient
  exact ⟨t, e, ht, he, hcl⟩

lemma Good.wake_entry (hg : Good opt s bs) (hc : s.connections[cnum]? = some c)
    (hopen : c.connState ≠ .free) {w : ℕ} (hw : c.wakeupTimer = some w) :
    ∃ e, view s.timers.mem bs w = some e ∧ e.client = .wakeupConnection cnum :=
  exists_entry ((hg.tab.wake.own_iff hc w).mpr (by simpa [timerOf, hopen] using hw))

lemma Good.timers_ne (hg : Good opt s bs) (hc : s.connections[cnum]? = some c)
    (hopen : c.connState ≠ .free) : ∀ t ∈ c.idleTimer, c.wakeupTimer ≠ some t := by
  intro t ht hw
  obtain ⟨t', e, ht', he, hcl⟩ := hg.idle_timer hc hopen
  obtain rfl : t' = t := Option.some.inj (ht'.symm.trans ht)
  obtain ⟨e', he', hcl'⟩ := hg.wake_entry hc hopen hw
  rw [he, Option.some.injEq] at he'
  subst he'
  rw [hcl] at hcl'
  cases hcl'

/-- A slot has become free and its timers are gone. -/
lemma Good.free (hg : Good opt s bs) (hc : s.connections[cnum]? = some c)
    (hopen : c.connState ≠ .free) (hfree : c'.connState = .free) {s' : Load}
    (hconns : s'.connections = s.connections.set cnum c') (hurls : s'.urls.length = s.urls.length)
    (hw : Without s.timers bs (fun x => c.idleTimer = some x ∨ c.wakeupTimer = some x) s'.timers
      bs') : Good opt s' bs' where
  held := hw.held
  tab := by
    rw [hconns]
    refine hg.tab.close hc hfree fun x => ?_
    simp only [timerOf, if_neg hopen]
    split_ifs with hx
    · exact hw.gone x hx
    · exact hw.kept x hx
  ordered := by
    rw [hconns]
    refine hg.ordered.change hg.tab hc _ (fun x hx => ?_) hw.front fun w t hwake => ?_
    · rcases hx with hx | hx
      · rw [(hg.tab.idle.own_iff hc x).mpr (by simpa [timerOf, hopen] using hx)]
        exact beside_idle
      · rw [(hg.tab.wake.own_iff hc x).mpr (by simpa [timerOf, hopen] using hx)]
        exact beside_wake
    · simp [timerOf, hfree] at hwake
  urls := by
    rw [hconns, hurls]
    exact urls_set hg.urls fun hopen' => absurd hfree hopen'

/-- `close_connection`, from the main loop. -/
lemma Good.close (hg : Good opt s bs) (hpc : s.timers.pc = .idle)
    (hc : s.connections[cnum]? = some c) (hopen : c.connState ≠ .free) :
    ∃ u timers bs', s.urls[c.urlNum]? = some u ∧
      Gives (fun tmr => closeConnection tmr opt s cnum) (Load.closed opt s cnum c u timers) ∧
      Good opt (Load.closed opt s cnum c u timers) bs' ∧ timers.pc = .idle := by
  have hout : s.timers.pc.outside = true := by
    rw [hpc]
    rfl
  have hrun : ∀ t now k v next, s.timers.pc = .inProc now k v next → v ≠ t ∧ next ≠ some t := by
    intro t now k v next hin
    rw [hpc] at hin
    cases hin
  obtain ⟨u, hu⟩ : ∃ u, s.urls[c.urlNum]? = some u := by
    have hlt := hg.urls c (List.mem_of_getElem? hc) hopen
    exact ⟨_, List.getElem?_eq_getElem hlt⟩
  obtain ⟨t, e, ht, he, -⟩ := hg.idle_timer hc hopen
  have hidle : ∀ x ∈ c.idleTimer, Spare s bs x := by
    intro x hx
    obtain rfl : t = x := Option.some.inj (ht.symm.trans hx)
    exact ⟨⟨e, he⟩, hrun t⟩
  have hwake : ∀ x ∈ c.wakeupTimer, Spare s bs x := by
    intro x hx
    obtain ⟨e', he', -⟩ := hg.wake_entry hc hopen hx
    exact ⟨⟨e', he'⟩, hrun x⟩
  obtain ⟨timers, bs', hgives, hw, hpc'⟩ :=
    close_gives opt hg.held hout hc hu hidle hwake (hg.timers_ne hc hopen)
  have hurls : (Load.closed opt s cnum c u timers).urls.length = s.urls.length := by
    simp [Load.closed]
  exact ⟨u, timers, bs', hu, hgives, hg.free hc hopen rfl rfl hurls hw, hpc'.trans hpc⟩

/-! ### Connecting -/

/-- The slot that `start_socket` fills in. -/
def startRecord (c : Connection) (urlNum : ℕ) (now : Time) (t : ℕ) : Connection :=
  { c with
    urlNum := urlNum, startedAt := micros now, didConnect := false, didResponse := false
    idleTimer := some t, wakeupTimer := none, contentLength := -1, bytes := 0, checksum := 0
    httpStatus := -1, connectAt := micros now }

/-- The connection once the request was sent. -/
def sentRecord (c : Connection) (now : Time) : Connection :=
  { c with
    didConnect := true, requestAt := micros now, connState := .headers
    headerState := .line1Protocol }

lemma getElem_setConn (hc : s.connections[cnum]? = some c) (d : Connection) :
    (s.setConn cnum d).connections[cnum]? = some d := by
  simp [Load.setConn, (List.getElem?_eq_some_iff.mp hc).1]

lemma closed_setConn (d : Connection) (u : Seen) :
    Load.closed opt (s.setConn cnum d) cnum c u timers = Load.closed opt s cnum c u timers := by
  simp [Load.closed, Load.setConn]

/-- `handle_connect`, from the main loop: a connection that was connecting has sent its request, or
is closed. -/
lemma Good.connect (hg : Good opt s bs) (hpc : s.timers.pc = .idle)
    (hc : s.connections[cnum]? = some c) (hstate : c.connState = .connecting) (now : Time) :
    ∀ out, ∃ s' bs', Gives (fun tmr => handleConnect tmr opt s cnum now out) s' ∧ Good opt s' bs' ∧
      s'.timers.pc = .idle ∧
      ((out = .sent true ∧ s' = s.setConn cnum (sentRecord c now)) ∨
        ∃ d u timers, (d = c ∨ d = { c with didConnect := true, requestAt := micros now }) ∧
          s.urls[c.urlNum]? = some u ∧ s' = Load.closed opt s cnum d u timers) := by
  have hopen : c.connState ≠ .free := by simp [hstate]
  intro out
  rcases out with _ | _ | _
  · obtain ⟨u, timers, bs', hu, hgives, hg', hpc'⟩ := hg.close hpc hc hopen
    exact ⟨_, bs', hgives, hg', hpc', .inr ⟨c, u, timers, .inl rfl, hu, rfl⟩⟩
  · -- `write` has failed
    have hg₁ :
        Good opt (s.setConn cnum { c with didConnect := true, requestAt := micros now }) bs :=
      hg.setConn hc hopen hopen Iff.rfl rfl rfl rfl
    obtain ⟨u, timers, bs', hu, hgives, hg', hpc'⟩ :=
      hg₁.close hpc (getElem_setConn hc _) hopen
    rw [closed_setConn] at hgives hg'
    refine ⟨_, bs', fun tmr htmr => ?_, hg', hpc', .inr ⟨_, u, timers, .inr rfl, hu, rfl⟩⟩
    have hclose := hgives tmr htmr
    simpa [handleConnect, sendRequest, hc] using hclose
  · refine ⟨s.setConn cnum (sentRecord c now), bs, gives_of_eq fun tmr => ?_, ?_, hpc,
      .inl ⟨rfl, rfl⟩⟩
    · simp [handleConnect, sendRequest, hc, sentRecord]
    · exact hg.setConn hc hopen (by simp [sentRecord]) (by simp [sentRecord, hstate]) rfl rfl rfl

/-! ### Reading -/

lemma set_getElem_self {α : Type*} {l : List α} {i : ℕ} {a : α} (h : l[i]? = some a) :
    l.set i a = l := by
  obtain ⟨hi, rfl⟩ := List.getElem?_eq_some_iff.mp h
  exact List.set_getElem_self hi

lemma wakeup_none (hg : Good opt s bs) (hc : s.connections[cnum]? = some c)
    (hopen : c.connState ≠ .free) (hgo : c.connState ≠ .pausing) : c.wakeupTimer = none := by
  have := (hg.tab.timed c (List.mem_of_getElem? hc) hopen).2
  simpa [hgo] using this

/-- The timer that gives up a connection is given a new time, when the connection does not pause. -/
lemma Good.reset (hg : Good opt s bs) (hpc : s.timers.pc = .idle)
    (hc : s.connections[cnum]? = some c) (hopen : c.connState ≠ .free)
    (hgo : c.connState ≠ .pausing) (now : Time) :
    ∃ t timers bs', c.idleTimer = some t ∧
      Gives (fun tmr => timerCall tmr s (.reset now t)) { s with timers := timers } ∧
      Good opt { s with timers := timers } bs' ∧ timers.pc = .idle ∧
      ∃ e, view timers.mem bs' t = some e ∧ e.time = now.add (opt.idleSecs * 1000) := by
  obtain ⟨t, e, ht, he, hcl⟩ := hg.idle_timer hc hopen
  obtain ⟨timers, bs', hcall, hpc'⟩ := hg.held.reset hpc he now
  have hmade := hg.tab.made t e he
  have hmsecs : e.msecs = opt.idleSecs * 1000 := by
    simp only [Made, hcl] at hmade
    exact hmade.2
  refine ⟨t, timers, bs', ht, call_gives hcall, ⟨hcall.held, ?_, ?_, hg.urls⟩, hpc'.trans hpc, ?_⟩
  · have htab := hg.tab.entry (t := t) (e := some { e with time := now.add e.msecs })
      (.inl (by simp [clientOf, he])) fun e' he' => by
        obtain rfl := Option.some.inj he'
        exact hmade
    rwa [← hcall.view] at htab
  · have hord : Ordered (s.connections.set cnum c) bs' := by
      refine hg.ordered.change hg.tab hc (· = t) ?_ hcall.front fun w x hw => ?_
      · rintro x rfl
        simpa [clientOf, he, hcl] using beside_idle
      · simp [timerOf, wakeup_none hg hc hopen hgo] at hw
    rwa [set_getElem_self hc] at hord
  · refine ⟨{ e with time := now.add e.msecs }, ?_, by rw [hmsecs]⟩
    rw [hcall.view, Function.update_self]

/-- A connection begins to pause. -/
lemma Good.pause (hg : Good opt s bs) (hpc : s.timers.pc = .idle)
    (hc : s.connections[cnum]? = some c) (hopen : c.connState ≠ .free)
    (hgo : c.connState ≠ .pausing) (hpause : c'.connState = .pausing)
    (hidle : c'.idleTimer = c.idleTimer) (hwake : c'.wakeupTimer = some (nextTimer s.timers.mem))
    (hurl : c'.urlNum = c.urlNum) (now : Time)
    (hlate : ∀ t ∈ c.idleTimer, ∃ e, view s.timers.mem bs t = some e ∧
      (now.add 1000).le e.time = true) :
    ∃ timers bs', Gives (fun tmr =>
        createOnce tmr (s.setConn cnum c') now (.wakeupConnection cnum) 1000)
          { s.setConn cnum c' with timers := timers } ∧
      Good opt { s.setConn cnum c' with timers := timers } bs' ∧ timers.pc = .idle := by
  have hout : s.timers.pc.outside = true := by
    rw [hpc]
    rfl
  obtain ⟨timers, bs', hcall, hpc', hnone, hfront⟩ :=
    hg.held.create hout now (.wakeupConnection cnum) 1000 false
  have hopen' : c'.connState ≠ .free := by simp [hpause]
  refine ⟨timers, bs', call_gives (s := s.setConn cnum c') hcall,
    ⟨hcall.held, ?_, ?_, urls_set hg.urls fun _ => ?_⟩, hpc'.trans hpc⟩
  · have htab := hg.tab.pause hc hopen hgo hpause hnone hidle hwake (now.add 1000)
    rwa [← hcall.view] at htab
  · refine hg.ordered.change hg.tab hc (· = nextTimer s.timers.mem) ?_ hcall.front ?_
    · rintro x rfl
      simpa [clientOf, hnone] using beside_none
    · intro w t hw ht
      obtain rfl : nextTimer s.timers.mem = w := by simpa [timerOf, hopen', hwake] using hw
      have ht : c.idleTimer = some t := by simpa [timerOf, hopen', hidle] using ht
      obtain ⟨e, he, hle⟩ := hlate t ht
      exact hfront t e he hle
  · rw [hurl]
    exact hg.urls c (List.mem_of_getElem? hc) hopen

/-- A second is over before the time for a connection is. -/
lemma add_second_le (now : Time) {secs : ℤ} (h : 1 ≤ secs) :
    (now.add 1000).le (now.add (secs * 1000)) = true := by
  have htdiv : (secs * 1000).tdiv 1000 = secs := Int.mul_tdiv_cancel secs (by decide)
  have htmod : (secs * 1000).tmod 1000 = 0 := Int.mul_tmod_left secs 1000
  have h₁ : (1000 : ℤ).tdiv 1000 = 1 := by decide
  have h₂ : (1000 : ℤ).tmod 1000 = 0 := by decide
  rw [TimerLists.le_iff, Time.add, Time.add]
  simp only [htdiv, htmod, h₁, h₂]
  split_ifs <;> simp <;> omega

/-- `handle_read` on a slot, before it may close the connection. -/
lemma Good.readOpen (hg : Good opt s bs) (hidle : opt.doThrottle = true → 1 ≤ opt.idleSecs)
    (hpc : s.timers.pc = .idle) (hc : s.connections[cnum]? = some c) (hr : readable c = true)
    (now : Time) {bytes : Bytes} (hfit : bytes.length ≤ bufSize) :
    ∃ t timers₁ r closed timers₂ bs', c.idleTimer = some t ∧
      Gives (fun tmr => timerCall tmr s (.reset now t)) { s with timers := timers₁ } ∧
      handleRead opt.toConfig (micros now) (nextTimer timers₁.mem) c bytes = some (r, closed) ∧
      Gives (fun tmr => pauseTimer tmr ({ s with timers := timers₁ }.setConn cnum r) cnum now r)
        { s.setConn cnum r with timers := timers₂ } ∧
      Good opt { s.setConn cnum r with timers := timers₂ } bs' ∧ timers₂.pc = .idle ∧
      r.connState ≠ .free := by
  have hstate : c.connState = .headers ∨ c.connState = .reading := by simpa [readable] using hr
  have hopen : c.connState ≠ .free := by rcases hstate with h | h <;> simp [h]
  have hgo : c.connState ≠ .pausing := by rcases hstate with h | h <;> simp [h]
  obtain ⟨t, timers₁, bs₁, ht, hgives₁, hg₁, hpc₁, e, he, htime⟩ := hg.reset hpc hc hopen hgo now
  obtain ⟨r, closed, hread, hreads⟩ :=
    handleRead_reads opt.toConfig (micros now) (nextTimer timers₁.mem) hr hfit
  rcases hreads.state with ⟨hr', hwake⟩ | ⟨hthrottle, hpause, hwake⟩
  · have hstate' : r.connState = .headers ∨ r.connState = .reading := by
      simpa [readable] using hr'
    have hopen' : r.connState ≠ .free := by rcases hstate' with h | h <;> simp [h]
    have hgo' : r.connState ≠ .pausing := by rcases hstate' with h | h <;> simp [h]
    refine ⟨t, timers₁, r, closed, timers₁, bs₁, ht, hgives₁, hread, ?_, ?_, hpc₁, hopen'⟩
    · exact gives_of_eq fun _ => if_neg hgo'
    · exact hg₁.setConn hc hopen hopen' (by simp [hgo, hgo']) hreads.idle hwake hreads.url
  · obtain ⟨timers₂, bs₂, hgives₂, hg₂, hpc₂⟩ :=
      hg₁.pause hpc₁ hc hopen hgo hpause hreads.idle hwake hreads.url now fun x hx => by
        obtain rfl : t = x := Option.some.inj (ht.symm.trans hx)
        exact ⟨e, he, by rw [htime]; exact add_second_le now (hidle hthrottle)⟩
    refine ⟨t, timers₁, r, closed, timers₂, bs₂, ht, hgives₁, hread, ?_, hg₂, hpc₂,
      by simp [hpause]⟩
    intro tmr htmr
    exact (if_pos hpause).trans (hgives₂ tmr htmr)

/-- `handle_read` on a slot. -/
lemma Good.read (hg : Good opt s bs) (hidle : opt.doThrottle = true → 1 ≤ opt.idleSecs)
    (hpc : s.timers.pc = .idle) (hc : s.connections[cnum]? = some c) (hr : readable c = true)
    (now : Time) {bytes : Bytes} (hfit : bytes.length ≤ bufSize) :
    ∃ s' bs' timer r closed timers, Gives (fun tmr => readConnection tmr opt s cnum now bytes) s' ∧
      Good opt s' bs' ∧ s'.timers.pc = .idle ∧ r.connState ≠ .free ∧
      handleRead opt.toConfig (micros now) timer c bytes = some (r, closed) ∧
      ((closed = false ∧ s' = { s.setConn cnum r with timers := timers }) ∨
        (closed = true ∧ ∃ u, s.urls[r.urlNum]? = some u ∧
          s' = Load.closed opt s cnum r u timers)) := by
  obtain ⟨t, timers₁, r, closed, timers₂, bs₂, ht, hgives₁, hread, hgives₂, hg₂, hpc₂, hopen⟩ :=
    hg.readOpen hidle hpc hc hr now hfit
  cases closed with
  | false =>
    refine ⟨_, bs₂, _, r, false, timers₂, ?_, hg₂, hpc₂, hopen, hread, .inl ⟨rfl, rfl⟩⟩
    intro tmr htmr
    have h₁ := hgives₁ tmr htmr
    have h₂ := hgives₂ tmr htmr
    beta_reduce at h₁ h₂ ⊢
    simp only [readConnection, Option.bind_eq_bind, hc, Option.bind_some, ht, h₁, hread, h₂,
      Bool.false_eq_true, if_false]
  | true =>
    obtain ⟨u, timers, bs', hu, hgives, hg', hpc'⟩ := hg₂.close hpc₂ (getElem_setConn hc r) hopen
    have hsame : Load.closed opt { s.setConn cnum r with timers := timers₂ } cnum r u timers =
        Load.closed opt s cnum r u timers := by
      simp [Load.closed, Load.setConn]
    rw [hsame] at hgives hg'
    refine ⟨_, bs', _, r, true, timers, ?_, hg', hpc', hopen, hread, .inr ⟨rfl, u, hu, rfl⟩⟩
    intro tmr htmr
    have h₁ := hgives₁ tmr htmr
    have h₂ := hgives₂ tmr htmr
    have h₃ := hgives tmr htmr
    beta_reduce at h₁ h₂ h₃ ⊢
    simp only [readConnection, Option.bind_eq_bind, hc, Option.bind_some, ht, h₁, hread, h₂,
      if_true, h₃]

/-! ### Starting -/

/-- `tmr_run` with another time to go on with. -/
def setNow (now : Time) : Pc → Pc
  | .idle => .idle
  | .scan _ h t => .scan now h t
  | .inProc _ h t next => .inProc now h t next

lemma exists_setNow (pc : Pc) : ∃ now, setNow now pc = pc := by
  rcases pc with _ | ⟨now, k, p⟩ | ⟨now, k, t, next⟩
  · exact ⟨⟨0, 0⟩, rfl⟩
  · exact ⟨now, rfl⟩
  · exact ⟨now, rfl⟩

lemma held_setNow {c : Sys Client} (h : Held c bs) (now : Time) :
    Held { c with pc := setNow now c.pc } bs := by
  refine ⟨h.inv, ?_⟩
  have hwithin := h.within
  rcases hc : c.pc with _ | ⟨now', k, p⟩ | ⟨now', k, t, next⟩ <;> rw [hc] at hwithin <;>
    exact hwithin

lemma readClock_gives (hout : s.timers.pc.outside = true) (now : Time) :
    Gives (fun tmr => readClock tmr s now)
      { s with timers := { s.timers with pc := setNow now s.timers.pc } } := by
  intro tmr htmr
  rcases hc : s.timers.pc with _ | ⟨now', k, p⟩ | ⟨now', k, t, next⟩
  · simp only [readClock, hc, setNow]
    rw [← hc]
  · rw [hc] at hout
    cases hout
  · have hstep : TimerModel.step s.timers (.clock now) =
        some { s.timers with pc := .inProc now k t next } := by
      simp only [TimerModel.step, hc]
    simp only [readClock, hc, timerCall, htmr _ _ _ rfl hstep, Option.map_some, setNow]

/-- The connection is under way, or has come up and sent its request. -/
def up : Started → Prop
  | .inProgress => True
  | .instant _ wrote => wrote = true
  | _ => False

/-- The connection that a start leaves in the slot. -/
def startedRecord (c : Connection) (urlNum : ℕ) (now : Time) (t : ℕ) : Started → Connection
  | .instant now' _ => sentRecord (startRecord c urlNum now t) now'
  | _ => { startRecord c urlNum now t with connState := .connecting }

/-- The program once a connection has been started. -/
def Load.started (s : Load) (cnum : ℕ) (c' : Connection) (timers : Sys Client) : Load :=
  { s with
    connections := s.connections.set cnum c'
    timers := timers
    totals := { s.totals.up with fetchesStarted := s.totals.fetchesStarted + 1 } }

lemma free_of_findIdx? (h : s.connections.findIdx? (·.connState = .free) = some cnum) :
    ∃ c, s.connections[cnum]? = some c ∧ c.connState = .free := by
  obtain ⟨hlt, hfree, -⟩ := List.findIdx?_eq_some_iff_getElem.mp h
  exact ⟨_, List.getElem?_eq_getElem hlt, by simpa using hfree⟩

/-- A start that comes up, with the timer it made. -/
lemma Good.start (hg : Good opt s bs) (hout : s.timers.pc.outside = true)
    (hfind : s.connections.findIdx? (·.connState = .free) = some cnum)
    (hc : s.connections[cnum]? = some c) (hfree : c.connState = .free) {urlNum : ℕ}
    (hurl : urlNum < s.urls.length) (now : Time) {out : Started} (hup : up out) :
    ∃ timers bs', Gives (fun tmr => startConnection tmr opt s urlNum now out)
        (Load.started s cnum (startedRecord c urlNum now (nextTimer s.timers.mem) out) timers) ∧
      Good opt (Load.started s cnum (startedRecord c urlNum now (nextTimer s.timers.mem) out)
        timers) bs' ∧
      (∃ now', timers.pc = setNow now' s.timers.pc) ∧
      ∀ x e, view s.timers.mem bs x = some e → view timers.mem bs' x = some e := by
  obtain ⟨timers, bs', hcall, hpc', hnone, -⟩ :=
    hg.held.create hout now (.idleConnection cnum) (opt.idleSecs * 1000) false
  have hgives := call_gives hcall
  have hkeep : ∀ x e, view s.timers.mem bs x = some e → view timers.mem bs' x = some e := by
    intro x e hx
    have hne : x ≠ nextTimer s.timers.mem := by
      rintro rfl
      rw [hnone] at hx
      cases hx
    rw [hcall.view, Function.update_of_ne hne, hx]
  -- whatever the record of the connection is
  have hgood : ∀ {c' : Connection} {timers' : Sys Client}, c'.connState ≠ .free →
      c'.connState ≠ .pausing → c'.idleTimer = some (nextTimer s.timers.mem) →
      c'.wakeupTimer = none → c'.urlNum = urlNum → timers'.mem = timers.mem →
      Held timers' bs' → Good opt (Load.started s cnum c' timers') bs' := by
    intro c' timers' hopen hgo hi hw hu hmem hheld
    refine ⟨hheld, ?_, ?_, urls_set hg.urls fun _ => by rw [hu]; exact hurl⟩
    · have htab := hg.tab.start hc hfree hopen hgo hnone hi hw (now.add (opt.idleSecs * 1000))
      rw [← hcall.view, ← hmem] at htab
      exact htab
    · refine hg.ordered.change hg.tab hc (· = nextTimer s.timers.mem) ?_ hcall.front ?_
      · rintro x rfl
        simpa [clientOf, hnone] using beside_none
      · intro w t hwake
        simp [timerOf, hw] at hwake
  have hget : ∀ d, (s.connections.set cnum d)[cnum]? = some d := getElem_setConn hc
  rcases out with _ | _ | _ | ⟨now', wrote⟩
  · cases hup
  · cases hup
  · refine ⟨timers, bs', fun tmr htmr => ?_, ?_, ?_, hkeep⟩
    · have hcreate := hgives tmr htmr
      simp only [startConnection, hfind, if_pos hurl, startSocket, Option.bind_eq_bind, hc,
        Option.bind_some, createOnce, hcreate]
      simp [Load.setConn, hget, startedRecord, startRecord, Load.started, Totals.up]
    · exact hgood (by simp [startedRecord]) (by simp [startedRecord]) rfl rfl rfl rfl hcall.held
    · obtain ⟨now', hnow'⟩ := exists_setNow s.timers.pc
      exact ⟨now', hpc'.trans hnow'.symm⟩
  · obtain rfl : wrote = true := hup
    refine ⟨{ timers with pc := setNow now' timers.pc }, bs', fun tmr htmr => ?_, ?_, ?_, hkeep⟩
    · have hcreate := hgives tmr htmr
      have hclock := readClock_gives (s := ({ s with timers := timers } : Load).setConn cnum
        (startRecord c urlNum now (nextTimer s.timers.mem))) (by rw [← hpc'] at hout; exact hout)
        now' tmr htmr
      simp only [startConnection, hfind, if_pos hurl, startSocket, Option.bind_eq_bind, hc,
        Option.bind_some, createOnce, hcreate]
      simp only [startRecord] at hclock
      rw [hclock]
      simp [Load.setConn, sendRequest, hget, startedRecord, startRecord, sentRecord,
        Load.started, Totals.up]
    · exact hgood (by simp [startedRecord, sentRecord]) (by simp [startedRecord, sentRecord]) rfl
        rfl rfl rfl (held_setNow hcall.held now')
    · exact ⟨now', by rw [hpc']⟩

/-! ### The procedures of the timers -/

/-- Timers are moved that name no connection. -/
lemma Ordered.beside {conns : List Connection} {E : Entries} (h : Ordered conns bs)
    (htab : Tab opt conns E) (moved : ℕ → Prop)
    (hmoved : ∀ x, moved x → ∀ n, Beside n (clientOf E x))
    (hfront : ∀ x y, ¬ moved x → ¬ moved y → Front bs x y → Front bs' x y) :
    Ordered conns bs' := by
  intro n w t hw ht
  have hn : n ≠ n + 1 := by omega
  refine hfront w t (fun hm => ?_) (fun hm => ?_) (h n w t hw ht)
  · exact (hmoved w hm (n + 1) n hn).2 ((htab.wake w n).mpr hw)
  · exact (hmoved t hm (n + 1) n hn).1 ((htab.idle t n).mpr ht)

/-- A procedure of the program itself, which names no connection. -/
def Apart (client : Client) : Prop := ∀ n, Beside n (some client)

lemma apart_start : Apart .startTimer := fun _ _ _ => ⟨by simp, by simp⟩

lemma apart_progress : Apart .progressReport := fun _ _ _ => ⟨by simp, by simp⟩

/-- The procedure of such a timer comes back. -/
lemma Good.ret (hg : Good opt s bs) {now : Time} {k t : ℕ} {next : Option ℕ}
    (hpc : s.timers.pc = .inProc now k t next) {e : Entry Client}
    (he : view s.timers.mem bs t = some e) (hcl : Apart e.client) :
    ∃ timers bs', Gives (fun tmr => timerCall tmr s .ret) { s with timers := timers } ∧
      Good opt { s with timers := timers } bs' := by
  obtain ⟨timers, bs', hcall, -⟩ := hg.held.ret hpc he
  refine ⟨timers, bs', call_gives hcall, hcall.held, ?_, ?_, hg.urls⟩
  · have hclient : clientOf (view s.timers.mem bs) t = some e.client := by simp [clientOf, he]
    have htab := hg.tab.entry (t := t)
      (e := if e.periodic then some { e with time := e.time.add e.msecs } else none)
      (.inr fun n => ⟨by rw [hclient]; exact hcl n, ?_⟩) fun e' he' => ?_
    · rwa [← hcall.view] at htab
    · split_ifs
      · exact hcl n
      · exact beside_none
    · split_ifs at he'
      · obtain rfl := Option.some.inj he'
        exact hg.tab.made t e he
      · cases he'
  · refine hg.ordered.beside hg.tab (· = t) ?_ hcall.front
    rintro x rfl n
    simpa [clientOf, he] using hcl n

/-- The program makes a timer of its own. -/
lemma Good.createApart (hg : Good opt s bs) (hout : s.timers.pc.outside = true) (now : Time)
    {client : Client} (hcl : Apart client) (msecs : ℤ)
    (hmade : Made opt ⟨client, msecs, false, now.add msecs⟩) :
    ∃ timers bs', Gives (fun tmr => createOnce tmr s now client msecs) { s with timers := timers } ∧
      Good opt { s with timers := timers } bs' ∧ timers.pc = s.timers.pc ∧
      ∀ x e, view s.timers.mem bs x = some e → view timers.mem bs' x = some e := by
  obtain ⟨timers, bs', hcall, hpc', hnone, -⟩ := hg.held.create hout now client msecs false
  refine ⟨timers, bs', call_gives hcall, ⟨hcall.held, ?_, ?_, hg.urls⟩, hpc', fun x e hx => ?_⟩
  · have hclient : clientOf (view s.timers.mem bs) (nextTimer s.timers.mem) = none := by
      simp [clientOf, hnone]
    have htab := hg.tab.entry (t := nextTimer s.timers.mem)
      (e := some ⟨client, msecs, false, now.add msecs⟩)
      (.inr fun n => ⟨by rw [hclient]; exact beside_none, hcl n⟩) fun e' he' => by
        obtain rfl := Option.some.inj he'
        exact hmade
    rwa [← hcall.view] at htab
  · refine hg.ordered.beside hg.tab (· = nextTimer s.timers.mem) ?_ hcall.front
    rintro x rfl n
    simpa [clientOf, hnone] using beside_none
  · have hne : x ≠ nextTimer s.timers.mem := by
      rintro rfl
      rw [hnone] at hx
      cases hx
    rw [hcall.view, Function.update_of_ne hne, hx]

/-- The slot that a timer names. -/
lemma exists_slot {f : Connection → Option ℕ} {conns : List Connection} {n t : ℕ}
    (h : own f conns n = some t) :
    ∃ c, conns[n]? = some c ∧ c.connState ≠ .free ∧ f c = some t := by
  obtain ⟨c, hc, ht⟩ := Option.bind_eq_some_iff.mp h
  unfold timerOf at ht
  split_ifs at ht with hfree
  exact ⟨c, hc, hfree, ht⟩

/-- `wakeup_connection`, and back. -/
lemma Good.wakeFire (hg : Good opt s bs) {now : Time} {k t : ℕ} {next : Option ℕ}
    (hpc : s.timers.pc = .inProc now k t next) {e : Entry Client}
    (he : view s.timers.mem bs t = some e) (hcl : e.client = .wakeupConnection cnum) :
    ∃ d timers bs', s.connections[cnum]? = some d ∧ d.connState ≠ .free ∧
      d.wakeupTimer = some t ∧
      LoadTable.wakeupConnection s cnum = some (s.setConn cnum (LoadModel.wakeupConnection d)) ∧
      Gives (fun tmr => timerCall tmr (s.setConn cnum (LoadModel.wakeupConnection d)) .ret)
        { s.setConn cnum (LoadModel.wakeupConnection d) with timers := timers } ∧
      Good opt { s.setConn cnum (LoadModel.wakeupConnection d) with timers := timers } bs' := by
  have hclient : clientOf (view s.timers.mem bs) t = some (.wakeupConnection cnum) := by
    simp [clientOf, he, hcl]
  obtain ⟨d, hd, hopen, hwake⟩ := exists_slot ((hg.tab.wake t cnum).mp hclient)
  obtain ⟨timers, bs', hcall, -⟩ := hg.held.ret hpc he
  have hper : e.periodic = false := by
    have hmade := hg.tab.made t e he
    simpa only [Made, hcl] using hmade
  rw [if_neg (by simp [hper])] at hcall
  refine ⟨d, timers, bs', hd, hopen, hwake, by simp [LoadTable.wakeupConnection, hd],
    call_gives (s := s.setConn cnum (LoadModel.wakeupConnection d)) hcall, hcall.held, ?_, ?_,
    urls_set hg.urls fun _ => hg.urls d (List.mem_of_getElem? hd) hopen⟩
  · have htab := hg.tab.wakeup hd hclient
    rwa [← hcall.view] at htab
  · refine hg.ordered.change hg.tab hd (· = t) ?_ hcall.front fun w x hw => ?_
    · rintro x rfl
      rw [hclient]
      exact beside_wake
    · simp [timerOf, LoadModel.wakeupConnection] at hw

/-- The connection was given up for being idle. -/
def Load.timedOut (s : Load) : Load :=
  { s with totals := { s.totals with totalTimeouts := s.totals.totalTimeouts + 1 } }

/-- `idle_connection`, and back. -/
lemma Good.idleFire (hg : Good opt s bs) {now : Time} {k t : ℕ} {next : Option ℕ}
    (hpc : s.timers.pc = .inProc now k t next) {e : Entry Client}
    (he : view s.timers.mem bs t = some e) (hcl : e.client = .idleConnection cnum) :
    ∃ d u timers₁ timers bs', s.connections[cnum]? = some d ∧ d.connState ≠ .free ∧
      s.urls[d.urlNum]? = some u ∧
      Gives (fun tmr => LoadTable.idleConnection tmr opt s cnum)
        (Load.timedOut (Load.closed opt s cnum { d with idleTimer := none } u timers₁)) ∧
      Gives (fun tmr => timerCall tmr
          (Load.timedOut (Load.closed opt s cnum { d with idleTimer := none } u timers₁)) .ret)
        (Load.timedOut (Load.closed opt s cnum { d with idleTimer := none } u timers)) ∧
      Good opt
        (Load.timedOut (Load.closed opt s cnum { d with idleTimer := none } u timers)) bs' := by
  have hclient : clientOf (view s.timers.mem bs) t = some (.idleConnection cnum) := by
    simp [clientOf, he, hcl]
  obtain ⟨d, hd, hopen, hidle⟩ := exists_slot ((hg.tab.idle t cnum).mp hclient)
  have hout : s.timers.pc.outside = true := by
    rw [hpc]
    rfl
  obtain ⟨u, hu⟩ : ∃ u, s.urls[d.urlNum]? = some u := by
    have hlt := hg.urls d (List.mem_of_getElem? hd) hopen
    exact ⟨_, List.getElem?_eq_getElem hlt⟩
  -- the timer that would wake the connection is not the next one of the list
  have hwake : ∀ w ∈ d.wakeupTimer, Spare (s.setConn cnum { d with idleTimer := none }) bs w := by
    intro w hw
    obtain ⟨e', he', -⟩ := hg.wake_entry hd hopen hw
    have hfront : Front bs w t := by
      refine hg.ordered cnum w t ?_ ?_
      · rw [own_eq hd]
        simpa [timerOf, hopen] using hw
      · rw [own_eq hd]
        simpa [timerOf, hopen] using hidle
    refine ⟨⟨e', he'⟩, fun now' k' v next' hpc' => ?_⟩
    obtain ⟨-, -, rfl, rfl⟩ := Pc.inProc.inj (hpc.symm.trans hpc')
    refine ⟨?_, hg.held.next_ne hpc hfront⟩
    rintro rfl
    exact hg.timers_ne hd hopen t hidle hw
  obtain ⟨timers₁, bs₁, hgives₁, hw₁, hpc₁⟩ :=
    close_gives opt (s := s.setConn cnum { d with idleTimer := none }) hg.held hout
      (getElem_setConn hd _) hu (by simp) hwake (by simp)
  rw [closed_setConn] at hgives₁
  have hnot : ¬ (none = some t ∨ d.wakeupTimer = some t) := by
    simpa using hg.timers_ne hd hopen t hidle
  have he₁ : view timers₁.mem bs₁ t = some e := (hw₁.kept t hnot).trans he
  obtain ⟨timers, bs', hcall, -⟩ := hw₁.held.ret (hpc₁.trans hpc) he₁
  have hper : e.periodic = false := by
    have hmade := hg.tab.made t e he
    simp only [Made, hcl] at hmade
    exact hmade.1
  rw [if_neg (by simp [hper])] at hcall
  have hgone : Without s.timers bs (fun x => d.idleTimer = some x ∨ d.wakeupTimer = some x) timers
      bs' := by
    refine ⟨hcall.held, fun x hx => ?_, fun x hx => ?_, fun x y hx hy hxy => ?_⟩
    · rw [hcall.view]
      by_cases hxt : x = t
      · rw [hxt, Function.update_self]
      · rw [Function.update_of_ne hxt]
        refine hw₁.gone x (.inr (hx.resolve_left fun hx => hxt ?_))
        exact Option.some.inj (hx.symm.trans hidle)
    · rw [not_or] at hx
      have hxt : x ≠ t := fun hxt => hx.1 (by rw [hxt]; exact hidle)
      rw [hcall.view, Function.update_of_ne hxt, hw₁.kept x (by simpa using hx.2)]
      rfl
    · rw [not_or] at hx hy
      refine hcall.front x y (fun hxt => hx.1 (by rw [hxt]; exact hidle))
        (fun hyt => hy.1 (by rw [hyt]; exact hidle)) (hw₁.front x y ?_ ?_ hxy)
      · simpa using hx.2
      · simpa using hy.2
  refine ⟨d, u, timers₁, timers, bs', hd, hopen, hu, fun tmr htmr => ?_, ?_, ?_⟩
  · have h₁ := hgives₁ tmr htmr
    beta_reduce at h₁
    simp only [LoadTable.idleConnection, Option.bind_eq_bind, hd, Option.bind_some, h₁,
      Load.timedOut]
  · exact call_gives
      (s := Load.timedOut (Load.closed opt s cnum { d with idleTimer := none } u timers₁)) hcall
  · refine hg.free hd hopen rfl rfl ?_ hgone
    simp [Load.timedOut, Load.closed]

end Good

end WeatherQuery.LoadSteps
