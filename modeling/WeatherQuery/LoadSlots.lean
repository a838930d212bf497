import WeatherQuery.LoadRead
import WeatherQuery.LoadTable
import WeatherQuery.Slots
import WeatherQuery.TimerCalls

/-!
The table of connections and the timers that belong to it.

A connection that is not free has a timer that gives it up, and one that pauses has a timer that
wakes it; no other timer names a connection. What the program does to a connection and to its timers
keeps this.
-/

namespace WeatherQuery.LoadSlots

open WeatherQuery.CText WeatherQuery.LoadModel WeatherQuery.LoadTable
open WeatherQuery.TimerModel (Time Timers Sys Pc nextTimer hashSize)
open WeatherQuery.TimerLists (Entry Front)
open WeatherQuery.TimerRun (safe view)
open WeatherQuery.TimerCalls

abbrev Entries := ℕ → Option (Entry Client)

/-- The timer in a field of a connection, unless it is free: then the field is left over. -/
def timerOf (f : Connection → Option ℕ) (c : Connection) : Option ℕ :=
  if c.connState = .free then none else f c

def own (f : Connection → Option ℕ) (conns : List Connection) (cnum : ℕ) : Option ℕ :=
  conns[cnum]?.bind (timerOf f)

def clientOf (E : Entries) (t : ℕ) : Option Client := (E t).map (·.client)

/-- The timers with the procedure `mk` are those in the field `f`. -/
def Names (f : Connection → Option ℕ) (mk : ℕ → Client) (conns : List Connection) (E : Entries) :
    Prop :=
  ∀ t cnum, clientOf E t = some (mk cnum) ↔ own f conns cnum = some t

/-- The timers a connection should have. -/
def Timed (c : Connection) : Prop :=
  c.connState ≠ .free →
    c.idleTimer.isSome = true ∧ (c.wakeupTimer.isSome = true ↔ c.connState = .pausing)

/-- Connections are started at a rate. -/
def Options.AtRate (opt : Options) : Prop :=
  ∃ limit interval doJitter, opt.start = .rate limit interval doJitter

/-- A timer as the program makes it, up to its time. -/
def Made (opt : Options) (e : Entry Client) : Prop :=
  match e.client with
  | .idleConnection _ => e.periodic = false ∧ e.msecs = opt.idleSecs * 1000
  | .wakeupConnection _ => e.periodic = false
  | .startTimer => Options.AtRate opt
  | .endTimer => ∃ n, opt.stop = .seconds n
  | .progressReport => True

/-- The slots and the timers name each other. -/
structure Tab (opt : Options) (conns : List Connection) (E : Entries) : Prop where
  idle : Names (·.idleTimer) .idleConnection conns E
  wake : Names (·.wakeupTimer) .wakeupConnection conns E
  timed : ∀ c ∈ conns, Timed c
  made : ∀ t e, E t = some e → Made opt e

/-! ### One slot -/

section Slot

variable {conns : List Connection} {cnum : ℕ} {c : Connection} {f : Connection → Option ℕ}
  {mk : ℕ → Client} {E : Entries}

lemma own_eq (hc : conns[cnum]? = some c) : own f conns cnum = timerOf f c := by
  simp [own, hc]

lemma own_set (hc : conns[cnum]? = some c) (c' : Connection) (n : ℕ) :
    own f (conns.set cnum c') n = if n = cnum then timerOf f c' else own f conns n := by
  obtain ⟨hlt, -⟩ := List.getElem?_eq_some_iff.mp hc
  unfold own
  rw [List.getElem?_set]
  by_cases hn : n = cnum
  · subst hn
    simp [hlt]
  · simp [hn, Ne.symm hn]

lemma clientOf_update (E : Entries) (t : ℕ) (e : Option (Entry Client)) (x : ℕ) :
    clientOf (Function.update E t e) x =
      if x = t then e.map (·.client) else clientOf E x := by
  by_cases hx : x = t
  · subst hx
    simp [clientOf]
  · simp [clientOf, hx]

/-- One slot is rewritten, and the timers of the others are left alone. -/
lemma Names.change (h : Names f mk conns E) (hc : conns[cnum]? = some c) {c' : Connection}
    {E' : Entries}
    (hother : ∀ t n, n ≠ cnum → (clientOf E' t = some (mk n) ↔ clientOf E t = some (mk n)))
    (hself : ∀ t, clientOf E' t = some (mk cnum) ↔ timerOf f c' = some t) :
    Names f mk (conns.set cnum c') E' := by
  intro t n
  rw [own_set hc]
  by_cases hn : n = cnum
  · subst hn
    rw [if_pos rfl]
    exact hself t
  · rw [if_neg hn, hother t n hn]
    exact h t n

lemma Names.own_iff (h : Names f mk conns E) (hc : conns[cnum]? = some c) (t : ℕ) :
    clientOf E t = some (mk cnum) ↔ timerOf f c = some t := by
  rw [h t cnum, own_eq hc]

end Slot

section Table

variable {opt : Options} {conns : List Connection} {cnum : ℕ} {c c' : Connection} {E E' : Entries}

/-- A client of no other slot than this one. -/
def Beside (cnum : ℕ) (o : Option Client) : Prop :=
  ∀ n ≠ cnum, o ≠ some (.idleConnection n) ∧ o ≠ some (.wakeupConnection n)

lemma beside_none : Beside cnum none := fun _ _ => ⟨by simp, by simp⟩

lemma beside_idle : Beside cnum (some (.idleConnection cnum)) := fun n hn => by
  simp [Ne.symm hn]

lemma beside_wake : Beside cnum (some (.wakeupConnection cnum)) := fun n hn => by
  simp [Ne.symm hn]

/-- One slot is rewritten, together with timers that name no other. -/
lemma Tab.rewrite (h : Tab opt conns E) (hc : conns[cnum]? = some c)
    (hE : ∀ x, E' x = E x ∨
      (Beside cnum (clientOf E x) ∧ Beside cnum (clientOf E' x) ∧ ∀ e, E' x = some e → Made opt e))
    (hidle : ∀ t, clientOf E' t = some (.idleConnection cnum) ↔ timerOf (·.idleTimer) c' = some t)
    (hwake : ∀ t, clientOf E' t = some (.wakeupConnection cnum) ↔
      timerOf (·.wakeupTimer) c' = some t)
    (htimed : Timed c') : Tab opt (conns.set cnum c') E' := by
  refine ⟨h.idle.change hc ?_ hidle, h.wake.change hc ?_ hwake, ?_, ?_⟩
  · intro t n hn
    rcases hE t with heq | ⟨hb, hb', -⟩
    · rw [clientOf, clientOf, heq]
    · simp [(hb n hn).1, (hb' n hn).1]
  · intro t n hn
    rcases hE t with heq | ⟨hb, hb', -⟩
    · rw [clientOf, clientOf, heq]
    · simp [(hb n hn).2, (hb' n hn).2]
  · intro d hd
    rcases List.mem_or_eq_of_mem_set hd with hd | rfl
    · exact h.timed d hd
    · exact htimed
  · intro t e he
    rcases hE t with heq | ⟨-, -, hmade⟩
    · exact h.made t e (heq ▸ he)
    · exact hmade e he

/-- A connection is given up, with its timers. -/
lemma Tab.close (h : Tab opt conns E) (hc : conns[cnum]? = some c) (hfree : c'.connState = .free)
    (hE : ∀ x, E' x =
      if timerOf (·.idleTimer) c = some x ∨ timerOf (·.wakeupTimer) c = some x then none else E x) :
    Tab opt (conns.set cnum c') E' := by
  have hnone : ∀ f, timerOf f c' = none := fun f => if_pos hfree
  have hclient : ∀ t, clientOf E' t =
      if clientOf E t = some (.idleConnection cnum) ∨ clientOf E t = some (.wakeupConnection cnum)
      then none else clientOf E t := by
    intro t
    simp only [h.idle.own_iff hc, h.wake.own_iff hc]
    unfold clientOf
    rw [hE t]
    split_ifs <;> rfl
  refine h.rewrite hc (fun x => ?_) (fun t => ?_) (fun t => ?_) fun hopen => absurd hfree hopen
  · by_cases hor : timerOf (·.idleTimer) c = some x ∨ timerOf (·.wakeupTimer) c = some x
    · have hx : E' x = none := (hE x).trans (if_pos hor)
      refine .inr ⟨?_, by simpa [clientOf, hx] using beside_none, by simp [hx]⟩
      rcases hor with hor | hor
      · rw [(h.idle.own_iff hc x).mpr hor]
        exact beside_idle
      · rw [(h.wake.own_iff hc x).mpr hor]
        exact beside_wake
    · exact .inl ((hE x).trans (if_neg hor))
  · rw [hclient, hnone]
    split_ifs with hor
    · simp
    · simpa using fun heq => hor (.inl heq)
  · rw [hclient, hnone]
    split_ifs with hor
    · simp
    · simpa using fun heq => hor (.inr heq)

/-- The entry of one timer of the slot is new, or gone. -/
lemma Tab.update (h : Tab opt conns E) (hc : conns[cnum]? = some c) {t : ℕ}
    {e : Option (Entry Client)} (hold : Beside cnum (clientOf E t))
    (hnew : Beside cnum (e.map (·.client))) (hmade : ∀ e' ∈ e, Made opt e')
    (hidle : ∀ x, (if x = t then e.map (·.client) = some (.idleConnection cnum)
      else timerOf (·.idleTimer) c = some x) ↔ timerOf (·.idleTimer) c' = some x)
    (hwake : ∀ x, (if x = t then e.map (·.client) = some (.wakeupConnection cnum)
      else timerOf (·.wakeupTimer) c = some x) ↔ timerOf (·.wakeupTimer) c' = some x)
    (htimed : Timed c') : Tab opt (conns.set cnum c') (Function.update E t e) := by
  refine h.rewrite hc (fun x => ?_) (fun x => ?_) (fun x => ?_) htimed
  · by_cases hx : x = t
    · subst hx
      refine .inr ⟨hold, ?_, fun e' he' => hmade e' ?_⟩
      · rw [clientOf_update, if_pos rfl]
        exact hnew
      · rwa [Function.update_self] at he'
    · exact .inl (Function.update_of_ne hx _ _)
  · rw [clientOf_update, ← hidle x]
    split_ifs
    · rfl
    · exact h.idle.own_iff hc x
  · rw [clientOf_update, ← hwake x]
    split_ifs
    · rfl
    · exact h.wake.own_iff hc x

/-- A connection is started in a free slot, with a new timer. -/
lemma Tab.start (h : Tab opt conns E) (hc : conns[cnum]? = some c) (hfree : c.connState = .free)
    (hopen : c'.connState ≠ .free) (hpause : c'.connState ≠ .pausing) {t : ℕ} (ht : E t = none)
    (hidle : c'.idleTimer = some t) (hwake : c'.wakeupTimer = none) (time : Time) :
    Tab opt (conns.set cnum c')
      (Function.update E t (some ⟨.idleConnection cnum, opt.idleSecs * 1000, false, time⟩)) := by
  have hclient : clientOf E t = none := by simp [clientOf, ht]
  refine h.update hc (by rw [hclient]; exact beside_none) beside_idle ?_ (fun x => ?_) (fun x => ?_)
    fun _ => by simp [hidle, hwake, hpause]
  · rintro e he
    obtain rfl := Option.some.inj he
    exact ⟨rfl, rfl⟩
  · by_cases hx : x = t
    · simp [timerOf, hopen, hidle, hx]
    · simp [timerOf, hfree, hopen, hidle, hx, Ne.symm hx]
  · by_cases hx : x = t <;> simp [timerOf, hfree, hopen, hwake, hx]

/-- A connection begins to pause, with a new timer. -/
lemma Tab.pause (h : Tab opt conns E) (hc : conns[cnum]? = some c) (hopen : c.connState ≠ .free)
    (hgo : c.connState ≠ .pausing) (hpause : c'.connState = .pausing) {w : ℕ} (hw : E w = none)
    (hidle : c'.idleTimer = c.idleTimer) (hwake : c'.wakeupTimer = some w) (time : Time) :
    Tab opt (conns.set cnum c')
      (Function.update E w (some ⟨.wakeupConnection cnum, 1000, false, time⟩)) := by
  have hclient : clientOf E w = none := by simp [clientOf, hw]
  obtain ⟨hset, hnone⟩ := h.timed c (List.mem_of_getElem? hc) hopen
  have hnone : c.wakeupTimer = none := by simpa [hgo] using hnone
  have hother : c.idleTimer ≠ some w := by
    intro heq
    have := (h.idle.own_iff hc w).mpr (by simp [timerOf, hopen, heq])
    rw [hclient] at this
    cases this
  refine h.update hc (by rw [hclient]; exact beside_none) beside_wake ?_ (fun x => ?_) (fun x => ?_)
    fun _ => by simp [hidle, hwake, hset, hpause]
  · rintro e he
    obtain rfl := Option.some.inj he
    exact rfl
  · by_cases hx : x = w <;> simp [timerOf, hopen, hpause, hidle, hx, hother]
  · by_cases hx : x = w
    · simp [timerOf, hpause, hwake, hx]
    · simp [timerOf, hpause, hwake, hnone, hx, Ne.symm hx]

/-- The pause of a connection ends, and its timer is gone. -/
lemma Tab.wakeup (h : Tab opt conns E) (hc : conns[cnum]? = some c) {w : ℕ}
    (hw : clientOf E w = some (.wakeupConnection cnum)) :
    Tab opt (conns.set cnum (LoadModel.wakeupConnection c)) (Function.update E w none) := by
  have hown := (h.wake.own_iff hc w).mp hw
  have hopen : c.connState ≠ .free := by
    intro hfree
    simp [timerOf, hfree] at hown
  have hwake : c.wakeupTimer = some w := by simpa [timerOf, hopen] using hown
  have hother : c.idleTimer ≠ some w := by
    intro heq
    have := (h.idle.own_iff hc w).mpr (by simp [timerOf, hopen, heq])
    rw [hw] at this
    cases this
  have hset := (h.timed c (List.mem_of_getElem? hc) hopen).1
  refine h.update hc (by rw [hw]; exact beside_wake) beside_none (by simp) (fun x => ?_)
    (fun x => ?_) fun _ => by simp [LoadModel.wakeupConnection, hset]
  · by_cases hx : x = w <;> simp [timerOf, hopen, LoadModel.wakeupConnection, hx, hother]
  · by_cases hx : x = w
    · simp [timerOf, LoadModel.wakeupConnection, hx]
    · simp [timerOf, LoadModel.wakeupConnection, hopen, hwake, hx, Ne.symm hx]

/-- A connection goes on, with its timers as they are. -/
lemma Tab.goOn (h : Tab opt conns E) (hc : conns[cnum]? = some c)
    (hfree : c'.connState = .free ↔ c.connState = .free)
    (hpause : c'.connState = .pausing ↔ c.connState = .pausing)
    (hidle : c'.idleTimer = c.idleTimer) (hwake : c'.wakeupTimer = c.wakeupTimer) :
    Tab opt (conns.set cnum c') E := by
  refine h.rewrite hc (fun x => .inl rfl) (fun t => ?_) (fun t => ?_) fun hopen => ?_
  · rw [h.idle.own_iff hc, timerOf, timerOf]
    simp only [hfree, hidle]
  · rw [h.wake.own_iff hc, timerOf, timerOf]
    simp only [hfree, hwake]
  · rw [ne_eq, hfree] at hopen
    rw [hidle, hwake, hpause]
    exact h.timed c (List.mem_of_getElem? hc) hopen

/-- A timer that keeps its client, or names no connection before and after. -/
lemma Tab.entry (h : Tab opt conns E) {t : ℕ} {e : Option (Entry Client)}
    (hE : e.map (·.client) = clientOf E t ∨
      ∀ n, Beside n (clientOf E t) ∧ Beside n (e.map (·.client)))
    (hmade : ∀ e' ∈ e, Made opt e') : Tab opt conns (Function.update E t e) := by
  have hsame : ∀ x n, (clientOf (Function.update E t e) x = some (.idleConnection n) ↔
      clientOf E x = some (.idleConnection n)) ∧
      (clientOf (Function.update E t e) x = some (.wakeupConnection n) ↔
        clientOf E x = some (.wakeupConnection n)) := by
    intro x n
    rw [clientOf_update]
    split_ifs with hx
    · subst hx
      rcases hE with heq | hE
      · rw [heq]
        exact ⟨Iff.rfl, Iff.rfl⟩
      · obtain ⟨hb, hb'⟩ := hE (n + 1)
        have hn : n ≠ n + 1 := by omega
        simp [hb n hn, hb' n hn]
    · exact ⟨Iff.rfl, Iff.rfl⟩
  refine ⟨fun x n => (hsame x n).1.trans (h.idle x n), fun x n => (hsame x n).2.trans (h.wake x n),
    h.timed, fun x e' he' => ?_⟩
  by_cases hx : x = t
  · subst hx
    rw [Function.update_self] at he'
    exact hmade e' he'
  · rw [Function.update_of_ne hx] at he'
    exact h.made x e' he'

end Table

end WeatherQuery.LoadSlots
