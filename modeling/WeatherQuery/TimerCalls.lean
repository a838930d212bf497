import WeatherQuery.TimerRun

/-!
The calls of `timers.c`, for a program on top of them.

A call changes the entry of one timer. The others keep theirs, and they keep their order: a timer
that is in front of another in a list stays there until one of the two is moved. The order is what
a procedure needs that cancels a timer, since `tmr_run` has the next one of the list in its hand.
-/

namespace WeatherQuery.TimerCalls

open WeatherQuery.TimerModel WeatherQuery.TimerLists WeatherQuery.TimerRun

variable {γ : Type}

/-- Where `tmr_run` is in the lists: `next` is behind the timer whose procedure is running. -/
def Within (bs : ℕ → List ℕ) : Pc → Prop
  | .idle => True
  | .scan _ h p => h < hashSize ∧ Points bs h p
  | .inProc _ h t next =>
    h < hashSize ∧ t ∈ bs h ∧ next ≠ some t ∧ Points bs h next ∧ ∀ n ∈ next, Front bs t n

structure Held (c : Sys γ) (bs : ℕ → List ℕ) : Prop where
  inv : ∃ fr, Inv c.mem bs fr []
  within : Within bs c.pc

/-- A call that is allowed, and has changed the entry of `t` to `e`. -/
structure Called (c : Sys γ) (bs : ℕ → List ℕ) (act : Act γ) (t : ℕ) (e : Option (Entry γ))
    (c' : Sys γ) (bs' : ℕ → List ℕ) : Prop where
  safe : safe c act = true
  step : step c act = some c'
  held : Held c' bs'
  view : view c'.mem bs' = Function.update (view c.mem bs) t e
  front : ∀ x y, x ≠ t → y ≠ t → Front bs x y → Front bs' x y

/-! ### Order -/

section Order

variable {bs bs' : ℕ → List ℕ} {t : ℕ}

lemma Within.insert {pc : Pc} (h : Within bs pc) (hb : Inserted bs bs' t) (ht : t ∉ actives bs) :
    Within bs' pc := by
  rcases pc with _ | ⟨now, k, p⟩ | ⟨now, k, u, next⟩
  · trivial
  · exact ⟨h.1, h.2.insert hb⟩
  · obtain ⟨hk, hu, hne, hpts, hfront⟩ := h
    have hother : ∀ z ∈ bs k, z ≠ t := by
      rintro z hz rfl
      exact ht (mem_actives.mpr ⟨k, hk, hz⟩)
    have huk : Points bs k (some u) := fun z hz => by
      obtain rfl : u = z := by simpa using hz
      exact hu
    exact ⟨hk, huk.insert hb u rfl, hne, hpts.insert hb, fun n hn =>
      (hfront n hn).insert hb (hother u hu) (hother n (hpts n hn))⟩

lemma Within.remove {pc : Pc} (h : Within bs pc) (hb : Removed bs bs' t) (hpc : pc.outside = true)
    (hx : ∀ now k u next, pc = .inProc now k u next → u ≠ t ∧ next ≠ some t) : Within bs' pc := by
  rcases pc with _ | ⟨now, k, p⟩ | ⟨now, k, u, next⟩
  · trivial
  · cases hpc
  · obtain ⟨hk, hu, hne, hpts, hfront⟩ := h
    obtain ⟨hut, hnt⟩ := hx now k u next rfl
    have huk : Points bs k (some u) := fun z hz => by
      obtain rfl : u = z := by simpa using hz
      exact hu
    refine ⟨hk, huk.remove hb (by simpa using hut) u rfl, hne, hpts.remove hb hnt, fun n hn => ?_⟩
    refine (hfront n hn).remove hb hut ?_
    rintro rfl
    exact hnt hn

end Order

/-! ### The calls -/

section Calls

variable {c : Sys γ} {bs : ℕ → List ℕ}

lemma view_eq_some {t : ℕ} {e : Entry γ} :
    view c.mem bs t = some e ↔ t ∈ actives bs ∧ entry (c.mem.cell t) = e := by
  simp [view]

lemma Held.listed (h : Held c bs) {t : ℕ} {e : Entry γ} (ht : view c.mem bs t = some e) :
    listed c.mem t = true := by
  obtain ⟨fr, hI⟩ := h.inv
  exact (listed_iff hI).mpr (view_eq_some.mp ht).1

/-- `tmr_create`: a new timer, in front of all that are not earlier. -/
lemma Held.create (h : Held c bs) (hpc : c.pc.outside = true) (now : Time) (client : γ) (msecs : ℤ)
    (periodic : Bool) :
    ∃ c' bs', Called c bs (.create now client msecs periodic true) (nextTimer c.mem)
        (some ⟨client, msecs, periodic, now.add msecs⟩) c' bs' ∧ c'.pc = c.pc ∧
      view c.mem bs (nextTimer c.mem) = none ∧
      ∀ y e, view c.mem bs y = some e → (now.add msecs).le e.time = true →
        Front bs' (nextTimer c.mem) y := by
  obtain ⟨fr, hI⟩ := h.inv
  rcases create_spec hI now client msecs periodic true with ⟨hno, -⟩ | ⟨t, m, bs', fr', hnew, hnot,
    hb, hI', he, hrest, rfl, hfront⟩
  · cases hno
  · refine ⟨{ c with mem := m }, bs', ⟨rfl, ?_, ⟨⟨fr', hI'⟩, h.within.insert hb hnot⟩, ?_, ?_⟩, rfl,
      if_neg hnot, fun y e hy hle => ?_⟩
    · simp [step, hpc, hnew]
    · rw [view_insert hb hrest, he]
    · exact fun x y hx hy hxy => hxy.insert hb hx hy
    · obtain ⟨hact, rfl⟩ := view_eq_some.mp hy
      exact hfront y hact hle

/-- `tmr_cancel` of a timer that is set. -/
lemma Held.cancel (h : Held c bs) (hpc : c.pc.outside = true) {t : ℕ} {e : Entry γ}
    (ht : view c.mem bs t = some e)
    (hx : ∀ now k u next, c.pc = .inProc now k u next → u ≠ t ∧ next ≠ some t) :
    ∃ c' bs', Called c bs (.cancel t) t none c' bs' ∧ c'.pc = c.pc := by
  obtain ⟨fr, hI⟩ := h.inv
  obtain ⟨bs', hb, hI', hdata⟩ := cancel_spec hI (view_eq_some.mp ht).1
  refine ⟨{ c with mem := tmrCancel c.mem t }, bs',
    ⟨?_, ?_, ⟨⟨_, hI'⟩, h.within.remove hb hpc hx⟩, ?_, ?_⟩, rfl⟩
  · simp only [safe, h.listed ht, Bool.true_and]
    rcases hc : c.pc with _ | ⟨now, k, p⟩ | ⟨now, k, u, next⟩
    · rfl
    · rfl
    · obtain ⟨hut, hnt⟩ := hx now k u next hc
      simp [hut.symm, hnt]
  · simp [step, hpc]
  · exact view_remove hb hI.actives_nodup fun x _ => (hdata x).1
  · exact fun x y hx hy hxy => hxy.remove hb hx hy

/-- `tmr_reset`, while `tmr_run` is not running. -/
lemma Held.reset (h : Held c bs) (hpc : c.pc = .idle) {t : ℕ} {e : Entry γ}
    (ht : view c.mem bs t = some e) (now : Time) :
    ∃ c' bs', Called c bs (.reset now t) t (some { e with time := now.add e.msecs }) c' bs' ∧
      c'.pc = c.pc := by
  obtain ⟨fr, hI⟩ := h.inv
  obtain ⟨hact, rfl⟩ := view_eq_some.mp ht
  obtain ⟨m, bs₁, bs', hres, hb, hb', hI', he, hrest⟩ :=
    resort_spec hI hact fun e => now.add e.msecs
  have hreset : tmrReset c.mem now t = some m := hres
  refine ⟨{ c with mem := m }, bs', ⟨?_, ?_, ⟨⟨fr, hI'⟩, ?_⟩, ?_, ?_⟩, rfl⟩
  · simp [safe, h.listed ht, hpc]
  · simp [step, hpc, Pc.outside, hreset]
  · rw [show ({ c with mem := m } : Sys γ).pc = .idle from hpc]
    trivial
  · rw [view_move hb hb' hI.actives_nodup hrest, he]
  · exact fun x y hx hy hxy => (hxy.remove hb hx hy).insert hb' hx hy

/-! ### `tmr_run` -/

lemma Held.nextList (h : Held c bs) (now : Time) (k : ℕ) :
    Held { c with pc := nextList c.mem now k } bs := by
  obtain ⟨fr, hI⟩ := h.inv
  refine ⟨⟨fr, hI⟩, ?_⟩
  unfold TimerModel.nextList
  split_ifs with hk
  · refine ⟨hk, fun t ht => ?_⟩
    rw [head_eq hI hk] at ht
    exact List.mem_of_head? ht
  · trivial

lemma Held.run (h : Held c bs) (now : Time) {c' : Sys γ} (hstep : step c (.run now) = some c') :
    c'.mem = c.mem ∧ Held c' bs := by
  unfold step at hstep
  rcases hc : c.pc with _ | ⟨now', k, p⟩ | ⟨now', k, u, next⟩ <;> simp [hc] at hstep
  subst hstep
  exact ⟨rfl, h.nextList now 0⟩

lemma Held.turn (h : Held c bs) {c' : Sys γ} (hstep : step c .turn = some c') :
    c'.mem = c.mem ∧ Held c' bs := by
  obtain ⟨fr, hI⟩ := h.inv
  have hwithin := h.within
  unfold step at hstep
  rcases hc : c.pc with _ | ⟨now, k, _ | t⟩ | ⟨now, k, u, next⟩
  · simp [hc] at hstep
  · obtain rfl : { c with pc := TimerModel.nextList c.mem now (k + 1) } = c' := by
      simpa [hc] using hstep
    exact ⟨rfl, h.nextList now (k + 1)⟩
  · rw [hc] at hwithin
    obtain ⟨hk, hpts⟩ := hwithin
    have ht : t ∈ bs k := hpts t rfl
    by_cases hgt : (c.mem.cell t).time.gt now = true
    · obtain rfl : { c with pc := TimerModel.nextList c.mem now (k + 1) } = c' := by
        simpa [hc, hgt] using hstep
      exact ⟨rfl, h.nextList now (k + 1)⟩
    · obtain rfl : { c with pc := .inProc now k t (c.mem.cell t).next } = c' := by
        simpa [hc, hgt] using hstep
      obtain ⟨xs, ys, hl⟩ := List.append_of_mem ht
      have hnd := hI.bucket_nodup hk
      have hchain := hI.chain k hk
      rw [hl] at hnd hchain
      have hnext : (c.mem.cell t).next = ys.head? := hchain.neighbours.2
      have hty : t ∉ ys := (List.nodup_cons.mp (List.nodup_append.mp hnd).2.1).1
      refine ⟨rfl, ⟨fr, hI⟩, hk, ht, ?_, ?_, ?_⟩
      · rw [hnext]
        exact fun h => hty (List.mem_of_head? h)
      · intro n hn
        rw [hnext] at hn
        rw [hl]
        exact List.mem_append_right _ (List.mem_cons_of_mem t (List.mem_of_head? hn))
      · intro n hn j hj htj hnj
        obtain rfl : j = k := hI.bucket_apart hj hk htj ht
        rw [hnext] at hn
        have hpair : [t, n].Sublist (t :: ys) :=
          (List.singleton_sublist.mpr (List.mem_of_head? hn)).cons_cons t
        rw [hl]
        exact hpair.trans (List.sublist_append_right xs _)
  · simp [hc] at hstep

/-- The procedure of `t` comes back. -/
lemma Held.ret (h : Held c bs) {now : Time} {k t : ℕ} {next : Option ℕ}
    (hpc : c.pc = .inProc now k t next) {e : Entry γ} (ht : view c.mem bs t = some e) :
    ∃ c' bs', Called c bs .ret t
        (if e.periodic then some { e with time := e.time.add e.msecs } else none) c' bs' ∧
      c'.pc = .scan now k next := by
  obtain ⟨fr, hI⟩ := h.inv
  obtain ⟨hact, rfl⟩ := view_eq_some.mp ht
  have hwithin := h.within
  rw [hpc] at hwithin
  obtain ⟨hk, -, hne, hpts, -⟩ := hwithin
  by_cases hper : (entry (c.mem.cell t)).periodic = true
  · obtain ⟨m, bs₁, bs', hres, hb, hb', hI', he, hrest⟩ :=
      resort_spec hI hact fun e => e.time.add e.msecs
    have hafter : afterProc c.mem t = some m := (if_pos hper).trans hres
    refine ⟨⟨m, .scan now k next⟩, bs',
      ⟨rfl, ?_, ⟨⟨fr, hI'⟩, hk, (hpts.remove hb hne).insert hb'⟩, ?_, ?_⟩, rfl⟩
    · simp [step, hpc, hafter]
    · rw [view_move hb hb' hI.actives_nodup hrest, he, if_pos hper]
    · exact fun x y hx hy hxy => (hxy.remove hb hx hy).insert hb' hx hy
  · obtain ⟨bs', hb, hI', hdata⟩ := cancel_spec hI hact
    have hafter : afterProc c.mem t = some (tmrCancel c.mem t) := if_neg hper
    refine ⟨⟨tmrCancel c.mem t, .scan now k next⟩, bs',
      ⟨rfl, ?_, ⟨⟨_, hI'⟩, hk, hpts.remove hb hne⟩, ?_, ?_⟩, rfl⟩
    · simp [step, hpc, hafter]
    · rw [view_remove hb hI.actives_nodup fun x _ => (hdata x).1, if_neg hper]
    · exact fun x y hx hy hxy => hxy.remove hb hx hy

/-- Nothing that is in front of the running timer is next. -/
lemma Held.next_ne (h : Held c bs) {now : Time} {k t : ℕ} {next : Option ℕ}
    (hpc : c.pc = .inProc now k t next) {w : ℕ} (hw : Front bs w t) : next ≠ some w := by
  rintro rfl
  obtain ⟨fr, hI⟩ := h.inv
  have hwithin := h.within
  rw [hpc] at hwithin
  obtain ⟨hk, ht, -, hpts, hfront⟩ := hwithin
  exact (hfront w rfl).asymm hI hk ht (hpts w rfl) hw

end Calls

end WeatherQuery.TimerCalls
