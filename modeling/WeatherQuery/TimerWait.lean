import WeatherQuery.TimerRun

/-!
How long the main loop may sleep.

`tmr_mstimeout` looks at the first timer of each list only, and counts in milliseconds with C's
division, which rounds up where the microseconds of the timer are the smaller ones. The sleep is
right to within a millisecond.
-/

namespace WeatherQuery.TimerWait

open WeatherQuery.TimerModel WeatherQuery.TimerLists WeatherQuery.TimerRun WeatherQuery.DLinked

variable {γ : Type}

/-- As `gettimeofday` gives it. -/
def Proper (t : Time) : Prop := 0 ≤ t.usec ∧ t.usec < 1000000

/-! ### Arithmetic -/

lemma tdiv_nonneg {x : ℤ} (h : 0 ≤ x) : x.tdiv 1000 = x / 1000 := Int.tdiv_eq_ediv_of_nonneg h

lemma tdiv_neg {x : ℤ} (h : x < 0) : x.tdiv 1000 = -((-x) / 1000) := by
  rw [← Int.tdiv_eq_ediv_of_nonneg (by omega), Int.neg_tdiv, neg_neg]

/-- Counted in milliseconds, a time is off by less than one of them. -/
lemma msUntil_near (now t : Time) :
    msUntil now t * 1000 < micros t - micros now + 1000 ∧
      micros t - micros now < msUntil now t * 1000 + 1000 := by
  unfold msUntil micros
  rcases le_or_gt 0 (t.usec - now.usec) with h | h
  · rw [tdiv_nonneg h]
    omega
  · rw [tdiv_neg h]
    omega

/-- A later time is not sooner in milliseconds. -/
lemma msUntil_mono {now a b : Time} (hnow : Proper now) (ha : Proper a) (hb : Proper b)
    (hab : a.le b = true) : msUntil now a ≤ msUntil now b := by
  obtain ⟨hn₁, hn₂⟩ := hnow
  obtain ⟨ha₁, ha₂⟩ := ha
  obtain ⟨hb₁, hb₂⟩ := hb
  rw [le_iff] at hab
  unfold msUntil
  rcases le_or_gt 0 (a.usec - now.usec) with h | h <;>
    rcases le_or_gt 0 (b.usec - now.usec) with h' | h' <;>
    simp only [tdiv_nonneg, tdiv_neg, h, h'] <;> omega

lemma Proper.add {t : Time} (ht : Proper t) {msecs : ℤ} (hms : 0 ≤ msecs) :
    Proper (t.add msecs) := by
  obtain ⟨h₁, h₂⟩ := ht
  have hmod : msecs.tmod 1000 = msecs % 1000 := Int.tmod_eq_emod_of_nonneg hms
  unfold Time.add Proper
  simp only [hmod]
  split_ifs with h
  · simp only [Int.tmod_eq_emod_of_nonneg (show 0 ≤ t.usec + msecs % 1000 * 1000 by omega)]
    omega
  · simp only
    omega

/-! ### Proper times -/

/-- Times come from `gettimeofday`, and no timer is set for a time before it. -/
def ProperAct : Act γ → Prop
  | .create now _ msecs _ _ => Proper now ∧ 0 ≤ msecs
  | .reset now _ => Proper now
  | _ => True

def ProperEntry (e : Entry γ) : Prop := Proper e.time ∧ 0 ≤ e.msecs

/-- Every timer in the lists has a proper time. -/
def AllProper (s : Timers γ) : Prop := ∀ t, listed s t = true → ProperEntry (entry (s.cell t))

/-- A call gives at most one timer new data, and the others are not more than they were. -/
lemma AllProper.change {s s' : Timers γ} {bs bs' : ℕ → List ℕ} {fr fr' : List ℕ}
    (h : AllProper s) (hI : Inv s bs fr []) (hI' : Inv s' bs' fr' []) {t : ℕ}
    (ht : t ∈ actives bs' → ProperEntry (entry (s'.cell t)))
    (hmem : ∀ x ∈ actives bs', x ≠ t → x ∈ actives bs)
    (hrest : ∀ x ≠ t, entry (s'.cell x) = entry (s.cell x)) : AllProper s' := by
  intro x hx
  have hx := (listed_iff hI').mp hx
  by_cases hxt : x = t
  · subst hxt
    exact ht hx
  · rw [hrest x hxt]
    exact h x ((listed_iff hI).mpr (hmem x hx hxt))

section Steps

variable {c c' : Sys γ} {bs : ℕ → List ℕ} {fr : List ℕ} (hI : Inv c.mem bs fr [])
  (hp : AllProper c.mem)
include hI hp

lemma AllProper.create {now : Time} {client : γ} {msecs : ℤ} {periodic malloc : Bool}
    (hnow : Proper now) (hms : 0 ≤ msecs)
    (h : step c (.create now client msecs periodic malloc) = some c') : AllProper c'.mem := by
  simp only [step, Option.ite_none_right_eq_some, Option.map_eq_some_iff] at h
  obtain ⟨-, r, hr, rfl⟩ := h
  rcases create_spec hI now client msecs periodic malloc with ⟨-, hnone⟩ | ⟨t, s', bs', fr', hsome,
    hnot, hb, hI', he, hrest, -⟩
  · obtain rfl : (c.mem, none) = r := Option.some.inj (hnone.symm.trans hr)
    exact hp
  · obtain rfl : (s', some t) = r := Option.some.inj (hsome.symm.trans hr)
    refine hp.change hI hI' (fun _ => ?_) (fun x hx hxt => ?_) hrest
    · rw [he]
      exact ⟨hnow.add hms, hms⟩
    · rw [hb.perm.mem_iff, List.mem_cons] at hx
      exact hx.resolve_left hxt

lemma AllProper.cancel {t : ℕ} (ht : t ∈ actives bs) : AllProper (tmrCancel c.mem t) := by
  obtain ⟨bs', hb, hI', hdata⟩ := cancel_spec hI ht
  have hsub : ∀ x ∈ actives bs', x ∈ actives bs := fun x hx => by
    rw [hb.perm.mem_iff]
    exact List.mem_cons_of_mem t hx
  refine hp.change (t := t) hI hI' (fun _ => ?_) (fun x hx _ => hsub x hx) fun x _ => (hdata x).1
  rw [(hdata t).1]
  exact hp t ((listed_iff hI).mpr ht)

lemma AllProper.resort {t : ℕ} (ht : t ∈ actives bs) {g : Entry γ → Time}
    (hg : ProperEntry (entry (c.mem.cell t)) → Proper (g (entry (c.mem.cell t)))) {m : Timers γ}
    (h : lResort (c.mem.set t fun x => { x with time := g (entry x) }) t = some m) :
    AllProper m := by
  obtain ⟨s', bs₁, bs', hres, hb, hb', hI', he, hrest⟩ := resort_spec hI ht g
  obtain rfl : s' = m := Option.some.inj (hres.symm.trans h)
  have hold := hp t ((listed_iff hI).mpr ht)
  refine hp.change hI hI' (fun _ => ?_) (fun x hx _ => ?_) hrest
  · rw [he]
    exact ⟨hg hold, hold.2⟩
  · rwa [hb'.perm.mem_iff, ← hb.perm.mem_iff] at hx

end Steps

lemma AllProper.step {c c' : Sys γ} {a : Sched γ} (hrel : Rel c a) (hp : AllProper c.mem)
    {act : Act γ} (hact : ProperAct act) (hsafe : safe c act = true)
    (h : TimerModel.step c act = some c') : AllProper c'.mem := by
  obtain ⟨bs, fr, hI, -, hat⟩ := hrel
  cases act with
  | create now client msecs periodic malloc => exact AllProper.create hI hp hact.1 hact.2 h
  | cancel t =>
    simp only [TimerModel.step, Option.ite_none_right_eq_some, Option.some.injEq] at h
    obtain ⟨-, rfl⟩ := h
    simp only [safe, Bool.and_eq_true] at hsafe
    exact AllProper.cancel hI hp ((listed_iff hI).mp hsafe.1)
  | reset now t =>
    simp only [TimerModel.step, Option.ite_none_right_eq_some, Option.map_eq_some_iff] at h
    obtain ⟨-, m, hm, rfl⟩ := h
    simp only [safe, Bool.and_eq_true] at hsafe
    have hnow : Proper now := hact
    exact AllProper.resort (g := fun e => now.add e.msecs) hI hp ((listed_iff hI).mp hsafe.1)
      (fun he => hnow.add he.2) hm
  | run now =>
    unfold TimerModel.step at h
    rcases hc : c.pc with _ | ⟨now', k, p⟩ | ⟨now', k, t, next⟩ <;> simp [hc] at h
    subst h
    exact hp
  | turn =>
    unfold TimerModel.step at h
    rcases hc : c.pc with _ | ⟨now', k, _ | t⟩ | ⟨now', k, t, next⟩ <;> simp [hc] at h
    · subst h
      exact hp
    · split_ifs at h <;> cases h <;> exact hp
  | clock now =>
    unfold TimerModel.step at h
    rcases hc : c.pc with _ | ⟨now', k, p⟩ | ⟨now', k, t, next⟩ <;> simp [hc] at h
    subst h
    exact hp
  | ret =>
    unfold TimerModel.step at h
    unfold At at hat
    rcases hc : c.pc with _ | ⟨now', k, p⟩ | ⟨now', k, t, next⟩
    · simp [hc] at h
    · simp [hc] at h
    · rw [hc] at hat
      simp only [hc, Option.map_eq_some_iff] at h
      obtain ⟨m, hm, rfl⟩ := h
      have ht := hat.2.2.1
      unfold afterProc at hm
      split_ifs at hm
      · exact AllProper.resort (g := fun e => e.time.add e.msecs) hI hp ht
          (fun he => he.1.add he.2) hm
      · cases hm
        exact AllProper.cancel hI hp ht

/-! ### The first of each list -/

/-- What the loop of `tmr_mstimeout` has found in the lists `hs`. -/
def Least (s : Timers γ) (now : Time) (hs : List ℕ) (msecs : Option ℤ) : Prop :=
  (∀ h ∈ hs, ∀ t ∈ s.timers h, ∃ m ∈ msecs, m ≤ msUntil now (s.cell t).time) ∧
    ∀ m ∈ msecs, ∃ h ∈ hs, ∃ t ∈ s.timers h, m = msUntil now (s.cell t).time

lemma Least.snoc {s : Timers γ} {now : Time} {hs : List ℕ} {msecs : Option ℤ}
    (hl : Least s now hs msecs) (h : ℕ) : Least s now (hs ++ [h]) (least s now msecs h) := by
  obtain ⟨hall, hone⟩ := hl
  unfold least
  rcases hh : s.timers h with _ | t
  · refine ⟨fun k hk t ht => ?_, fun m hm => ?_⟩
    · rcases List.mem_append.mp hk with hk | hk
      · exact hall k hk t ht
      · obtain rfl := List.mem_singleton.mp hk
        rw [hh] at ht
        cases ht
    · obtain ⟨k, hk, hrest⟩ := hone m hm
      exact ⟨k, List.mem_append_left _ hk, hrest⟩
  · rcases msecs with _ | msecs
    · refine ⟨fun k hk u hu => ⟨_, rfl, ?_⟩, fun m hm => ?_⟩
      · rcases List.mem_append.mp hk with hk | hk
        · obtain ⟨m, hm, -⟩ := hall k hk u hu
          cases hm
        · obtain rfl := List.mem_singleton.mp hk
          obtain rfl : t = u := by simpa [hh] using hu
          exact le_refl _
      · exact ⟨h, by simp, t, hh, (Option.some.inj hm).symm⟩
    · refine ⟨fun k hk u hu => ⟨_, rfl, ?_⟩, fun m hm => ?_⟩
      · rcases List.mem_append.mp hk with hk | hk
        · obtain ⟨m, hm, hle⟩ := hall k hk u hu
          obtain rfl : msecs = m := Option.some.inj hm
          split_ifs <;> omega
        · obtain rfl := List.mem_singleton.mp hk
          obtain rfl : t = u := by simpa [hh] using hu
          split_ifs <;> omega
      · obtain rfl := Option.some.inj hm
        split_ifs with hlt
        · exact ⟨h, by simp, t, hh, rfl⟩
        · obtain ⟨k, hk, hrest⟩ := hone msecs rfl
          exact ⟨k, List.mem_append_left _ hk, hrest⟩

lemma fold_least (s : Timers γ) (now : Time) (hs : List ℕ) :
    Least s now hs (hs.foldl (least s now) none) := by
  induction hs using List.reverseRecOn with
  | nil => exact ⟨by simp, by simp⟩
  | append_singleton hs h ih =>
    rw [List.foldl_append, List.foldl_cons, List.foldl_nil]
    exact ih.snoc h

/-! ### The sleep -/

section Sleep

variable {c : Sys γ} {bs : ℕ → List ℕ} {fr : List ℕ} (hI : Inv c.mem bs fr [])
include hI

/-- No timer is before the first of its list. -/
lemma head_least (hp : AllProper c.mem) {now : Time} (hnow : Proper now) {x : ℕ}
    (hx : listed c.mem x = true) :
    ∃ h < hashSize, ∃ t ∈ c.mem.timers h,
      msUntil now (c.mem.cell t).time ≤ msUntil now (c.mem.cell x).time := by
  obtain ⟨h, hh, hxh⟩ := mem_actives.mp ((listed_iff hI).mp hx)
  have hsorted := hI.sorted h hh
  have hhead := head_eq hI hh
  rcases hl : bs h with _ | ⟨t, l⟩
  · rw [hl] at hxh
    cases hxh
  · rw [hl] at hxh hsorted hhead
    refine ⟨h, hh, t, hhead, ?_⟩
    rcases List.mem_cons.mp hxh with rfl | hmem
    · exact le_refl _
    · have ht : t ∈ actives bs := mem_actives.mpr ⟨h, hh, by rw [hl]; exact List.mem_cons_self⟩
      exact msUntil_mono hnow (hp t ((listed_iff hI).mpr ht)).1 (hp x hx).1
        ((List.pairwise_cons.mp hsorted).1 x hmem)

lemma head_listed {h t : ℕ} (hh : h < hashSize) (ht : t ∈ c.mem.timers h) :
    listed c.mem t = true := by
  have hmem : t ∈ bs h := by
    rw [head_eq hI hh] at ht
    exact List.mem_of_head? ht
  exact (listed_iff hI).mpr (mem_actives.mpr ⟨h, hh, hmem⟩)

end Sleep

lemma run_proper (cell : ℕ → Timer γ) {acts : List (Act γ)} (hacts : ∀ act ∈ acts, ProperAct act)
    {c : Sys γ} (h : Runs.run (Runs.restrict safe step) ⟨tmrInit cell, .idle⟩ acts = some c) :
    (∃ a, Rel c a) ∧ AllProper c.mem := by
  have hinit : AllProper (tmrInit cell) := by
    intro t ht
    have hmem := (listed_iff (inv_init cell)).mp ht
    simp [actives] at hmem
  refine Runs.run_invariant (I := fun c => (∃ a, Rel c a) ∧ AllProper c.mem) ?_
    ⟨⟨empty, rel_init cell⟩, hinit⟩ hacts h
  rintro c act c' hact ⟨⟨a, hrel⟩, hp⟩ hstep
  obtain ⟨evs, a', -, hrel'⟩ := hrel.step hstep
  obtain ⟨hsafe, hstep⟩ := Runs.restrict_eq_some.mp hstep
  exact ⟨⟨a', hrel'⟩, hp.step hrel hact hsafe hstep⟩

/-- **The sleep is right to a millisecond.** In every state that safe calls at proper times can lead
to, `tmr_mstimeout` says `INFTIM` exactly when no timer is set; else the time it gives ends less
than a millisecond after the time of every timer, or after now, and less than a millisecond before
that of one. -/
theorem timeout_near (cell : ℕ → Timer γ) {acts : List (Act γ)}
    (hacts : ∀ act ∈ acts, ProperAct act) {c : Sys γ}
    (h : Runs.run (Runs.restrict safe step) ⟨tmrInit cell, .idle⟩ acts = some c) {now : Time}
    (hnow : Proper now) :
    (tmrMstimeout c.mem now = none ↔ ∀ t, listed c.mem t = false) ∧
      ∀ ms, tmrMstimeout c.mem now = some ms →
        0 ≤ ms ∧
        (∀ t, listed c.mem t = true →
          micros now + ms * 1000 < max (micros now) (micros (c.mem.cell t).time) + 1000) ∧
        ∃ t, listed c.mem t = true ∧
          max (micros now) (micros (c.mem.cell t).time) < micros now + ms * 1000 + 1000 := by
  obtain ⟨⟨a, bs, fr, hI, -⟩, hp⟩ := run_proper cell hacts h
  obtain ⟨hall, hone⟩ := fold_least c.mem now (List.range hashSize)
  have hlow : ∀ x, listed c.mem x = true →
      ∃ m ∈ (List.range hashSize).foldl (least c.mem now) none,
        m ≤ msUntil now (c.mem.cell x).time := by
    intro x hx
    obtain ⟨k, hk, t, ht, hle⟩ := head_least hI hp hnow hx
    obtain ⟨m, hm, hmle⟩ := hall k (List.mem_range.mpr hk) t ht
    exact ⟨m, hm, hmle.trans hle⟩
  unfold tmrMstimeout
  rcases hf : (List.range hashSize).foldl (least c.mem now) none with _ | m
  · rw [hf] at hlow
    refine ⟨⟨fun _ t => ?_, fun _ => rfl⟩, fun ms hms => by cases hms⟩
    by_contra ht
    obtain ⟨m, hm, -⟩ := hlow t (by simpa using ht)
    cases hm
  · rw [hf] at hlow hone
    obtain ⟨k, hk, t, ht, hmt⟩ := hone m rfl
    have hlisted := head_listed hI (List.mem_range.mp hk) ht
    refine ⟨⟨fun hno => (by cases hno), fun hno => ?_⟩, fun ms hms => ?_⟩
    · rw [hno t] at hlisted
      cases hlisted
    · obtain rfl : (if m ≤ 0 then 0 else m) = ms := Option.some.inj hms
      refine ⟨by split_ifs <;> omega, fun x hx => ?_, t, hlisted, ?_⟩
      · obtain ⟨m', hm', hle⟩ := hlow x hx
        obtain rfl : m = m' := Option.some.inj hm'
        have hnear := msUntil_near now (c.mem.cell x).time
        split_ifs <;> omega
      · have hnear := msUntil_near now (c.mem.cell t).time
        split_ifs <;> omega

/-- Of three timers the first is put off, the last is cancelled, and the first runs and sets
another. -/
def threeTimers : List (Act ℕ) :=
  [.create ⟨5, 500⟩ 1 1000 false true, .create ⟨5, 0⟩ 2 2000 true true,
    .create ⟨5, 0⟩ 3 3000 false true, .reset ⟨5, 200000⟩ 0, .cancel 2, .run ⟨6, 300000⟩] ++
  List.replicate 12 .turn ++ [.create ⟨6, 300000⟩ 4 400 false true, .ret] ++
  List.replicate 56 .turn

lemma threeTimers_proper : ∀ act ∈ threeTimers, ProperAct act := by
  simp [threeTimers, ProperAct, Proper]

/-- Of the two that are set then, the new one is three hundred milliseconds and a little ahead. -/
theorem timeout_near_threeTimers :
    ∃ c, Runs.run (Runs.restrict safe step) ⟨tmrInit blankCell, .idle⟩ threeTimers = some c ∧
      c.pc = .idle ∧ tmrMstimeout c.mem ⟨6, 399500⟩ = some 300 ∧
      (∀ t, listed c.mem t = true → micros ⟨6, 399500⟩ + 300 * 1000 <
        max (micros ⟨6, 399500⟩) (micros (c.mem.cell t).time) + 1000) ∧
      ∃ t, listed c.mem t = true ∧ max (micros ⟨6, 399500⟩) (micros (c.mem.cell t).time) <
        micros ⟨6, 399500⟩ + 300 * 1000 + 1000 := by
  have hall : (Runs.run (Runs.restrict safe step) ⟨tmrInit blankCell, .idle⟩ threeTimers).map
      (fun c => (c.pc, tmrMstimeout c.mem ⟨6, 399500⟩)) = some (.idle, some 300) := by
    decide +kernel
  obtain ⟨c, hc, hseen⟩ := Option.map_eq_some_iff.mp hall
  obtain ⟨hpc, hms⟩ := Prod.mk.inj hseen
  have hnow : Proper ⟨6, 399500⟩ := ⟨by decide, by decide⟩
  have hnear := (timeout_near blankCell threeTimers_proper hc hnow).2 300 hms
  exact ⟨c, hc, hpc, hms, hnear.2⟩

end WeatherQuery.TimerWait
