import WeatherQuery.ServerSteps

/-!
The backlog of `listenfd`, whose readiness is reported once for every arrival and not again.

`main` takes one report for all connections that are there and accepts until `EAGAIN`. It leaves
the accept loop after any other error as well, and what is in the backlog then waits for a
readiness event that nothing but another arrival brings.
-/

namespace WeatherQuery.ServerBacklog

open WeatherQuery.ServerModel WeatherQuery.ServerSteps

/-- `main` is in the accept loop. -/
def inAccept : MainPc → Bool
  | .accepting | .registering _ => true
  | .waiting | .walking | .stopped => false

/-- The step does not leave the accept loop by an error while connections are left and no
readiness event is pending. -/
def drains (s : St) : Act → Bool
  | .acceptFails aborted => s.backlog ≤ aborted.toNat || s.pending
  | _ => true

/-- Somebody is going to look at the backlog, unless it is empty. -/
structure Covered (s : St) : Prop where
  cover : s.backlog = 0 ∨ s.pending = true ∨ .listenfd ∈ s.batch ∨ inAccept s.main = true
  idle : s.main = .waiting → s.batch = []

section Steps

variable {s t : St} {a : Act}

/-- Outside the accept loop. -/
lemma Covered.outside (h : Covered s) (hm : inAccept s.main = false) :
    s.backlog = 0 ∨ s.pending = true ∨ .listenfd ∈ s.batch := by
  rcases h.cover with hb | hp | hl | hacc
  · exact .inl hb
  · exact .inr (.inl hp)
  · exact .inr (.inr hl)
  · rw [hm] at hacc
    cases hacc

/-- A client's entry is walked. -/
lemma Covered.client (h : Covered s) {c : Conn} {sound : Bool} {rest : List Ready}
    (hm : s.main = .walking) (hb : s.batch = .client c sound :: rest) :
    s.backlog = 0 ∨ s.pending = true ∨ .listenfd ∈ rest ∨ inAccept s.main = true := by
  refine (h.outside (by rw [hm]; rfl)).imp id (Or.imp id fun hl => .inl ?_)
  rw [hb] at hl
  exact (List.mem_cons.mp hl).resolve_left nofun

/-- **Every step** that drains keeps the backlog covered. -/
theorem Covered.step (h : Covered s) (hd : drains s a = true) (ht : Trans s a t) : Covered t := by
  have walking (hm : s.main = .walking) {p : Prop} (hw : s.main = .waiting) : p :=
    absurd (hm.symm.trans hw) nofun
  cases ht with
  | arrive => exact ⟨.inr (.inl rfl), h.idle⟩
  | @report evs hm hr =>
    refine ⟨?_, fun hw => nomatch hw⟩
    by_cases hl : Ready.listenfd ∈ evs
    · exact .inr (.inr (.inl hl))
    · rcases h.outside (by rw [hm]; rfl) with hb | hp | hbatch
      · exact .inl hb
      · exact .inr (.inl (by simp [report, hp, hl]))
      · rw [h.idle hm] at hbatch
        cases hbatch
  | timeout hm => exact h
  | waitFails hm =>
    exact ⟨(h.outside (by rw [hm]; rfl)).imp id (Or.imp id .inl), fun hw => nomatch hw⟩
  | accept hm hb hfd => exact ⟨.inr (.inr (.inr rfl)), fun hw => nomatch hw⟩
  | acceptAgain hm hb => exact ⟨.inl hb, fun hw => nomatch hw⟩
  | acceptFails hm =>
    refine ⟨?_, fun hw => nomatch hw⟩
    simp only [drains, Bool.or_eq_true, decide_eq_true_eq] at hd
    rcases hd with hle | hp
    · exact .inl (Nat.sub_eq_zero_of_le hle)
    · exact .inr (.inl hp)
  | register hm => exact ⟨.inr (.inr (.inr rfl)), fun hw => nomatch hw⟩
  | registerFails hm => exact ⟨.inr (.inr (.inr rfl)), fun hw => nomatch hw⟩
  | listen hm hb => exact ⟨.inr (.inr (.inr rfl)), fun hw => nomatch hw⟩
  | unsound hm hb => exact ⟨h.client hm hb, walking hm⟩
  | added hm hb => exact ⟨h.client hm hb, walking hm⟩
  | refused hm hb => exact ⟨h.client hm hb, walking hm⟩
  | walked hm hb =>
    exact ⟨(h.outside (by rw [hm]; rfl)).imp id (Or.imp id .inl), fun _ => hb⟩
  | take hc hi => exact ⟨h.cover, h.idle⟩
  | use hi ht => exact ⟨h.cover, h.idle⟩
  | close hi ht => exact ⟨h.cover, h.idle⟩
  | finish hi ht hr => exact ⟨h.cover, h.idle⟩
  | drop hm hc => exact ⟨h.cover, h.idle⟩

end Steps

lemma Covered.start (n backlog : ℕ) : Covered (start n backlog) where
  cover := by
    by_cases h : backlog = 0
    · exact .inl h
    · exact .inr (.inl (by simp [ServerModel.start, h]))
  idle := fun _ => rfl

theorem reachesBy_covered {n backlog : ℕ} {s : St} (h : ReachesBy drains n backlog s) :
    Covered s := by
  obtain ⟨as, has⟩ := h
  refine Runs.run_keeps (fun s a t hs hst => ?_) (Covered.start n backlog) has
  obtain ⟨hdrains, hst⟩ := Runs.restrict_eq_some.mp hst
  exact Covered.step hs hdrains (step_trans hst)

/-! ### The way to a stranded connection -/

/-- `listenfd` is in a batch once at most, and not any more when its entry has been walked. -/
structure Once (s : St) : Prop where
  count : s.batch.count .listenfd ≤ 1
  inside : inAccept s.main = true → .listenfd ∉ s.batch

lemma Once.step {s t : St} {a : Act} (h : Once s) (ht : Trans s a t) : Once t := by
  have walked {c : Conn} {sound : Bool} {rest : List Ready} (hm : s.main = .walking)
      (hb : s.batch = .client c sound :: rest) :
      rest.count .listenfd ≤ 1 ∧ (inAccept s.main = true → .listenfd ∉ rest) := by
    have hne : Ready.client c sound ≠ .listenfd := nofun
    have hcount := h.count
    rw [hb, List.count_cons_of_ne hne] at hcount
    exact ⟨hcount, fun hacc => by rw [hm] at hacc; cases hacc⟩
  cases ht with
  | report hm hr => exact ⟨hr.2.2.2.trans (Bool.toNat_le _), fun hacc => nomatch hacc⟩
  | waitFails hm => exact ⟨h.count, fun hacc => nomatch hacc⟩
  | accept hm hb hfd => exact ⟨h.count, fun _ => h.inside (by rw [hm]; rfl)⟩
  | acceptAgain hm hb => exact ⟨h.count, fun hacc => nomatch hacc⟩
  | acceptFails hm => exact ⟨h.count, fun hacc => nomatch hacc⟩
  | register hm => exact ⟨h.count, fun _ => h.inside (by rw [hm]; rfl)⟩
  | registerFails hm => exact ⟨h.count, fun _ => h.inside (by rw [hm]; rfl)⟩
  | listen hm hb =>
    have hcount := h.count
    rw [hb, List.count_cons_self] at hcount
    have hzero := List.count_eq_zero.mp (Nat.le_zero.mp (Nat.le_of_succ_le_succ hcount))
    exact ⟨(List.count_eq_zero.mpr hzero).trans_le zero_le_one, fun _ => hzero⟩
  | unsound hm hb => exact ⟨(walked hm hb).1, (walked hm hb).2⟩
  | added hm hb => exact ⟨(walked hm hb).1, (walked hm hb).2⟩
  | refused hm hb => exact ⟨(walked hm hb).1, (walked hm hb).2⟩
  | walked hm hb => exact ⟨h.count, fun hacc => nomatch hacc⟩
  | _ => exact ⟨h.count, h.inside⟩

lemma reaches_once {n backlog : ℕ} {s : St} (h : Reaches n backlog s) : Once s := by
  obtain ⟨as, has⟩ := h
  exact Runs.run_keeps (fun s a t hs hst => Once.step hs (step_trans hst))
    ⟨Nat.zero_le _, fun _ => List.not_mem_nil⟩ has

/-- `main` walks its batch. -/
def Walks : Act → Prop
  | .walk _ | .walked => True
  | _ => False

/-- Walking has nothing to do with the backlog. -/
lemma walks_backlog {s t : St} {as : List Act} (has : ∀ a ∈ as, Walks a)
    (h : Runs.run step s as = some t) : t.backlog = s.backlog ∧ t.pending = s.pending := by
  refine Runs.run_invariant (I := fun t => t.backlog = s.backlog ∧ t.pending = s.pending) ?_
    ⟨rfl, rfl⟩ has h
  rintro r a t ha ⟨hb, hp⟩ hst
  cases step_trans hst with
  | listen | unsound | added | refused | walked => exact ⟨hb, hp⟩
  | _ => exact ha.elim

/-- With clients only in its batch, `main` walks back to `My_epoll_wait`. -/
lemma walk_out {s : St} (hm : s.main = .walking) (hl : .listenfd ∉ s.batch) :
    ∃ as t, (∀ a ∈ as, Walks a) ∧ Runs.run step s as = some t ∧ t.main = .waiting := by
  induction hb : s.batch generalizing s with
  | nil =>
    exact ⟨[.walked], { s with main := .waiting }, by simp [Walks],
      by simp [Runs.run, step, hm, hb], rfl⟩
  | cons e rest ih =>
    rcases e with _ | ⟨c, sound⟩
    · exact absurd (by rw [hb]; exact List.mem_cons_self) hl
    · obtain ⟨t₁, hstep, hm₁, hb₁⟩ : ∃ t₁, step s (.walk true) = some t₁ ∧
          t₁.main = .walking ∧ t₁.batch = rest := by
        cases sound with
        | true =>
          exact ⟨{ s with batch := rest, queue := s.queue ++ [c] },
            by simp [step, walkStep, hm, hb], hm, rfl⟩
        | false =>
          exact ⟨{ s with batch := rest }.close c, by simp [step, walkStep, hm, hb], hm, rfl⟩
      have hl₁ : .listenfd ∉ t₁.batch := fun hmem =>
        hl (by rw [hb]; exact List.mem_cons_of_mem _ (hb₁ ▸ hmem))
      obtain ⟨as, t, has, hrun, hwait⟩ := ih hm₁ hl₁ hb₁
      exact ⟨.walk true :: as, t, List.forall_mem_cons.mpr ⟨trivial, has⟩,
        Runs.run_cons_iff.mpr ⟨t₁, hstep, hrun⟩, hwait⟩

/-- **Stranded connections.** As long as no error ends the accept loop with connections left and
no readiness event pending, `main` never waits on a backlog that nobody reports; and exactly after
such an error does walking the rest of its batch bring `main` to wait on one. -/
theorem stranded_only_by_error (n backlog : ℕ) (s : St) :
    (ReachesBy drains n backlog s → s.main = .waiting → s.backlog = 0 ∨ s.pending = true) ∧
    ∀ aborted : Bool, Reaches n backlog s → s.main = .accepting →
      (drains s (.acceptFails aborted) = false ↔
        ∃ as t, (∀ a ∈ as, Walks a) ∧ Runs.run step s (.acceptFails aborted :: as) = some t ∧
          t.main = .waiting ∧ t.backlog ≠ 0 ∧ t.pending = false) := by
  refine ⟨fun h hm => ?_, fun aborted h hm => ?_⟩
  · have hcov := reachesBy_covered h
    rcases hcov.outside (by rw [hm]; rfl) with hb | hp | hl
    · exact .inl hb
    · exact .inr hp
    · rw [hcov.idle hm] at hl
      cases hl
  · set s₁ : St := { s with main := .walking, backlog := s.backlog - aborted.toNat } with hs₁
    have hstep : step s (.acceptFails aborted) = some s₁ := by simp only [step, hm, if_true, hs₁]
    simp only [drains, Bool.or_eq_false_iff, decide_eq_false_iff_not, not_le]
    constructor
    · rintro ⟨hback, hpend⟩
      have hl : .listenfd ∉ s₁.batch := (reaches_once h).inside (by rw [hm]; rfl)
      obtain ⟨as, t, has, hrun, hwait⟩ := walk_out (s := s₁) rfl hl
      obtain ⟨hback', hpend'⟩ := walks_backlog has hrun
      refine ⟨as, t, has, Runs.run_cons_iff.mpr ⟨s₁, hstep, hrun⟩, hwait, ?_, hpend'.trans hpend⟩
      rw [hback']
      exact Nat.sub_ne_zero_of_lt hback
    · rintro ⟨as, t, has, hrun, -, hback, hpend⟩
      obtain ⟨s₂, hstep', hrun⟩ := Runs.run_cons_iff.mp hrun
      obtain rfl : s₁ = s₂ := Option.some.inj (hstep.symm.trans hstep')
      obtain ⟨hback', hpend'⟩ := walks_backlog has hrun
      rw [hback'] at hback
      exact ⟨Nat.lt_of_sub_ne_zero hback, hpend'.symm.trans hpend⟩

/-- One client of two is accepted, and `main` is about to accept the other. -/
def halfway : St where
  main := .accepting
  batch := []
  backlog := 1
  pending := false
  opened := [⟨7, 0⟩]
  armed := [⟨7, 0⟩]
  queue := []
  workers := [none]
  lost := []
  calls := []
  gens := 1

def toHalfway : List Act := [.epollWait [.listenfd], .walk true, .accept 7, .epollAdd true]

lemma halfway_reaches : Reaches 1 2 halfway := ⟨toHalfway, by decide⟩

/-- The only client is accepted, and another arrives right after `EAGAIN`. -/
def late : St := { halfway with main := .waiting, pending := true }

lemma late_reaches : ReachesBy drains 1 1 late :=
  ⟨toHalfway ++ [.acceptAgain, .arrive, .walked], by decide⟩

theorem stranded_only_by_error_late :
    (late.backlog = 0 ∨ late.pending = true) ∧
      ∃ as t, (∀ a ∈ as, Walks a) ∧ Runs.run step halfway (.acceptFails false :: as) = some t ∧
        t.main = .waiting ∧ t.backlog ≠ 0 ∧ t.pending = false :=
  ⟨(stranded_only_by_error 1 1 late).1 late_reaches rfl,
    ((stranded_only_by_error 1 2 halfway).2 false halfway_reaches rfl).mp (by decide)⟩

/-- `accept` fails for want of descriptors. The second client waits, and nothing tells `main` of
it. -/
theorem stranded_starved :
    Runs.run step (start 1 2) (toHalfway ++ [.acceptFails false, .walked]) =
        some { halfway with main := .waiting } ∧
      halfway.backlog ≠ 0 ∧ halfway.pending = false := by
  decide

end WeatherQuery.ServerBacklog
