import WeatherQuery.ServerOwnership

/-!
Connections that nobody closes.

`accept_request` returns without a close when it refuses the method and when `stat` fails; `main`
does nothing for a connection that `epoll_ctl` did not register or whose task `threadpool_add`
refused, and `threadpool_free` releases a task without a look at its argument. Where none of this
happens, the open connections are those that somebody owns.
-/

namespace WeatherQuery.ServerLeak

open WeatherQuery.Traced WeatherQuery.HttpModel WeatherQuery.HttpCalls
open WeatherQuery.ServerModel WeatherQuery.ServerSteps WeatherQuery.ServerOwnership

/-- The step gives no connection up: the connection is registered, the task is added and is not
released with the pool, and the request, if it returns, is one that is served. -/
def keeps (s : St) : Act → Bool
  | .epollAdd ok => ok
  | .walk added =>
    match s.batch with
    | .client _ true :: _ => added
    | _ => true
  | .take _ _ host fuel w => !(acceptRequest host fuel w).val.isSome || Served host w
  | .drop _ => false
  | _ => true

/-! ### One request -/

/-- How often a request that returns closes its socket. -/
lemma count_close {host : Host} {fuel : ℕ} {w : World}
    (h : (acceptRequest host fuel w).val.isSome = true) :
    (acceptRequest host fuel w).log.count .close = if Served host w then 1 else 0 := by
  obtain ⟨es, hes, hlog⟩ := acceptRequest_closes host fuel w
  have hzero : es.count .close = 0 := List.count_eq_zero.mpr fun hmem => hes _ hmem rfl
  rw [hlog, h, Bool.true_and, List.count_append, hzero]
  split_ifs <;> simp

/-! ### The server -/

/-- Nothing is lost, and every running request that will return closes its socket. -/
structure Kept (s : St) : Prop where
  lost : s.lost = []
  closes : ∀ job, some job ∈ s.workers → job.returns = true →
    job.closed = true ∨ SockOp.close ∈ job.todo

section Steps

variable {s t : St} {a : Act}

lemma closes_set (h : Kept s) (i : ℕ) {o : Option Job}
    (ho : ∀ job, o = some job → job.returns = true → job.closed = true ∨ SockOp.close ∈ job.todo) :
    ∀ job, some job ∈ s.workers.set i o → job.returns = true →
      job.closed = true ∨ SockOp.close ∈ job.todo := by
  intro job hjob
  rcases List.mem_or_eq_of_mem_set hjob with hmem | heq
  · exact h.closes job hmem
  · exact ho job heq.symm

lemma startJob_closes {host : Host} {fuel : ℕ} {w : World} (c : Conn)
    (h : (!(acceptRequest host fuel w).val.isSome || Served host w) = true)
    (hr : (startJob c (acceptRequest host fuel w)).returns = true) :
    SockOp.close ∈ (startJob c (acceptRequest host fuel w)).todo := by
  have hval : (acceptRequest host fuel w).val.isSome = true := hr
  have hserved : Served host w = true := by simpa [hval] using h
  have hcount := count_close hval
  rw [if_pos hserved] at hcount
  exact List.mem_filterMap.mpr ⟨.close, List.count_pos_iff.mp (by omega), rfl⟩

/-- **Nothing is lost** by a step that keeps. -/
theorem Kept.step (h : Kept s) (hk : keeps s a = true) (ht : Trans s a t) : Kept t := by
  cases ht with
  | registerFails hm => cases hk
  | drop hm hc => cases hk
  | refused hm hb =>
    simp only [keeps, hb] at hk
    cases hk
  | take hc hi =>
    refine ⟨h.lost, closes_set h _ ?_⟩
    rintro job ⟨⟩ hr
    exact .inr (startJob_closes _ hk hr)
  | use hi ht =>
    refine ⟨h.lost, closes_set h _ ?_⟩
    rintro job ⟨⟩ hr
    refine (h.closes _ (List.mem_of_getElem? hi) hr).imp id fun hmem => ?_
    rw [ht] at hmem
    exact (List.mem_cons.mp hmem).resolve_left nofun
  | close hi ht =>
    refine ⟨h.lost, closes_set h _ ?_⟩
    rintro job ⟨⟩ _
    exact .inl rfl
  | finish hi ht hr =>
    have hclosed : _ = true := (h.closes _ (List.mem_of_getElem? hi) hr).resolve_right
      (by simp [ht])
    refine ⟨by simp only [hclosed, if_true]; exact h.lost, closes_set h _ fun _ hnone => ?_⟩
    cases hnone
  | _ => exact ⟨h.lost, h.closes⟩

end Steps

lemma Kept.start (n backlog : ℕ) : Kept (start n backlog) where
  lost := rfl
  closes := by simp [ServerModel.start]

theorem reachesBy_kept {n backlog : ℕ} {s : St} (h : ReachesBy keeps n backlog s) :
    Owned s ∧ Kept s := by
  obtain ⟨as, has⟩ := h
  refine Runs.run_keeps (I := fun s => Owned s ∧ Kept s) (fun s a t hs hst => ?_)
    ⟨Owned.start n backlog, Kept.start n backlog⟩ has
  obtain ⟨hkeeps, hst⟩ := Runs.restrict_eq_some.mp hst
  exact ⟨hs.1.step (step_trans hst), hs.2.step hkeeps (step_trans hst)⟩

/-- What is lost is open, and nobody will close it. -/
lemma lost_opened {s : St} (h : Owned s) {c : Conn} (hc : c ∈ s.lost) :
    c ∈ s.opened ∧ c ∉ s.held := by
  have hpos := List.count_pos_iff.mpr hc
  have hbal := h.balance c
  have hone := h.count_le_one c
  exact ⟨List.count_pos_iff.mp (by omega), List.count_eq_zero.mp (by omega)⟩

lemma refused_lost {s t : St} {c : Conn} {rest : List Ready} (hb : s.batch = .client c true :: rest)
    (h : step s (.walk false) = some t) : c ∈ t.lost := by
  cases step_trans h with
  | listen hm hb' => rw [hb] at hb'; cases hb'
  | unsound hm hb' => rw [hb] at hb'; cases hb'
  | refused hm hb' =>
    rw [hb] at hb'
    cases hb'
    exact List.mem_cons_self

lemma dropped_lost {s t : St} {c : Conn} (h : step s (.drop c) = some t) : c ∈ t.lost := by
  cases step_trans h with
  | drop hm hc => exact List.mem_cons_self

/-- **Leaks.** A request that returns closes its socket exactly once if and only if its method
passes and its file is there. When `threadpool_add` refuses a task, or `threadpool_free` releases
it, its connection stays open and nobody holds it. In a run whose returning requests are all served,
in which every registration and every `threadpool_add` succeeds and no task is released with the
pool, the open connections are those that `main`, epoll, the batch, the queue and the workers
hold. -/
theorem open_eq_owned (host : Host) (fuel : ℕ) (w : World) (n backlog : ℕ) (s : St) :
    ((acceptRequest host fuel w).val.isSome = true →
      ((acceptRequest host fuel w).log.count .close = 1 ↔ Served host w = true)) ∧
    (∀ (t : St) (c : Conn) (rest : List Ready), Reaches n backlog s →
      s.batch = .client c true :: rest → step s (.walk false) = some t →
        c ∈ t.opened ∧ c ∉ t.held) ∧
    (∀ (t : St) (c : Conn), Reaches n backlog s → step s (.drop c) = some t →
      c ∈ t.opened ∧ c ∉ t.held) ∧
    (ReachesBy keeps n backlog s →
      s.opened.length = s.main.conn.length + s.armed.length +
        (s.batch.filterMap Ready.conn).length + s.queue.length +
          (s.workers.filterMap heldBy).length) := by
  refine ⟨fun h => ?_, fun t c rest h hb ht => ?_, fun t c h ht => ?_, fun h => ?_⟩
  · rw [count_close h]
    simp
  · exact lost_opened ((reaches_owned h).step (step_trans ht)) (refused_lost hb ht)
  · exact lost_opened ((reaches_owned h).step (step_trans ht)) (dropped_lost ht)
  · obtain ⟨hown, hkept⟩ := reachesBy_kept h
    have hperm : s.opened.Perm s.held := by
      rw [List.perm_iff_count]
      intro c
      rw [hown.balance c, hkept.lost, List.count_nil, Nat.add_zero]
    rw [hperm.length_eq]
    simp only [St.held, List.length_append]

lemma reuse_keeps : ReachesBy keeps 1 1 reuseEnd := ⟨reuse, by decide +kernel⟩

/-- The two clients of `reuse`: the first connection is closed, the second is open and armed. -/
theorem open_eq_owned_reuse :
    (acceptRequest oneFile 1 getSlash).log.count .close = 1 ∧
      reuseEnd.opened.length = 0 + 1 + 0 + 0 + 0 := by
  obtain ⟨hclose, -, -, hopen⟩ := open_eq_owned oneFile 1 getSlash 1 1 reuseEnd
  exact ⟨(hclose (by decide +kernel)).mpr (by decide +kernel), hopen reuse_keeps⟩

/-- A client that has sent the line `A`. -/
def askA : World where
  avail := [65, 13, 10]
  later := []
  sched := []
  takes := []
  pos := 0

/-- A host without files. -/
def noFile : Host := { oneFile with stat := fun _ => none }

/-- Three clients: one asks for a file that is not there, one has a method that is refused, and
the pool refuses the task of the third. -/
def leaks : List Act := List.flatten
  [[.epollWait [.listenfd], .walk true, .accept 7, .epollAdd true, .accept 8, .epollAdd true,
      .accept 9, .epollAdd true, .acceptAgain, .walked],
    [.epollWait [.client ⟨7, 0⟩ true, .client ⟨8, 1⟩ true, .client ⟨9, 2⟩ true],
      .walk true, .walk true, .walk false, .walked],
    .take 0 ⟨7, 0⟩ noFile 1 getSlash :: List.replicate 11 (.call 0), [.finish 0],
    .take 0 ⟨8, 1⟩ oneFile 1 askA :: List.replicate 4 (.call 0), [.finish 0]]

def leaksEnd : St where
  main := .waiting
  batch := []
  backlog := 0
  pending := false
  opened := [⟨9, 2⟩, ⟨8, 1⟩, ⟨7, 0⟩]
  armed := []
  queue := []
  workers := [none]
  lost := [⟨8, 1⟩, ⟨7, 0⟩, ⟨9, 2⟩]
  calls := List.replicate 4 ⟨⟨8, 1⟩, false, some ⟨8, 1⟩⟩ ++
    List.replicate 11 ⟨⟨7, 0⟩, false, some ⟨7, 0⟩⟩
  gens := 3

/-- Three connections are open, and nobody holds one. -/
theorem open_ne_owned_leaks :
    Runs.run step (start 1 3) leaks = some leaksEnd ∧ leaksEnd.opened.length = 3 ∧
      leaksEnd.held = [] := by
  decide +kernel

end WeatherQuery.ServerLeak
