import WeatherQuery.HttpCalls
import WeatherQuery.Keyed
import WeatherQuery.ServerSteps

/-!
Who owns a connection.

Every open connection is in exactly one place: with `main` between `accept` and `epoll_ctl`, in
epoll, in the batch, in the queue, with a worker, or lost. Each of them acts on the number of
its connection only while the connection is open, so that a number that was given out again is
never touched by its former owner.
-/

namespace WeatherQuery.ServerOwnership

open WeatherQuery.Traced WeatherQuery.HttpModel WeatherQuery.HttpCalls
open WeatherQuery.ServerModel WeatherQuery.ServerSteps

/-- What a worker has still to do: nothing follows a close, and `closes` has the one it made. -/
def Tame (closes : List Conn) (job : Job) : Prop :=
  (∀ op ∈ job.todo.dropLast, op = .use) ∧
    (job.closed = true → job.todo = [] ∧ job.conn ∈ closes)

lemma Tame.cons {closes : List Conn} {job : Job} (h : Tame closes job) (c : Conn) :
    Tame (c :: closes) job :=
  ⟨h.1, fun hclosed => ⟨(h.2 hclosed).1, List.mem_cons_of_mem c (h.2 hclosed).2⟩⟩

/-- The kernel's side: numbers are open once, and every call was made on the connection it was
meant for. -/
structure Table (s : St) : Prop where
  fds : (s.opened.map Conn.fd).Nodup
  gens : ∀ c ∈ s.opened, c.gen < s.gens
  calls : ∀ k ∈ s.calls, k.found = some k.conn
  once : s.closes.Nodup
  past : ∀ c ∈ s.closes, c.gen < s.gens ∧ c ∉ s.opened

/-- The invariant of the server. -/
structure Owned (s : St) : Prop where
  table : Table s
  balance : ∀ c, s.opened.count c = s.held.count c + s.lost.count c
  tame : ∀ job, some job ∈ s.workers → Tame s.closes job
  idle : s.main = .waiting → s.batch = []

/-! ### The table -/

section Table

variable {s t : St} {c : Conn}

/-- The table, the calls and the generations are all that counts. -/
lemma Table.of_eq (h : Table s) (ho : t.opened = s.opened) (hg : t.gens = s.gens)
    (hk : t.calls = s.calls) : Table t where
  fds := by rw [ho]; exact h.fds
  gens := by rw [ho, hg]; exact h.gens
  calls := by rw [hk]; exact h.calls
  once := by rw [St.closes, hk]; exact h.once
  past := by rw [St.closes, hk, ho, hg]; exact h.past

lemma Table.use (h : Table s) (hc : c ∈ s.opened) : Table (s.use c) where
  fds := h.fds
  gens := h.gens
  calls := by
    intro k hk
    rcases List.mem_cons.mp hk with rfl | hk
    · exact Keyed.find?_of_mem h.fds hc
    · exact h.calls k hk
  once := h.once
  past := h.past

lemma Table.close (h : Table s) (hc : c ∈ s.opened) : Table (s.close c) where
  fds := Keyed.nodup_strike h.fds _
  gens := fun d hd => h.gens d (List.mem_of_mem_filter hd)
  calls := by
    intro k hk
    rcases List.mem_cons.mp hk with rfl | hk
    · exact Keyed.find?_of_mem h.fds hc
    · exact h.calls k hk
  once := List.nodup_cons.mpr ⟨fun hpast => (h.past c hpast).2 hc, h.once⟩
  past := by
    intro d hd
    rcases List.mem_cons.mp hd with rfl | hd
    · exact ⟨h.gens d hc, by simp [St.close]⟩
    · exact ⟨(h.past d hd).1, fun hmem => (h.past d hd).2 (List.mem_of_mem_filter hmem)⟩

/-- A number that is not open, and a generation that was not there before. -/
lemma Table.accept (h : Table s) {fd : ℕ} (hfd : fd ∉ s.opened.map Conn.fd) (m : MainPc) (b : ℕ) :
    Table { s with
      main := m, backlog := b, opened := ⟨fd, s.gens⟩ :: s.opened, gens := s.gens + 1 } where
  fds := List.nodup_cons.mpr ⟨hfd, h.fds⟩
  gens := by
    intro d hd
    rcases List.mem_cons.mp hd with rfl | hd
    · exact Nat.lt_succ_self _
    · exact (h.gens d hd).trans (Nat.lt_succ_self _)
  calls := h.calls
  once := h.once
  past := by
    intro d hd
    obtain ⟨hgen, hopen⟩ := h.past d hd
    refine ⟨hgen.trans (Nat.lt_succ_self _), fun hmem => ?_⟩
    rcases List.mem_cons.mp hmem with rfl | hmem
    · exact absurd hgen (lt_irrefl _)
    · exact hopen hmem

end Table

/-! ### The balance -/

section Balance

variable {s t : St} {c : Conn}

lemma held_count (s : St) (c : Conn) :
    s.held.count c = s.main.conn.count c + s.armed.count c +
      (s.batch.filterMap Ready.conn).count c + s.queue.count c +
        (s.workers.filterMap heldBy).count c := by
  simp only [St.held, List.count_append]

lemma Owned.count_le_one (h : Owned s) (c : Conn) : s.opened.count c ≤ 1 :=
  List.nodup_iff_count_le_one.mp h.table.fds.of_map c

lemma Owned.held_opened (h : Owned s) (hc : c ∈ s.held) : c ∈ s.opened := by
  have hpos := List.count_pos_iff.mpr hc
  have hbal := h.balance c
  exact List.count_pos_iff.mp (by omega)

lemma Owned.armed_opened (h : Owned s) : ∀ d ∈ s.armed, d ∈ s.opened := fun d hd =>
  h.held_opened (by simp [St.held, hd])

end Balance

/-! ### Steps -/

section Steps

variable {s t : St} {c : Conn}

/-- A step that only moves connections from place to place. -/
lemma Owned.moved (h : Owned s) (ho : t.opened = s.opened) (hg : t.gens = s.gens)
    (hk : t.calls = s.calls) (htame : ∀ job, some job ∈ t.workers → Tame s.closes job)
    (hidle : t.main = .waiting → t.batch = [])
    (hb : ∀ c, t.held.count c + t.lost.count c = s.held.count c + s.lost.count c) : Owned t where
  table := h.table.of_eq ho hg hk
  balance := fun c => by rw [ho, h.balance, hb]
  tame := by rw [St.closes, hk]; exact htame
  idle := hidle

/-- `main` goes on without a connection in its hand. -/
lemma Owned.went (h : Owned s) (m : MainPc) (b : ℕ) (hs : s.main.conn = []) (hm : m.conn = [])
    (hidle : m = .waiting → s.batch = []) : Owned { s with main := m, backlog := b } := by
  refine h.moved rfl rfl rfl h.tame hidle fun c => ?_
  rw [held_count, held_count, hs]
  simp only [hm]

lemma Owned.reported (h : Owned s) {evs : List Ready} (hm : s.main = .waiting)
    (hr : Reportable s evs) : Owned (report s evs) := by
  refine h.moved rfl rfl rfl h.tame (fun hm => nomatch hm) fun c => ?_
  have hsub := hr.2.2.1.count_le c
  have hdiff : (report s evs).armed.count c =
      s.armed.count c - (evs.filterMap Ready.conn).count c := List.count_diff _ _ _
  rw [held_count, held_count, hdiff, hm, h.idle hm]
  simp only [report, MainPc.conn, List.count_nil, List.filterMap_nil]
  omega

lemma Owned.accepted (h : Owned s) {fd : ℕ} (hm : s.main = .accepting)
    (hfd : fd ∉ s.opened.map Conn.fd) :
    Owned { s with
      main := .registering ⟨fd, s.gens⟩, backlog := s.backlog - 1
      opened := ⟨fd, s.gens⟩ :: s.opened, gens := s.gens + 1 } where
  table := h.table.accept hfd _ _
  balance := by
    intro c
    have hbal := h.balance c
    rw [held_count] at hbal ⊢
    rw [hm] at hbal
    simp only [MainPc.conn, List.count_cons, List.count_nil] at hbal ⊢
    omega
  tame := h.tame
  idle := fun hm => nomatch hm

/-- The owner of a connection closes it. -/
lemma Owned.closed (h : Owned s) (hc : c ∈ s.held) (ho : t.opened = (s.close c).opened)
    (hg : t.gens = s.gens) (hk : t.calls = (s.close c).calls) (hl : t.lost = s.lost)
    (htame : ∀ job, some job ∈ t.workers → Tame (c :: s.closes) job)
    (hidle : t.main = .waiting → t.batch = [])
    (hb : ∀ x, t.held.count x + (if x = c then 1 else 0) = s.held.count x) : Owned t where
  table := (h.table.close (h.held_opened hc)).of_eq ho hg hk
  balance := by
    intro x
    have hcount := Keyed.count_strike h.table.fds (h.held_opened hc) x
    have hbal := h.balance x
    have hx := hb x
    rw [ho, hl]
    simp only [St.close] at hcount ⊢
    omega
  tame := by rw [St.closes, hk]; exact htame
  idle := hidle

/-- What is held elsewhere is not in epoll, so a close leaves epoll as it is. -/
lemma Owned.armed_close (h : Owned s) (hc : 1 + s.armed.count c ≤ s.held.count c) :
    (s.close c).armed = s.armed := by
  have hbal := h.balance c
  have hone := h.count_le_one c
  have harmed : c ∉ s.armed := List.count_eq_zero.mp (by omega)
  have hopen : c ∈ s.opened := List.count_pos_iff.mp (by omega)
  exact Keyed.strike_eq_self h.table.fds hopen h.armed_opened harmed

/-- `main` closes a connection of the batch. -/
lemma Owned.unsound (h : Owned s) {rest : List Ready} (hm : s.main = .walking)
    (hb : s.batch = .client c false :: rest) : Owned ({ s with batch := rest }.close c) := by
  have hheld (x : Conn) : s.held.count x = (if x = c then 1 else 0) + (s.armed.count x +
      (rest.filterMap Ready.conn).count x + s.queue.count x +
        (s.workers.filterMap heldBy).count x) := by
    rw [held_count, hm, hb]
    simp only [MainPc.conn, Ready.conn, List.filterMap_cons, List.count_cons, List.count_nil,
      beq_iff_eq, eq_comm (a := c)]
    omega
  have hc := hheld c
  rw [if_pos rfl] at hc
  have harmed : ({ s with batch := rest }.close c).armed = s.armed := h.armed_close (by omega)
  refine h.closed (List.count_pos_iff.mp (by omega)) rfl rfl rfl rfl
    (fun job hjob => (h.tame job hjob).cons c)
    (fun hw => absurd (hm.symm.trans hw) nofun) fun x => ?_
  rw [held_count, hheld x, harmed]
  simp only [St.close, hm, MainPc.conn, List.count_nil]
  omega

/-! ### Workers -/

/-- Rewriting the slot of a worker with a tame job. -/
lemma tame_set {closes : List Conn} (h : ∀ job, some job ∈ s.workers → Tame closes job) (i : ℕ)
    {o : Option Job} (ho : ∀ job, o = some job → Tame closes job) :
    ∀ job, some job ∈ s.workers.set i o → Tame closes job := by
  intro job hjob
  rcases List.mem_or_eq_of_mem_set hjob with hmem | heq
  · exact h job hmem
  · exact ho job heq.symm

lemma Owned.tame_at (h : Owned s) {i : ℕ} {job : Job} (hi : s.workers[i]? = some (some job)) :
    Tame s.closes job := h.tame job (List.mem_of_getElem? hi)

/-- What `accept_request` does to its socket ends with the close, if it closes it. -/
lemma startJob_tame (closes : List Conn) (c : Conn) (host : Host) (fuel : ℕ) (w : World) :
    Tame closes (startJob c (acceptRequest host fuel w)) := by
  refine ⟨fun op hop => ?_, fun hclosed => nomatch hclosed⟩
  obtain ⟨es, hes, hlog⟩ := acceptRequest_closes host fuel w
  have huse : ∀ op ∈ es.filterMap sockOp, op = .use := by
    intro op hop
    obtain ⟨e, he, heq⟩ := List.mem_filterMap.mp hop
    have hne := hes e he
    cases e with
    | close => exact absurd rfl hne
    | recv peek got => exact (Option.some.inj heq).symm
    | send asked taken => exact (Option.some.inj heq).symm
    | _ => cases heq
  simp only [startJob, hlog, List.filterMap_append] at hop
  split_ifs at hop
  · rw [show [Event.close].filterMap sockOp = [.close] from rfl, List.dropLast_concat] at hop
    exact huse op hop
  · rw [List.filterMap_nil, List.append_nil] at hop
    exact huse op ((List.dropLast_sublist _).subset hop)

lemma heldBy_open {j : Job} (h : j.closed = false) : heldBy (some j) = some j.conn := by
  simp [heldBy, h]

lemma heldBy_closed {j : Job} (h : j.closed = true) : heldBy (some j) = none := by
  simp [heldBy, h]

/-- A worker with a call to make has not closed its socket, and holds it besides whatever epoll
holds. -/
lemma Owned.at_work (h : Owned s) {i : ℕ} {job : Job} (hi : s.workers[i]? = some (some job))
    (ht : job.todo ≠ []) :
    job.closed = false ∧ 1 + s.armed.count job.conn ≤ s.held.count job.conn := by
  have hclosed : job.closed = false := by
    rcases hcl : job.closed with _ | _
    · rfl
    · exact absurd ((h.tame_at hi).2 hcl).1 ht
  obtain ⟨k, hk, -⟩ := Slots.count_filterMap_set heldBy hi job.conn
  rw [heldBy_open hclosed, Option.toList_some, List.count_singleton_self] at hk
  rw [held_count]
  exact ⟨hclosed, by omega⟩

lemma Owned.taken (h : Owned s) {i : ℕ} (hc : c ∈ s.queue) (hi : s.workers[i]? = some none)
    (host : Host) (fuel : ℕ) (w : World) :
    Owned { s with
      queue := s.queue.erase c
      workers := s.workers.set i (some (startJob c (acceptRequest host fuel w))) } := by
  refine h.moved rfl rfl rfl (tame_set h.tame i ?_) h.idle fun x => ?_
  · rintro job ⟨⟩
    exact startJob_tame _ c host fuel w
  · obtain ⟨k, hk, hset⟩ := Slots.count_filterMap_set heldBy hi x
    have hpos := List.count_pos_iff.mpr hc
    have hjob : heldBy (some (startJob c (acceptRequest host fuel w))) = some c := heldBy_open rfl
    rw [held_count, held_count, hset, hk, hjob, show heldBy none = none from rfl]
    by_cases hx : x = c
    · subst hx
      simp only [List.count_erase_self, Option.toList_some, Option.toList_none,
        List.count_singleton_self, List.count_nil]
      omega
    · simp [List.count_erase_of_ne hx, Ne.symm hx]

lemma Owned.used (h : Owned s) {i : ℕ} {job : Job} {rest : List SockOp}
    (hi : s.workers[i]? = some (some job)) (ht : job.todo = .use :: rest) :
    Owned { s.use job.conn with
      workers := s.workers.set i (some { job with todo := rest }) } := by
  obtain ⟨hclosed, hheld⟩ := h.at_work hi (by simp [ht])
  have hopen : job.conn ∈ s.opened := h.held_opened (List.count_pos_iff.mp (by omega))
  refine ⟨(h.table.use hopen).of_eq rfl rfl rfl, fun x => ?_, tame_set h.tame i ?_, h.idle⟩
  · have hset := Slots.filterMap_set_eq (f := heldBy) hi (b := some { job with todo := rest }) rfl
    have hbal := h.balance x
    rw [held_count] at hbal ⊢
    rw [hset]
    exact hbal
  · rintro _ ⟨⟩
    refine ⟨fun op hop => (h.tame_at hi).1 op ?_, fun hcl => ?_⟩
    · rcases rest with _ | ⟨op', rest⟩
      · cases hop
      · rw [ht, List.dropLast_cons_cons]
        exact List.mem_cons_of_mem _ hop
    · rw [hclosed] at hcl
      cases hcl

/-- The worker's close is its last call. -/
lemma tame_close {closes : List Conn} {job : Job} {rest : List SockOp} (h : Tame closes job)
    (ht : job.todo = .close :: rest) : rest = [] := by
  rcases rest with _ | ⟨op, rest⟩
  · rfl
  · exact absurd (h.1 .close (by simp [ht])) nofun

lemma Owned.workerClosed (h : Owned s) {i : ℕ} {job : Job} {rest : List SockOp}
    (hi : s.workers[i]? = some (some job)) (ht : job.todo = .close :: rest) :
    Owned { s.close job.conn with
      workers := s.workers.set i (some { job with todo := rest, closed := true }) } := by
  obtain ⟨hclosed, hheld⟩ := h.at_work hi (by simp [ht])
  have hrest := tame_close (h.tame_at hi) ht
  refine h.closed (c := job.conn) (List.count_pos_iff.mp (by omega)) rfl rfl rfl rfl
    (tame_set (fun j hj => (h.tame j hj).cons job.conn) i ?_) h.idle fun x => ?_
  · rintro _ ⟨⟩
    exact ⟨fun op hop => by simp [hrest] at hop, fun _ => ⟨hrest, List.mem_cons_self⟩⟩
  · obtain ⟨k, hk, hset⟩ := Slots.count_filterMap_set heldBy hi x
    rw [held_count, held_count, hset, hk, heldBy_open hclosed, heldBy_closed rfl]
    simp only [h.armed_close hheld, Option.toList_some, Option.toList_none, List.count_nil,
      List.count_singleton, beq_iff_eq, eq_comm (a := x)]
    simp only [St.close]
    omega

lemma Owned.finished (h : Owned s) {i : ℕ} {job : Job} (hi : s.workers[i]? = some (some job)) :
    Owned { s with
      workers := s.workers.set i none
      lost := if job.closed then s.lost else job.conn :: s.lost } := by
  refine h.moved rfl rfl rfl (tame_set h.tame i fun _ hnone => nomatch hnone) h.idle fun x => ?_
  obtain ⟨k, hk, hset⟩ := Slots.count_filterMap_set heldBy hi x
  rw [held_count, held_count, hset, hk, show heldBy none = none from rfl]
  rcases hcl : job.closed with _ | _
  · rw [heldBy_open hcl]
    simp only [Bool.false_eq_true, if_false, Option.toList_some, Option.toList_none,
      List.count_cons, List.count_nil]
    omega
  · rw [heldBy_closed hcl]
    simp

/-- A queued task is released with the pool. -/
lemma Owned.dropped (h : Owned s) (hc : c ∈ s.queue) :
    Owned { s with queue := s.queue.erase c, lost := c :: s.lost } := by
  refine h.moved rfl rfl rfl h.tame h.idle fun x => ?_
  have hpos := List.count_pos_iff.mpr hc
  rw [held_count, held_count]
  simp only [List.count_cons, List.count_erase, beq_iff_eq]
  split_ifs with hx
  · subst hx
    omega
  · omega

/-- **Ownership is kept** by every step. -/
theorem Owned.step (h : Owned s) {a : Act} (ht : Trans s a t) : Owned t := by
  cases ht with
  | arrive => exact h.moved rfl rfl rfl h.tame h.idle fun _ => rfl
  | report hm hr => exact h.reported hm hr
  | timeout hm => exact h
  | waitFails hm => exact h.went _ _ (by rw [hm]; rfl) rfl nofun
  | accept hm hb hfd => exact h.accepted hm hfd
  | acceptAgain hm hb => exact h.went _ _ (by rw [hm]; rfl) rfl nofun
  | acceptFails hm => exact h.went _ _ (by rw [hm]; rfl) rfl nofun
  | register hm =>
    refine h.moved rfl rfl rfl h.tame (fun hw => nomatch hw) fun x => ?_
    rw [held_count, held_count, hm]
    simp only [MainPc.conn, List.count_cons, List.count_nil]
    omega
  | registerFails hm =>
    refine h.moved rfl rfl rfl h.tame (fun hw => nomatch hw) fun x => ?_
    rw [held_count, held_count, hm]
    simp only [MainPc.conn, List.count_cons, List.count_nil]
    omega
  | listen hm hb =>
    refine h.moved rfl rfl rfl h.tame (fun hw => nomatch hw) fun x => ?_
    rw [held_count, held_count, hm, hb]
    rfl
  | unsound hm hb => exact h.unsound hm hb
  | added hm hb =>
    refine h.moved rfl rfl rfl h.tame (fun hw => absurd (hm.symm.trans hw) nofun) fun x => ?_
    rw [held_count, held_count, hb]
    simp only [Ready.conn, List.filterMap_cons, List.count_append, List.count_cons, List.count_nil]
    omega
  | refused hm hb =>
    refine h.moved rfl rfl rfl h.tame (fun hw => absurd (hm.symm.trans hw) nofun) fun x => ?_
    rw [held_count, held_count, hb]
    simp only [Ready.conn, List.filterMap_cons, List.count_cons]
    omega
  | walked hm hb => exact h.went _ _ (by rw [hm]; rfl) rfl fun _ => hb
  | take hc hi => exact h.taken hc hi _ _ _
  | use hi ht => exact h.used hi ht
  | close hi ht => exact h.workerClosed hi ht
  | finish hi ht hr => exact h.finished hi
  | drop hm hc => exact h.dropped hc

end Steps

/-! ### Runs -/

lemma Owned.start (n backlog : ℕ) : Owned (start n backlog) where
  table := ⟨List.nodup_nil, by simp [ServerModel.start], by simp [ServerModel.start],
    List.nodup_nil, by simp [ServerModel.start, St.closes]⟩
  balance := by simp [ServerModel.start, St.held, MainPc.conn, heldBy, List.filterMap_replicate]
  tame := by simp [ServerModel.start]
  idle := fun _ => rfl

theorem reaches_owned {n backlog : ℕ} {s : St} (h : Reaches n backlog s) : Owned s := by
  obtain ⟨as, has⟩ := h
  exact Runs.run_keeps (fun s a t hs hst => Owned.step hs (step_trans hst))
    (Owned.start n backlog) has

/-- The argument of a running `accept_request`. -/
def argOf (o : Option Job) : Option Conn := o.map Job.conn

lemma count_argOf {ws : List (Option Job)} {c : Conn}
    (h : ∀ job, some job ∈ ws → job.closed = true → job.conn ≠ c) :
    (ws.filterMap argOf).count c = (ws.filterMap heldBy).count c := by
  induction ws with
  | nil => rfl
  | cons o ws ih =>
    have ih := ih fun job hjob => h job (List.mem_cons_of_mem o hjob)
    rcases o with _ | job
    · exact ih
    · rw [List.filterMap_cons_some (f := argOf) rfl]
      rcases hcl : job.closed with _ | _
      · rw [List.filterMap_cons_some (heldBy_open hcl), List.count_cons, List.count_cons, ih]
      · rw [List.filterMap_cons_none (heldBy_closed hcl),
          List.count_cons_of_ne (h job List.mem_cons_self hcl), ih]

/-- A worker whose argument is open still holds it. -/
lemma Owned.count_argOf {s : St} (h : Owned s) {c : Conn} (hc : c ∈ s.opened) :
    (s.workers.filterMap argOf).count c = (s.workers.filterMap heldBy).count c := by
  refine ServerOwnership.count_argOf fun job hjob hclosed heq => ?_
  exact (h.table.past c (heq ▸ ((h.tame job hjob).2 hclosed).2)).2 hc

/-- **Exclusive ownership.** In every state the server can get to, an open connection is in one
place at most; it is closed once at most; and every read, write and close was made on the
connection it was meant for, while that was open. -/
theorem exclusive {n backlog : ℕ} {s : St} (h : Reaches n backlog s) :
    (∀ c ∈ s.opened, s.armed.count c + (s.batch.filterMap Ready.conn).count c + s.queue.count c +
      (s.workers.filterMap argOf).count c ≤ 1) ∧
    s.closes.Nodup ∧ ∀ k ∈ s.calls, k.found = some k.conn := by
  have hown := reaches_owned h
  refine ⟨fun c hc => ?_, hown.table.once, hown.table.calls⟩
  have hbal := hown.balance c
  have hone := hown.count_le_one c
  rw [held_count] at hbal
  rw [hown.count_argOf hc]
  omega

/-- The file `htdocs/index.html` and no other. -/
def oneFile : Host where
  stat := fun path =>
    if path = htdocs ++ '/'.toUInt8 :: mainPage then some ⟨false, false, false, false, 2⟩ else none
  openFile := fun _ => some [104, 105]
  pipeInput := true
  pipeOutput := true
  fork := true
  cgi := fun _ _ => []

/-- A client that has sent all of `GET /` and a blank line. -/
def getSlash : World where
  avail := [71, 69, 84, 32, 47, 13, 10, 13, 10]
  later := []
  sched := []
  takes := []
  pos := 0

/-- Two clients. The first is served and its number given to the second, whose connection is
armed while the worker has not returned. -/
def reuse : List Act := List.flatten
  [[.epollWait [.listenfd], .walk true, .accept 7, .epollAdd true, .acceptAgain, .walked],
    [.epollWait [.client ⟨7, 0⟩ true], .walk true, .walked],
    .take 0 ⟨7, 0⟩ oneFile 1 getSlash :: List.replicate 14 (.call 0),
    [.arrive, .epollWait [.listenfd], .walk true, .accept 7, .epollAdd true]]

def reuseEnd : St where
  main := .accepting
  batch := []
  backlog := 0
  pending := false
  opened := [⟨7, 1⟩]
  armed := [⟨7, 1⟩]
  queue := []
  workers := [some ⟨⟨7, 0⟩, [], true, true⟩]
  lost := []
  calls := ⟨⟨7, 0⟩, true, some ⟨7, 0⟩⟩ :: List.replicate 13 ⟨⟨7, 0⟩, false, some ⟨7, 0⟩⟩
  gens := 2

lemma reuse_reaches : Reaches 1 1 reuseEnd := ⟨reuse, by decide +kernel⟩

theorem exclusive_reuse :
    reuseEnd.armed.count ⟨7, 1⟩ = 1 ∧ (reuseEnd.workers.filterMap argOf).count ⟨7, 1⟩ = 0 ∧
      reuseEnd.closes.Nodup ∧ ∀ k ∈ reuseEnd.calls, k.found = some k.conn := by
  obtain ⟨hplace, hclose⟩ := exclusive reuse_reaches
  have harmed : reuseEnd.armed.count ⟨7, 1⟩ = 1 := by decide
  have hone := hplace ⟨7, 1⟩ (by decide)
  exact ⟨harmed, by omega, hclose⟩

end WeatherQuery.ServerOwnership
