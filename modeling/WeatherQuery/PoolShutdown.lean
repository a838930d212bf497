import WeatherQuery.PoolWake

/-!
Shutting the pool down.

`start_size` is incremented without the lock by `threadpool_init` and decremented under it by
the workers, which is safe because no worker leaves before the flag is set and no call of
`threadpool_destroy` is possible before `threadpool_init` has returned. What a call that
returned `0` leaves behind follows from three facts: every worker has been joined, a worker
that leaves a pool shut down gracefully has seen an empty queue, and nothing is queued once
the flag is set.
-/

namespace WeatherQuery.PoolShutdown

open WeatherQuery.PoolModel WeatherQuery.PoolSteps WeatherQuery.PoolTasks WeatherQuery.PoolWake

variable {F A : Type}

/-! ### The workers that have not left -/

/-- The workers that have not passed their final decrement. -/
def staying (l : List (Worker F A)) : ℕ := l.countP fun w => !w.isExited

/-- What `threadpool_init` has counted, wherever it stands. -/
def Staffed (s : Sys F A) : Prop :=
  match s.init with
  | .create i => s.pool.shutdown = none ∧ s.workers.length = i ∧ s.pool.threadCount = i ∧
      s.pool.startSize = i ∧ i ≤ s.threadNum
  | .count i => s.pool.shutdown = none ∧ s.workers.length = i + 1 ∧ s.pool.threadCount = i ∧
      s.pool.startSize = i ∧ i < s.threadNum
  | .load i => s.pool.shutdown = none ∧ s.workers.length = i + 1 ∧ s.pool.threadCount = i + 1 ∧
      s.pool.startSize = i ∧ i < s.threadNum
  | .store i v => s.pool.shutdown = none ∧ s.workers.length = i + 1 ∧
      s.pool.threadCount = i + 1 ∧ v = i ∧ i < s.threadNum
  | .returned => s.workers.length = s.threadNum ∧ s.pool.threadCount = s.threadNum ∧
      s.pool.startSize = staying s.workers
  | .unwind _ => False
  | .returnedNull => False

lemma staying_add_exited (l : List (Worker F A)) :
    staying l + l.countP Worker.isExited = l.length := by
  unfold staying
  induction l with
  | nil => rfl
  | cons w l ih =>
    rw [List.countP_cons, List.countP_cons, List.length_cons]
    cases w.isExited <;> simp <;> omega

/-- A rewriting of the workers that keeps their number and who has left keeps the count. -/
lemma Staffed.rewrite {s : Sys F A} (hs : Staffed s) {l : List (Worker F A)}
    (hlen : l.length = s.workers.length)
    (hex : l.countP Worker.isExited = s.workers.countP Worker.isExited) :
    Staffed { s with workers := l } := by
  have hst : staying l = staying s.workers := by
    have h1 := staying_add_exited l
    have h2 := staying_add_exited s.workers
    omega
  unfold Staffed at hs ⊢
  simp only [hlen, hst]
  exact hs

lemma exited_set_eq {l : List (Worker F A)} {i : ℕ} {w w' : Worker F A} (h : l[i]? = some w)
    (hw : w.isExited = false) (hw' : w'.isExited = false) :
    (l.set i w').countP Worker.isExited = l.countP Worker.isExited := by
  obtain ⟨k, h1, h2⟩ := Slots.countP_set Worker.isExited h
  rw [h1, h2, hw, hw']

lemma isExited_of_turn {w : Worker F A} (h : w = .top ∨ w = .woken) : w.isExited = false := by
  rcases h with rfl | rfl <;> rfl

lemma Staffed.returned {s : Sys F A} (hs : Staffed s) (h : s.pool.shutdown ≠ none) :
    s.init = .returned := by
  unfold Staffed at hs
  split at hs
  case h_5 hpc => exact hpc
  case h_6 => exact hs.elim
  case h_7 => exact hs.elim
  all_goals exact absurd hs.1 h

lemma trans_staffed {s t : Sys F A} (h : Trans s t) (hu : Unshut s) (hs : Staffed s) :
    Staffed t := by
  cases h with
  | create i hpc hi =>
    simp only [Staffed, hpc] at hs
    obtain ⟨h1, h2, h3, h4, -⟩ := hs
    exact ⟨h1, by simp [h2], h3, h4, hi⟩
  | initReturn i hpc hi =>
    simp only [Staffed, hpc] at hs
    obtain ⟨h1, h2, h3, h4, h5⟩ := hs
    obtain rfl : i = s.threadNum := by omega
    -- nobody has left yet, so all those created are staying
    have h6 := staying_add_exited s.workers
    rw [(hu h1).2.2] at h6
    refine ⟨h2, h3, ?_⟩
    show s.pool.startSize = (staying s.workers : ℤ)
    rw [h4]
    omega
  | count i hpc =>
    simp only [Staffed, hpc] at hs
    obtain ⟨h1, h2, h3, h4, h5⟩ := hs
    exact ⟨h1, h2, by simp [h3], h4, h5⟩
  | load i hpc =>
    simp only [Staffed, hpc] at hs
    obtain ⟨h1, h2, h3, h4, h5⟩ := hs
    exact ⟨h1, h2, h3, h4, h5⟩
  | store i v hpc =>
    simp only [Staffed, hpc] at hs
    obtain ⟨h1, h2, h3, h4, h5⟩ := hs
    exact ⟨h1, h2, h3, by simp [h4], h5⟩
  | unwound d g e hpc => simp [Staffed, hpc] at hs
  | refuse | again | join | leaveErr | freeRefused | free => exact hs
  | accept func arg ws =>
    exact hs.rewrite (length_wakeAll ws _) (countP_wakeAll isExited_wake ws _)
  | spurious i hw => exact hs.rewrite (by simp) (exited_set_eq hw rfl rfl)
  | park i w hw htw => exact hs.rewrite (by simp) (exited_set_eq hw (isExited_of_turn htw) rfl)
  | null i w hw htw => exact hs.rewrite (by simp) (exited_set_eq hw (isExited_of_turn htw) rfl)
  | take i w x next hw htw =>
    exact hs.rewrite (by simp) (exited_set_eq hw (isExited_of_turn htw) rfl)
  | call i x hw => exact hs.rewrite (by simp) (exited_set_eq hw rfl rfl)
  | finish i x hw => exact hs.rewrite (by simp) (exited_set_eq hw rfl rfl)
  | quit i w hw htw hl hsd =>
    have hpc : s.init = .returned := hs.returned (by rcases hsd with e | ⟨e, -⟩ <;> simp [e])
    simp only [Staffed, hpc] at hs ⊢
    obtain ⟨h1, h2, h3⟩ := hs
    obtain ⟨k, hk1, hk2⟩ := Slots.countP_set Worker.isExited hw
    have e1 := staying_add_exited s.workers
    have e2 := staying_add_exited (s.workers.set i .exited)
    rw [hk2, List.length_set] at e2
    rw [hk1, isExited_of_turn htw] at e1
    simp only [Worker.isExited, Bool.toNat_true, Bool.toNat_false] at e1 e2
    exact ⟨by simp [h1], h2, by rw [h3]; omega⟩
  | destroy g hpc hl hsd =>
    have hr := hs.rewrite (l := s.workers.map Worker.wake) (by simp)
      (by rw [List.countP_map]; exact congrArg (fun p => s.workers.countP p) (funext isExited_wake))
    simp only [Staffed, hpc] at hr ⊢
    exact hr

/-! ### The joins -/

lemma exited_wakeAll (ws : List ℕ) {l : List (Worker F A)} {j : ℕ} (hj : l[j]? = some .exited) :
    (wakeAll ws l)[j]? = some .exited := by
  unfold wakeAll
  induction ws generalizing l with
  | nil => exact hj
  | cons i ws ih =>
    refine ih (l := l.modify i Worker.wake) ?_
    by_cases hi : i = j <;> simp [hj, hi, Worker.wake]

/-- A worker that has left does not come back. -/
lemma trans_exited {s t : Sys F A} (h : Trans s t) {j : ℕ} (hj : s.workers[j]? = some .exited) :
    t.workers[j]? = some .exited := by
  have hset : ∀ {i : ℕ} {w w' : Worker F A}, s.workers[i]? = some w → w.isExited = false →
      (s.workers.set i w')[j]? = some .exited := by
    intro i w w' hw hx
    rw [List.getElem?_set_ne, hj]
    rintro rfl
    rw [hj, Option.some.injEq] at hw
    subst hw
    cases hx
  cases h with
  | initReturn | count | load | store | unwound | refuse | again | join | leaveErr | freeRefused |
    free => exact hj
  | create i hpc hi =>
    exact (List.getElem?_append_left (List.getElem?_eq_some_iff.mp hj).1).trans hj
  | accept func arg ws => exact exited_wakeAll ws hj
  | spurious i hw => exact hset hw rfl
  | park i w hw htw => exact hset hw (isExited_of_turn htw)
  | quit i w hw htw => exact hset hw (isExited_of_turn htw)
  | null i w hw htw => exact hset hw (isExited_of_turn htw)
  | take i w x next hw htw => exact hset hw (isExited_of_turn htw)
  | call i x hw => exact hset hw rfl
  | finish i x hw => exact hset hw rfl
  | destroy => simp [hj, Worker.wake]

def mode (graceful : Bool) : Shutdown := if graceful then .graceful else .immediate

/-- A call inside its join loop has set the flag, and the workers it is past have left. -/
def Joined (s : Sys F A) : Prop :=
  ∀ c ∈ s.destroys, ∀ i err, c.pc = .joining i err →
    err = none ∧ s.pool.shutdown = some (mode c.graceful) ∧
      ∀ j < i, s.workers[j]? = some .exited

lemma trans_joined {s t : Sys F A} (h : Trans s t) (hs : Joined s) : Joined t := by
  have keep : ∀ c ∈ s.destroys, ∀ i err, c.pc = .joining i err →
      err = none ∧ s.pool.shutdown = some (mode c.graceful) ∧
        ∀ j < i, t.workers[j]? = some .exited := by
    intro c hc i err hpc
    obtain ⟨h1, h2, h3⟩ := hs c hc i err hpc
    exact ⟨h1, h2, fun j hj => trans_exited h (h3 j hj)⟩
  cases h with
  | create | initReturn | count | load | store | unwound | refuse | accept | spurious | park |
    quit | null | take | call | finish => exact keep
  | destroy g hpc hl hsd =>
    intro c hc i err hci
    rcases List.mem_append.mp hc with hc | hc
    · have := (keep c hc i err hci).2.1
      rw [hsd] at this
      cases this
    · obtain rfl := List.mem_singleton.mp hc
      cases hci
      exact ⟨rfl, rfl, fun j hj => absurd hj (Nat.not_lt_zero j)⟩
  | again c' g hpc hl hsd =>
    intro c hc i err hci
    rcases List.mem_append.mp hc with hc | hc
    · exact keep c hc i err hci
    · obtain rfl := List.mem_singleton.mp hc
      cases hci
  | join d k g e hd hk hw =>
    intro c hc i err hci
    rcases List.mem_or_eq_of_mem_set hc with hc | rfl
    · exact keep c hc i err hci
    · cases hci
      obtain ⟨h1, h2, h3⟩ := keep _ (List.mem_of_getElem? hd) k e rfl
      refine ⟨h1, h2, fun j hj => ?_⟩
      rcases Nat.lt_succ_iff_lt_or_eq.mp hj with hj | rfl
      · exact h3 j hj
      · exact hw
  | leaveErr d k g e hd | freeRefused d k g hd | free d k g hd =>
    intro c hc i err hci
    rcases List.mem_or_eq_of_mem_set hc with hc | rfl
    · exact keep c hc i err hci
    · cases hci

/-! ### What is left -/

lemma staying_pos {l : List (Worker F A)} {i : ℕ} {w : Worker F A} (h : l[i]? = some w)
    (hw : w.isExited = false) : 0 < staying l :=
  List.countP_pos_iff.mpr ⟨w, List.mem_of_getElem? h, by simp [hw]⟩

lemma staying_eq_zero {l : List (Worker F A)} (h : ∀ j < l.length, l[j]? = some .exited) :
    staying l = 0 := by
  refine List.countP_eq_zero.mpr fun w hw => ?_
  obtain ⟨j, hj, rfl⟩ := List.mem_iff_getElem.mp hw
  have := h j hj
  rw [List.getElem?_eq_getElem hj, Option.some.injEq] at this
  simp [this, Worker.isExited]

/-- A call past its join loop has seen every worker leave. -/
lemma staying_at_free {s : Sys F A} (hst : Staffed s) (hj : Joined s) {d i : ℕ} {g : Bool}
    {err : Option Err} (hd : s.destroys[d]? = some ⟨g, .joining i err⟩)
    (hi : ¬ i < s.pool.threadCount) : staying s.workers = 0 ∧ s.pool.startSize = 0 := by
  obtain ⟨-, hsd, hall⟩ := hj _ (List.mem_of_getElem? hd) i err rfl
  have hpc := hst.returned (by simp [hsd])
  simp only [Staffed, hpc] at hst
  obtain ⟨h1, h2, h3⟩ := hst
  have h0 := staying_eq_zero fun j hj => hall j (by omega)
  exact ⟨h0, by rw [h3, h0]; rfl⟩

/-- Once a worker has left a pool shut down gracefully, the queue is empty for good. -/
def Drained (s : Sys F A) : Prop :=
  s.pool.shutdown = some .graceful → 0 < s.workers.countP Worker.isExited →
    s.pool.head = [] ∧ released s = []

lemma trans_drained {s t : Sys F A} (h : Trans s t) (hb : Books s) (hu : Unshut s)
    (hs : Drained s) : Drained t := by
  cases h with
  | initReturn | count | load | store | unwound | again | join | leaveErr | freeRefused => exact hs
  | create i hpc hi =>
    intro hg hx
    exact hs hg (by simpa [Worker.isExited] using hx)
  | refuse =>
    intro hg hx
    exact ⟨(hs hg hx).1, by simpa [released, List.filterMap_cons, releasedOf] using (hs hg hx).2⟩
  | accept func arg ws hpc hl hsd =>
    intro (hg : s.pool.shutdown = _)
    rw [hsd] at hg
    cases hg
  | spurious i hw =>
    intro hg hx
    exact hs hg (by rwa [exited_set_eq hw rfl rfl] at hx)
  | park i w hw htw =>
    intro hg hx
    exact hs hg (by rwa [exited_set_eq hw (isExited_of_turn htw) rfl] at hx)
  | quit i w hw htw hl hsd =>
    intro (hg : s.pool.shutdown = _) _
    obtain ⟨h1, h2⟩ := hb.counted (by simp [Live, hl])
    have hq : s.pool.queueSize = 0 := by
      rcases hsd with e | ⟨-, hq⟩
      · rw [hg] at e
        cases e
      · exact hq
    have hh : s.pool.head = [] := List.eq_nil_of_length_eq_zero (by omega)
    exact ⟨hh, h2⟩
  | null i w hw htw hl =>
    intro hg hx
    obtain ⟨h1, h2⟩ := hs hg (by rwa [exited_set_eq hw (isExited_of_turn htw) rfl] at hx)
    exact ⟨h1, by simpa [released, List.filterMap_cons, releasedOf] using h2⟩
  | take i w x next hw htw hl hq hsd hh =>
    intro hg hx
    have := (hs hg (by rwa [exited_set_eq hw (isExited_of_turn htw) rfl] at hx)).1
    rw [hh] at this
    cases this
  | call i x hw | finish i x hw =>
    intro hg hx
    obtain ⟨h1, h2⟩ := hs hg (by rwa [exited_set_eq hw rfl rfl] at hx)
    exact ⟨h1, by simpa [released, List.filterMap_cons, releasedOf] using h2⟩
  | destroy g hpc hl hsd =>
    intro _ hx
    rw [List.countP_map] at hx
    have : s.workers.countP (Worker.isExited ∘ Worker.wake) = s.workers.countP Worker.isExited :=
      congrArg (fun p => s.workers.countP p) (funext isExited_wake)
    rw [this, (hu hsd).2.2] at hx
    exact absurd hx (Nat.lt_irrefl 0)
  | free d i g hd hi hss =>
    intro hg hx
    obtain ⟨h1, h2⟩ := hs hg hx
    refine ⟨rfl, ?_⟩
    simp only [released, filterMap_released_self, h1, List.nil_append]
    exact h2

/-- A call that returned `0` leaves no worker and no chain. -/
def Retired (s : Sys F A) : Prop :=
  ∀ c ∈ s.destroys, c.pc = .returned none →
    s.pool.shutdown = some (mode c.graceful) ∧ s.pool.head = [] ∧ staying s.workers = 0

lemma trans_retired {s t : Sys F A} (h : Trans s t) (hst : Staffed s) (hj : Joined s)
    (hs : Retired s) : Retired t := by
  have gone : ∀ {i : ℕ} {w : Worker F A}, s.workers[i]? = some w → w.isExited = false →
      ∀ c ∈ s.destroys, c.pc ≠ .returned none := by
    intro i w hw hx c hc hpc
    have := staying_pos hw hx
    rw [(hs c hc hpc).2.2] at this
    exact Nat.lt_irrefl 0 this
  cases h with
  | initReturn | count | load | store | unwound | refuse => exact hs
  | create i hpc hi =>
    intro c hc hr
    have hsd := (hs c hc hr).1
    simp only [Staffed, hpc] at hst
    rw [hst.1] at hsd
    cases hsd
  | accept func arg ws hpc hl hsd =>
    intro c hc hr
    have := (hs c hc hr).1
    rw [hsd] at this
    cases this
  | spurious i hw => exact fun c hc hr => absurd hr (gone hw rfl c hc)
  | park i w hw htw => exact fun c hc hr => absurd hr (gone hw (isExited_of_turn htw) c hc)
  | quit i w hw htw => exact fun c hc hr => absurd hr (gone hw (isExited_of_turn htw) c hc)
  | null i w hw htw => exact fun c hc hr => absurd hr (gone hw (isExited_of_turn htw) c hc)
  | take i w x next hw htw =>
    exact fun c hc hr => absurd hr (gone hw (isExited_of_turn htw) c hc)
  | call i x hw => exact fun c hc hr => absurd hr (gone hw rfl c hc)
  | finish i x hw => exact fun c hc hr => absurd hr (gone hw rfl c hc)
  | destroy g hpc hl hsd =>
    intro c hc hr
    rcases List.mem_append.mp hc with hc | hc
    · have := (hs c hc hr).1
      rw [hsd] at this
      cases this
    · obtain rfl := List.mem_singleton.mp hc
      cases hr
  | again c' g hpc hl hsd =>
    intro c hc hr
    rcases List.mem_append.mp hc with hc | hc
    · exact hs c hc hr
    · obtain rfl := List.mem_singleton.mp hc
      cases hr
  | join d k g e hd =>
    intro c hc hr
    rcases List.mem_or_eq_of_mem_set hc with hc | rfl
    · exact hs c hc hr
    · cases hr
  | leaveErr d k g e hd =>
    intro c hc hr
    rcases List.mem_or_eq_of_mem_set hc with hc | rfl
    · exact hs c hc hr
    · cases hr
  | freeRefused d k g hd hk hss =>
    have := (staying_at_free hst hj hd hk).2
    omega
  | free d k g hd hk hss =>
    intro c hc hr
    rcases List.mem_or_eq_of_mem_set hc with hc | rfl
    · obtain ⟨h1, -, h3⟩ := hs c hc hr
      exact ⟨h1, rfl, h3⟩
    · exact ⟨(hj _ (List.mem_of_getElem? hd) k none rfl).2.1, rfl, (staying_at_free hst hj hd hk).1⟩

/-- The invariants of a pool on its way down. -/
structure Closing (s : Sys F A) : Prop where
  books : Books s
  unshut : Unshut s
  staffed : Staffed s
  joined : Joined s
  drained : Drained s
  retired : Retired s

lemma closing_start (n : ℕ) : Closing (start F A n) where
  books := books_start n
  unshut _ := ⟨by simp [Live, start], rfl, rfl⟩
  staffed := by simp [Staffed, start]
  joined := by simp [Joined, start]
  drained := by simp [Drained, start]
  retired := by simp [Retired, start]

lemma trans_closing {s t : Sys F A} (h : Trans s t) (hs : Closing s) : Closing t where
  books := trans_books h hs.books
  unshut := trans_unshut h hs.unshut
  staffed := trans_staffed h hs.unshut hs.staffed
  joined := trans_joined h hs.joined
  drained := trans_drained h hs.books hs.unshut hs.drained
  retired := trans_retired h hs.staffed hs.joined hs.retired

theorem reaches_closing {n : ℕ} {s : Sys F A} (h : Reaches Act.Ok n s) : Closing s := by
  obtain ⟨as, hok, hrun⟩ := h
  exact Runs.run_invariant (fun _ _ _ ha hs hst => trans_closing (step_trans ha hst) hs)
    (closing_start n) hok hrun

lemma reaches_threadNum {n : ℕ} {s : Sys F A} (h : Reaches Act.Ok n s) : s.threadNum = n := by
  obtain ⟨as, hok, hrun⟩ := h
  refine Runs.run_invariant (I := fun s : Sys F A => s.threadNum = n) ?_ rfl hok hrun
  intro s a t ha hs hst
  exact (trans_threadNum (step_trans ha hst)).trans hs

/-! ### Onward from a state -/

lemma trans_shutdown {s t : Sys F A} (h : Trans s t) (hs : s.pool.shutdown ≠ none) :
    t.pool.shutdown = s.pool.shutdown := by
  cases h with
  | destroy g hpc hl hsd => exact absurd hsd hs
  | _ => rfl

/-- Once it is set, the flag keeps its value. -/
theorem shutdown_kept {s t : Sys F A} {as : List (Act F A)} (hok : ∀ a ∈ as, a.Ok)
    (hrun : Runs.run step s as = some t) (hs : s.pool.shutdown ≠ none) :
    t.pool.shutdown = s.pool.shutdown :=
  Runs.run_rel (I := fun s => s.pool.shutdown ≠ none)
    (R := fun s t : Sys F A => t.pool.shutdown = s.pool.shutdown)
    (fun _ => rfl) (fun _ _ _ h1 h2 => h2.trans h1)
    (fun _ _ _ ha hs hst => by rw [trans_shutdown (step_trans ha hst) hs]; exact hs)
    (fun _ _ _ ha hs hst => trans_shutdown (step_trans ha hst) hs) hs hok hrun

/-- A call of `threadpool_add` after the flag is set is refused, whatever `malloc` would say. -/
lemma add_refused {s t : Sys F A} (hs : s.pool.shutdown ≠ none) {c : ℕ} {func : F} {arg : A}
    {malloc signal : Bool} {ws : List ℕ}
    (h : step s (.add c func arg malloc signal ws) = some t) :
    t.log = .added ⟨func, arg, s.tickets⟩ Err.alreadyShutdown.code :: s.log ∧
      t.pool = s.pool := by
  simp only [step] at h
  split_ifs at h with hpc
  obtain ⟨-, hcase⟩ := addStep_cases h
  cases hcase with
  | refuse hsd => exact ⟨rfl, rfl⟩
  | noMemory hsd => exact absurd hsd hs
  | accept hsd => exact absurd hsd hs

/-- When every worker has left, no task is called. -/
lemma trans_called {s t : Sys F A} (h : Trans s t) (hs : staying s.workers = 0) :
    called t = called s := by
  cases h with
  | call i x hw => exact absurd (staying_pos hw rfl) (by omega)
  | free =>
    simp only [called, filterMap_released (f := calledOf) fun _ => rfl]
  | refuse | accept | null | finish => simp [called, List.filterMap_cons, calledOf]
  | _ => rfl

lemma trans_destroyed {s t : Sys F A} (h : Trans s t) {d : ℕ} {g : Bool} {e : Option Err}
    (hd : s.destroys[d]? = some ⟨g, .returned e⟩) :
    t.destroys[d]? = some ⟨g, .returned e⟩ := by
  have hset : ∀ {d' i : ℕ} {g' : Bool} {e' : Option Err} {c : DestroyCall},
      s.destroys[d']? = some ⟨g', .joining i e'⟩ →
        (s.destroys.set d' c)[d]? = some ⟨g, .returned e⟩ := by
    intro d' i g' e' c hd'
    rw [List.getElem?_set_ne, hd]
    rintro rfl
    rw [hd] at hd'
    cases hd'
  have happ : ∀ c : DestroyCall, (s.destroys ++ [c])[d]? = some ⟨g, .returned e⟩ := fun c =>
    (List.getElem?_append_left (List.getElem?_eq_some_iff.mp hd).1).trans hd
  cases h with
  | destroy | again => exact happ _
  | join d' i g' e' hd' | leaveErr d' i g' e' hd' | freeRefused d' i g' hd' | free d' i g' hd' =>
    exact hset hd'
  | _ => exact hd

/-- After a call of `threadpool_destroy` has returned `0` no task is called. -/
theorem called_kept {s t : Sys F A} (hs : Closing s) {d : ℕ} {g : Bool}
    (hd : s.destroys[d]? = some ⟨g, .returned none⟩) {as : List (Act F A)}
    (hok : ∀ a ∈ as, a.Ok) (hrun : Runs.run step s as = some t) : called t = called s := by
  refine Runs.run_rel (I := fun s => Closing s ∧ s.destroys[d]? = some ⟨g, .returned none⟩)
    (R := fun s t : Sys F A => called t = called s) (fun _ => rfl) (fun _ _ _ h1 h2 => h2.trans h1)
    ?_ ?_ ⟨hs, hd⟩ hok hrun
  · rintro s a t ha ⟨hc, hd⟩ hst
    have htr := step_trans ha hst
    exact ⟨trans_closing htr hc, trans_destroyed htr hd⟩
  · rintro s a t ha ⟨hc, hd⟩ hst
    exact trans_called (step_trans ha hst) (hc.retired _ (List.mem_of_getElem? hd) rfl).2.2

/-! ### The contract -/

lemma errCode_eq_zero {e : Option Err} : errCode e = 0 ↔ e = none := by
  rcases e with _ | _ | _ | _ | _ | _ <;> simp [errCode, Err.code]

lemma held_eq_nil {s : Sys F A} (h : staying s.workers = 0) : held s = [] := by
  refine List.filterMap_eq_nil_iff.mpr fun w hw => ?_
  have := List.countP_eq_zero.mp h w hw
  cases w <;> simp_all [Worker.isExited, Worker.holds]

/-- The flag is set, and from then on `threadpool_add` refuses and leaves the queue alone. -/
def Shut (s : Sys F A) : Prop :=
  ∀ as t, (∀ a ∈ as, Act.Ok a) → Runs.run step s as = some t →
    t.pool.shutdown = s.pool.shutdown ∧
    ∀ c func arg malloc signal ws u, step t (.add c func arg malloc signal ws) = some u →
      u.log = .added ⟨func, arg, t.tickets⟩ Err.alreadyShutdown.code :: t.log ∧
      u.pool.head = t.pool.head ∧ u.pool.queueSize = t.pool.queueSize

variable [DecidableEq F] [DecidableEq A]

/-- Every task accepted has run to its end, once, and the queue is empty. -/
def AllRun (s : Sys F A) : Prop :=
  s.pool.head = [] ∧ ∀ t, Event.added t 0 ∈ s.log →
    (called s).count t = 1 ∧ (finished s).count t = 1

/-- No task runs any more; every task accepted has run once and was not released, or has not
run and was released; nothing else was released. -/
def RunOrReleased (s : Sys F A) : Prop :=
  (∀ w ∈ s.workers, w.isExited = true) ∧
  (∀ as t, (∀ a ∈ as, Act.Ok a) → Runs.run step s as = some t → called t = called s) ∧
  (∀ t, Event.added t 0 ∈ s.log →
    ((called s).count t = 1 ∧ (finished s).count t = 1 ∧ (released s).count t = 0) ∨
    ((called s).count t = 0 ∧ (finished s).count t = 0 ∧ (released s).count t = 1)) ∧
  ∀ t ∈ released s, Event.added t 0 ∈ s.log

/-- Where a call returned `0`, a task accepted is finished or released, and called if finished. -/
lemma returned_counts {n : ℕ} {s : Sys F A} (h : Reaches Act.Ok n s) {d : ℕ} {g : Bool}
    (hd : s.destroys[d]? = some ⟨g, .returned none⟩) (t : Task F A) :
    (called s).count t = (finished s).count t ∧
      (accepted s).count t = (finished s).count t + (released s).count t := by
  have hc := reaches_closing h
  obtain ⟨-, hh, h0⟩ := hc.retired _ (List.mem_of_getElem? hd) rfl
  have h1 := count_calls hc.books.calls t
  have h2 := count_balance (reaches_balanced h) t
  have h3 := (inside_sublist_held s).count_le t
  rw [held_eq_nil h0, List.count_nil] at h2 h3
  rw [hh, List.count_nil] at h2
  omega

/-- **Shutdown.** The flag never changes once set; `start_size` counts the workers that have not
left, so `threadpool_free` does not refuse; a graceful call that returned `0` leaves every task
run and an immediate one leaves every task run or released. -/
theorem shutdown_contract {n : ℕ} (hn : 0 < n) {s : Sys F A} (h : Reaches Act.Ok n s) :
    (s.pool.shutdown ≠ none → Shut s) ∧
    (s.init = .returned → s.pool.startSize = s.workers.countP fun w => !w.isExited) ∧
    (∀ (d : ℕ) (g : Bool) (i : ℕ), s.destroys[d]? = some ⟨g, .joining i none⟩ →
      ¬ i < s.pool.threadCount →
      s.pool.startSize = 0 ∧ (threadpoolFree { s.pool with lock := .destroyed }).1 = 0) ∧
    (∀ (d : ℕ) e, s.destroys[d]? = some ⟨true, .returned e⟩ → errCode e = 0 → AllRun s) ∧
    (∀ (d : ℕ) e, s.destroys[d]? = some ⟨false, .returned e⟩ → errCode e = 0 →
      RunOrReleased s) := by
  have hc := reaches_closing h
  have hone : ∀ t, Event.added t 0 ∈ s.log → (accepted s).count t = 1 := fun t ht =>
    List.count_eq_one_of_mem (accepted_nodup hc.books.ticketed) (mem_accepted.mpr ht)
  refine ⟨fun hsd as t hok hrun => ?_, fun hpc => ?_, fun d g i hd hi => ?_, ?_, ?_⟩
  · have hkept := shutdown_kept hok hrun hsd
    refine ⟨hkept, fun c func arg malloc signal ws u hu => ?_⟩
    obtain ⟨h1, h2⟩ := add_refused (by rwa [hkept]) hu
    exact ⟨h1, by rw [h2], by rw [h2]⟩
  · have hst := hc.staffed
    simp only [Staffed, hpc] at hst
    exact hst.2.2
  · have h0 := (staying_at_free hc.staffed hc.joined hd hi).2
    exact ⟨h0, by simp [threadpoolFree, h0]⟩
  · intro d e hd he
    obtain rfl := errCode_eq_zero.mp he
    obtain ⟨hsd, hh, h0⟩ := hc.retired _ (List.mem_of_getElem? hd) rfl
    refine ⟨hh, fun t ht => ?_⟩
    -- somebody has left, so the pool was drained
    have hex : 0 < s.workers.countP Worker.isExited := by
      have hst := hc.staffed
      simp only [Staffed, hc.staffed.returned (by simp [hsd])] at hst
      have := staying_add_exited s.workers
      have hnum := reaches_threadNum h
      omega
    have hrel := (hc.drained hsd hex).2
    have h1 := returned_counts h hd t
    rw [hrel, hone t ht, List.count_nil] at h1
    omega
  · intro d e hd he
    obtain rfl := errCode_eq_zero.mp he
    obtain ⟨-, -, h0⟩ := hc.retired _ (List.mem_of_getElem? hd) rfl
    refine ⟨fun w hw => ?_, fun as t hok hrun => called_kept hc hd hok hrun, fun t ht => ?_,
      fun t ht => ?_⟩
    · simpa using List.countP_eq_zero.mp h0 w hw
    · have h1 := returned_counts h hd t
      rw [hone t ht] at h1
      omega
    · have h1 := returned_counts h hd t
      have h2 : 0 < (released s).count t := List.count_pos_iff.mpr ht
      exact mem_accepted.mp (List.count_pos_iff.mp (by omega))

/-- One worker, one task added, shut down at once: the task is released, not run. -/
def dropTask : List (Act Unit ℕ) :=
  [.create true true, .initStep, .initStep, .initStep, .initStep, .turn 0,
    .add 0 () 7 true true [0], .destroy 1 false true, .turn 0, .join 0 true, .leave 0]

def dropTaskEnd : Sys Unit ℕ where
  threadNum := 1
  pool := ⟨.destroyed, [], 1, 1, some .immediate, 0⟩
  workers := [.exited]
  init := .returned
  destroys := [⟨false, .returned none⟩]
  tickets := 1
  log := [.released ⟨(), 7, 0⟩, .added ⟨(), 7, 0⟩ 0]

theorem shutdown_contract_dropTask :
    Reaches Act.Ok 1 dropTaskEnd ∧ Shut dropTaskEnd ∧ RunOrReleased dropTaskEnd := by
  have h : Reaches Act.Ok 1 dropTaskEnd := ⟨dropTask, by decide, by decide⟩
  have hc := shutdown_contract Nat.one_pos h
  exact ⟨h, hc.1 (by decide), hc.2.2.2.2 0 none rfl rfl⟩

end WeatherQuery.PoolShutdown
