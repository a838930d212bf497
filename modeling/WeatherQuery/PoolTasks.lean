import WeatherQuery.PoolSteps
import WeatherQuery.TaskBag

/-!
The tasks of the pool: none lost, none doubled.

The pool is a bag of work: the chain is what waits, the tasks dequeued and not finished are
what runs. Every step of the code is a move of that bag or leaves it alone, so the balance of
the bag holds in every reachable state, and tickets, which no two calls of `threadpool_add`
share, turn the balance into "exactly one place".
-/

namespace WeatherQuery.PoolTasks

open WeatherQuery.PoolModel WeatherQuery.PoolSteps WeatherQuery.TaskBag

variable {F A : Type}

/-! ### Reading the log -/

/-- The calls of `threadpool_add` that returned, with what they returned. -/
def retOf : Event F A → Option (Task F A × ℤ)
  | .added t rc => some (t, rc)
  | _ => none

def acceptedOf : Event F A → Option (Task F A)
  | .added t rc => if rc = 0 then some t else none
  | _ => none

def calledOf : Event F A → Option (Task F A)
  | .called t => some t
  | _ => none

def finishedOf : Event F A → Option (Task F A)
  | .finished t => some t
  | _ => none

def releasedOf : Event F A → Option (Task F A)
  | .released t => some t
  | _ => none

def returns (s : Sys F A) : List (Task F A × ℤ) := s.log.filterMap retOf
def accepted (s : Sys F A) : List (Task F A) := s.log.filterMap acceptedOf
def called (s : Sys F A) : List (Task F A) := s.log.filterMap calledOf
def finished (s : Sys F A) : List (Task F A) := s.log.filterMap finishedOf
def released (s : Sys F A) : List (Task F A) := s.log.filterMap releasedOf

/-- The tasks that workers have dequeued and not finished. -/
def held (s : Sys F A) : List (Task F A) := s.workers.filterMap Worker.holds

/-- The tasks that workers are inside. -/
def inside (s : Sys F A) : List (Task F A) := s.workers.filterMap Worker.inside

/-- The pool as a bag of work. -/
def bagOf (s : Sys F A) : Bag (Task F A) where
  accepted := accepted s
  pending := s.pool.head
  active := held s
  done := finished s
  dropped := released s

lemma filterMap_released {β : Type} {f : Event F A → Option β} (hf : ∀ t, f (.released t) = none)
    (l : List (Task F A)) (log : List (Event F A)) :
    (l.map Event.released ++ log).filterMap f = log.filterMap f := by
  have : (l.map Event.released).filterMap f = [] := by
    rw [List.filterMap_eq_nil_iff]
    intro e he
    obtain ⟨t, -, rfl⟩ := List.mem_map.mp he
    exact hf t
  rw [List.filterMap_append, this, List.nil_append]

lemma filterMap_released_self (l : List (Task F A)) (log : List (Event F A)) :
    (l.map Event.released ++ log).filterMap releasedOf = l ++ log.filterMap releasedOf := by
  induction l with
  | nil => rfl
  | cons x l ih => simpa [List.filterMap_cons, releasedOf] using ih

/-! ### One step -/

/-- A worker at the top of its loop holds no task. -/
lemma holds_of_turn {w : Worker F A} (h : w = .top ∨ w = .woken) : w.holds = none := by
  rcases h with rfl | rfl <;> rfl

lemma inside_of_turn {w : Worker F A} (h : w = .top ∨ w = .woken) : w.inside = none := by
  rcases h with rfl | rfl <;> rfl

/-- **The code refines the bag.** A step is a move of the bag of work, or leaves it alone. -/
theorem trans_refines {s t : Sys F A} (h : Trans s t) :
    bagOf t = bagOf s ∨ Move (bagOf s) (bagOf t) := by
  cases h with
  | create i hpc hi =>
    left
    simp [bagOf, accepted, held, finished, released, List.filterMap_cons, Worker.holds]
  | initReturn | count | load | store | unwound | again | join | leaveErr | freeRefused =>
    exact .inl rfl
  | refuse func arg hpc hl hsd =>
    left
    simp [bagOf, accepted, held, finished, released, List.filterMap_cons, acceptedOf, finishedOf,
      releasedOf, Err.code]
  | accept func arg ws hpc hl hsd hsig =>
    right
    convert Move.submit (bagOf s) ⟨func, arg, s.tickets⟩ using 1
    simp [bagOf, accepted, held, finished, released, List.filterMap_cons, acceptedOf, finishedOf,
      releasedOf, filterMap_wakeAll holds_wake]
  | spurious i hw =>
    left
    simp only [bagOf, held, Slots.filterMap_set_eq hw (f := Worker.holds) (b := .woken) rfl]
    rfl
  | park i w hw htw hl hq hsd =>
    left
    have hset :=
      Slots.filterMap_set_eq (f := Worker.holds) hw (b := .parked) (holds_of_turn htw).symm
    simp only [bagOf, held, hset]
    rfl
  | quit i w hw htw hl hsd =>
    left
    have hset :=
      Slots.filterMap_set_eq (f := Worker.holds) hw (b := .exited) (holds_of_turn htw).symm
    simp only [bagOf, held, hset]
    rfl
  | null i w hw htw hl hq hh =>
    left
    have hset :=
      Slots.filterMap_set_eq (f := Worker.holds) hw (b := .top) (holds_of_turn htw).symm
    simp only [bagOf, held, hset]
    rfl
  | take i w x next hw htw hl hq hsd hh =>
    right
    obtain ⟨m, h1, h2⟩ := Slots.filterMap_set Worker.holds hw
    convert Move.start (bagOf s) x next (by simp [bagOf, hh]) using 1
    rcases htw with rfl | rfl <;>
      simp [bagOf, held, h1, h2, Worker.holds, accepted, finished, released]
  | call i x hw =>
    left
    simp only [bagOf, held, Slots.filterMap_set_eq hw (f := Worker.holds) (b := .running x) rfl]
    rfl
  | finish i x hw =>
    right
    obtain ⟨m, h1, h2⟩ := Slots.filterMap_set Worker.holds hw
    convert Move.finish (bagOf s) x m (by simp [bagOf, held, h1, Worker.holds]) using 1
    simp [bagOf, held, h2, Worker.holds, accepted, finished, released, List.filterMap_cons,
      acceptedOf, finishedOf, releasedOf]
  | destroy g hpc hl hsd =>
    left
    simp [bagOf, held, filterMap_map_wake holds_wake, accepted, finished, released]
  | free d i g hd hi hss =>
    right
    convert Move.drop (bagOf s) using 1
    simp only [bagOf, held, accepted, finished, released, filterMap_released_self,
      filterMap_released (f := acceptedOf) fun _ => rfl,
      filterMap_released (f := finishedOf) fun _ => rfl]
    simp

/-- The pool has not been handed to `threadpool_free`. -/
def Live (s : Sys F A) : Prop := s.pool.lock ≠ .destroyed

instance (s : Sys F A) : Decidable (Live s) := inferInstanceAs (Decidable (¬ _))

/-- While the pool lives, `queue_size` counts the chain and nothing has been released. -/
def Counted (s : Sys F A) : Prop :=
  Live s → s.pool.queueSize = s.pool.head.length ∧ released s = []

lemma trans_counted {s t : Sys F A} (h : Trans s t) (hs : Counted s) : Counted t := by
  cases h with
  | create | initReturn | count | load | store | unwound | spurious | park | quit | join |
    leaveErr | destroy => exact hs
  | again c g hpc hl hsd => exact fun _ => hs (by simp [Live, hl])
  | freeRefused | free => exact fun ht => absurd rfl ht
  | refuse | null | call | finish =>
    intro ht
    obtain ⟨h1, h2⟩ := hs ht
    exact ⟨h1, by simpa [released, List.filterMap_cons, releasedOf] using h2⟩
  | accept func arg ws hpc hl hsd hsig =>
    intro ht
    obtain ⟨h1, h2⟩ := hs ht
    refine ⟨by simp [h1], by simpa [released, List.filterMap_cons, releasedOf] using h2⟩
  | take i w x next hw htw hl hq hsd hh =>
    intro ht
    obtain ⟨h1, h2⟩ := hs ht
    exact ⟨by simp [h1, hh], h2⟩

/-- The branch `task == NULL` needs an empty chain and a `queue_size` other than `0`. -/
lemma trans_noNull {s t : Sys F A} (h : Trans s t) (hc : Counted s)
    (hs : ∀ i, Event.nullTask i ∉ s.log) : ∀ i, Event.nullTask i ∉ t.log := by
  cases h with
  | create | initReturn | count | load | store | unwound | spurious | park | quit | join |
    leaveErr | destroy | again | freeRefused | take => exact hs
  | refuse | accept | call | finish => simpa using hs
  | free => simpa using hs
  | null i w hw htw hl hq hh =>
    refine absurd ?_ hq
    rw [(hc (by simp [Live, hl])).1, hh]
    rfl

/-- A task is called when a worker goes inside it. -/
def CallsKept (s : Sys F A) : Prop :=
  (called s : Multiset (Task F A)) = inside s + finished s

lemma trans_calls {s t : Sys F A} (h : Trans s t) (hs : CallsKept s) : CallsKept t := by
  unfold CallsKept at hs ⊢
  cases h with
  | initReturn | count | load | store | unwound | join | leaveErr | again | freeRefused => exact hs
  | create i hpc hi => simpa [called, inside, finished, List.filterMap_cons, Worker.inside] using hs
  | refuse => simpa [called, inside, finished, List.filterMap_cons, calledOf, finishedOf] using hs
  | accept func arg ws =>
    simpa [called, inside, finished, List.filterMap_cons, calledOf, finishedOf,
      filterMap_wakeAll inside_wake] using hs
  | destroy =>
    simpa [called, inside, finished, filterMap_map_wake inside_wake] using hs
  | free =>
    simp only [called, inside, finished, filterMap_released (f := calledOf) fun _ => rfl,
      filterMap_released (f := finishedOf) fun _ => rfl]
    exact hs
  | spurious i hw =>
    simp only [inside, Slots.filterMap_set_eq hw (f := Worker.inside) (b := .woken) rfl]
    exact hs
  | park i w hw htw =>
    have hset :=
      Slots.filterMap_set_eq (f := Worker.inside) hw (b := .parked) (inside_of_turn htw).symm
    simp only [inside, hset]
    exact hs
  | quit i w hw htw =>
    have hset :=
      Slots.filterMap_set_eq (f := Worker.inside) hw (b := .exited) (inside_of_turn htw).symm
    simp only [inside, hset]
    exact hs
  | null i w hw htw =>
    have hset :=
      Slots.filterMap_set_eq (f := Worker.inside) hw (b := .top) (inside_of_turn htw).symm
    simp only [inside, hset]
    exact hs
  | take i w x next hw htw =>
    have hset :=
      Slots.filterMap_set_eq (f := Worker.inside) hw (b := .took x) (inside_of_turn htw).symm
    simp only [inside, hset]
    exact hs
  | call i x hw =>
    obtain ⟨m, h1, h2⟩ := Slots.filterMap_set Worker.inside hw
    simp only [called, inside, finished, h1, Worker.inside] at hs
    simpa [called, inside, finished, h2, Worker.inside, List.filterMap_cons, calledOf,
      finishedOf, ← Multiset.cons_coe] using hs
  | finish i x hw =>
    obtain ⟨m, h1, h2⟩ := Slots.filterMap_set Worker.inside hw
    simp only [called, inside, finished, h1, Worker.inside] at hs
    simpa [called, inside, finished, h2, Worker.inside, List.filterMap_cons, calledOf,
      finishedOf, ← Multiset.cons_coe] using hs

/-- No two calls of `threadpool_add` share a ticket. -/
def Ticketed (s : Sys F A) : Prop :=
  ((returns s).map fun r => r.1.ticket).Nodup ∧ ∀ r ∈ returns s, r.1.ticket < s.tickets

lemma ticketed_add {s : Sys F A} (hs : Ticketed s) (x : Task F A) (hx : x.ticket = s.tickets)
    (rc : ℤ) : ((x, rc) :: returns s).map (fun r => r.1.ticket) |>.Nodup := by
  refine List.nodup_cons.mpr ⟨fun hm => ?_, hs.1⟩
  obtain ⟨r, hr, he⟩ := List.mem_map.mp hm
  have := hs.2 r hr
  simp only at he
  omega

lemma trans_ticketed {s t : Sys F A} (h : Trans s t) (hs : Ticketed s) : Ticketed t := by
  cases h with
  | create | initReturn | count | load | store | unwound | spurious | park | quit | join |
    leaveErr | destroy | again | freeRefused | take => exact hs
  | null | call | finish => simpa [Ticketed, returns, List.filterMap_cons, retOf] using hs
  | free =>
    simp only [Ticketed, returns, filterMap_released (f := retOf) fun _ => rfl]
    exact hs
  | refuse | accept =>
    refine ⟨ticketed_add hs _ rfl _, fun r hr => ?_⟩
    rcases List.mem_cons.mp hr with rfl | hr
    · exact Nat.lt_succ_self _
    · exact Nat.lt_succ_of_lt (hs.2 r hr)

/-! ### Every run -/

/-- **Refinement.** Every run of the pool is a run of the bag of work. -/
theorem reaches_refines {n : ℕ} {s : Sys F A} (h : Reaches Act.Ok n s) :
    Relation.ReflTransGen Move (bagOf (start F A n)) (bagOf s) := by
  obtain ⟨as, hok, hrun⟩ := h
  refine Runs.run_rel (I := fun _ => True)
    (R := fun s t : Sys F A => Relation.ReflTransGen Move (bagOf s) (bagOf t))
    (fun _ => .refl) (fun _ _ _ => .trans) (fun _ _ _ _ _ _ => trivial) ?_ trivial hok hrun
  intro s a t ha _ hst
  rcases trans_refines (step_trans ha hst) with he | hm
  · rw [he]
  · exact .single hm

/-- What else holds of the tasks in every reachable state. -/
structure Books (s : Sys F A) : Prop where
  counted : Counted s
  noNull : ∀ i, Event.nullTask i ∉ s.log
  calls : CallsKept s
  ticketed : Ticketed s

lemma books_start (n : ℕ) : Books (start F A n) where
  counted _ := ⟨rfl, rfl⟩
  noNull := by simp [start]
  calls := rfl
  ticketed := by simp [Ticketed, returns, start]

lemma trans_books {s t : Sys F A} (h : Trans s t) (hs : Books s) : Books t where
  counted := trans_counted h hs.counted
  noNull := trans_noNull h hs.counted hs.noNull
  calls := trans_calls h hs.calls
  ticketed := trans_ticketed h hs.ticketed

theorem reaches_books {n : ℕ} {s : Sys F A} (h : Reaches Act.Ok n s) : Books s := by
  obtain ⟨as, hok, hrun⟩ := h
  exact Runs.run_invariant (fun _ _ _ ha hs hst => trans_books (step_trans ha hst) hs)
    (books_start n) hok hrun

theorem reaches_balanced {n : ℕ} {s : Sys F A} (h : Reaches Act.Ok n s) : Balanced (bagOf s) :=
  balanced_of_moves (reaches_refines h) rfl

/-! ### Exactly one place -/

lemma mem_accepted {s : Sys F A} {t : Task F A} : t ∈ accepted s ↔ Event.added t 0 ∈ s.log := by
  unfold accepted
  rw [List.mem_filterMap]
  constructor
  · rintro ⟨e, he, h⟩
    cases e with
    | added x rc =>
      simp only [acceptedOf, Option.ite_none_right_eq_some, Option.some.injEq] at h
      obtain ⟨rfl, rfl⟩ := h
      exact he
    | _ => cases h
  · exact fun h => ⟨_, h, by simp [acceptedOf]⟩

lemma mem_returns {s : Sys F A} {t : Task F A} {rc : ℤ} (h : Event.added t rc ∈ s.log) :
    (t, rc) ∈ returns s := List.mem_filterMap.mpr ⟨_, h, rfl⟩

lemma accepted_sublist (log : List (Event F A)) :
    ((log.filterMap acceptedOf).map Task.ticket).Sublist
      ((log.filterMap retOf).map fun r => r.1.ticket) := by
  induction log with
  | nil => exact List.Sublist.refl _
  | cons e log ih =>
    cases e with
    | added x rc =>
      by_cases h0 : rc = 0
      · simpa [List.filterMap_cons, acceptedOf, retOf, h0] using ih
      · simpa [List.filterMap_cons, acceptedOf, retOf, h0] using ih.cons _
    | _ => simpa [List.filterMap_cons, acceptedOf, retOf] using ih

lemma accepted_nodup {s : Sys F A} (h : Ticketed s) : (accepted s).Nodup :=
  List.Nodup.of_map _ ((accepted_sublist s.log).nodup h.1)

lemma inside_sublist_held (s : Sys F A) : (inside s).Sublist (held s) := by
  unfold inside held
  induction s.workers with
  | nil => exact List.Sublist.refl _
  | cons w l ih =>
    cases w with
    | took x => simpa [List.filterMap_cons, Worker.holds, Worker.inside] using ih.cons _
    | running x => simpa [List.filterMap_cons, Worker.holds, Worker.inside] using ih
    | _ => simpa [List.filterMap_cons, Worker.holds, Worker.inside] using ih

variable [DecidableEq F] [DecidableEq A]

lemma count_calls {s : Sys F A} (h : CallsKept s) (t : Task F A) :
    (called s).count t = (inside s).count t + (finished s).count t := by
  simpa [Multiset.count_add] using congrArg (Multiset.count t) h

lemma count_balance {s : Sys F A} (h : Balanced (bagOf s)) (t : Task F A) :
    (accepted s).count t =
      s.pool.head.count t + (held s).count t + (finished s).count t + (released s).count t := by
  simpa [bagOf, Multiset.count_add, add_assoc] using congrArg (Multiset.count t) h

/-- A call needs an acceptance. -/
lemma count_called_le {s : Sys F A} (hb : Balanced (bagOf s)) (hc : CallsKept s) (t : Task F A) :
    (called s).count t ≤ (accepted s).count t := by
  have h1 := count_calls hc t
  have h2 := count_balance hb t
  have h3 := (inside_sublist_held s).count_le t
  omega

lemma not_accepted_of_refused {s : Sys F A} (h : Ticketed s) {t : Task F A} {rc : ℤ}
    (ht : Event.added t rc ∈ s.log) (hrc : rc ≠ 0) : (accepted s).count t = 0 := by
  refine List.count_eq_zero.mpr fun ha => hrc ?_
  have he := List.inj_on_of_nodup_map h.1 (mem_returns ht) (mem_returns (mem_accepted.mp ha)) rfl
  exact congrArg Prod.snd he

/-- **No loss and no duplication.** Until `threadpool_free`, `queue_size` counts the chain, the
branch `task == NULL` is not taken, and a task that `threadpool_add` accepted is on the chain
once, or held by one worker, or finished after one call. A task it refused is not called. -/
theorem accepted_in_one_place {n : ℕ} {s : Sys F A} (h : Reaches Act.Ok n s) :
    (Live s →
      s.pool.queueSize = s.pool.head.length ∧ (∀ i, Event.nullTask i ∉ s.log) ∧
      ∀ t, Event.added t 0 ∈ s.log →
        (s.pool.head.count t = 1 ∧ (held s).count t = 0 ∧ (finished s).count t = 0) ∨
        (s.pool.head.count t = 0 ∧ (held s).count t = 1 ∧ (finished s).count t = 0) ∨
        (s.pool.head.count t = 0 ∧ (held s).count t = 0 ∧ (finished s).count t = 1 ∧
          (called s).count t = 1)) ∧
    ∀ t rc, Event.added t rc ∈ s.log → rc ≠ 0 → (called s).count t = 0 := by
  have hb := reaches_books h
  have hbal := reaches_balanced h
  refine ⟨fun hlive => ?_, fun t rc ht hrc => ?_⟩
  · obtain ⟨hq, hrel⟩ := hb.counted hlive
    refine ⟨hq, hb.noNull, fun t ht => ?_⟩
    have h1 := one_place hbal (accepted_nodup hb.ticketed) (mem_accepted.mpr ht)
    simp only [bagOf, Multiset.coe_count, hrel, List.count_nil, add_zero] at h1
    have h2 := count_calls hb.calls t
    have h3 := (inside_sublist_held s).count_le t
    omega
  · have h1 := count_called_le hbal hb.calls t
    rw [not_accepted_of_refused hb.ticketed ht hrc] at h1
    omega

/-- One worker, one task added while it is parked, run to its end. -/
def oneTask : List (Act Unit ℕ) :=
  [.create true true, .initStep, .initStep, .initStep, .initStep, .turn 0,
    .add 0 () 7 true true [0], .turn 0, .call 0, .finish 0]

def oneTaskEnd : Sys Unit ℕ where
  threadNum := 1
  pool := ⟨.free, [], 1, 0, none, 1⟩
  workers := [.top]
  init := .returned
  destroys := []
  tickets := 1
  log := [.finished ⟨(), 7, 0⟩, .called ⟨(), 7, 0⟩, .added ⟨(), 7, 0⟩ 0]

lemma oneTask_reaches : Reaches Act.Ok 1 oneTaskEnd := ⟨oneTask, by decide, by decide⟩

theorem accepted_in_one_place_oneTask :
    Live oneTaskEnd ∧ Event.added ⟨(), 7, 0⟩ 0 ∈ oneTaskEnd.log ∧
      oneTaskEnd.pool.queueSize = oneTaskEnd.pool.head.length ∧
      ∀ i, Event.nullTask i ∉ oneTaskEnd.log := by
  have hplace := (accepted_in_one_place oneTask_reaches).1 (by decide)
  exact ⟨by decide, by decide, hplace.1, hplace.2.1⟩

end WeatherQuery.PoolTasks
