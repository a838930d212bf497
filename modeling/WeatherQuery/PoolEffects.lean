import WeatherQuery.PoolTasks

/-!
What a step of the pool does to its chain, its counter and its lock, whatever the outcomes of
`malloc` and of the `pthread` primitives.
-/

namespace WeatherQuery.PoolEffects

open WeatherQuery.PoolModel WeatherQuery.PoolSteps WeatherQuery.PoolTasks

variable {F A : Type}

/-- The task that a step takes off the chain. -/
def takenBy (s : Sys F A) : Act F A → Option (Task F A)
  | .turn i =>
    match s.workers[i]?, workerTurn (.worker i) s.pool with
    | some .top, some (.task t, _) | some .woken, some (.task t, _) => some t
    | _, _ => none
  | _ => none

/-- The thread that a step makes take the lock in a call of `threadpool_add` or
`threadpool_destroy`. -/
def caller : Act F A → Option Thread
  | .create _ _ => some .init
  | .add c _ _ _ _ _ | .destroy c _ _ => some (.client c)
  | _ => none

/-- The chain, the counter and the accepted tasks stay as they are. -/
structure Kept (s t : Sys F A) : Prop where
  head : t.pool.head = s.pool.head
  queueSize : t.pool.queueSize = s.pool.queueSize
  accepted : accepted t = accepted s
  tickets : s.tickets ≤ t.tickets

/-- The kinds of steps. -/
inductive Effect (s : Sys F A) (a : Act F A) (t : Sys F A) : Prop
  | quiet (htake : takenBy s a = none) (hkept : Kept s t) (hlock : t.pool.lock = s.pool.lock)
  /-- A call returns with the lock. -/
  | stuck (who : Thread) (hwho : caller a = some who) (htake : takenBy s a = none)
      (hkept : Kept s t) (hl : s.pool.lock = .free) (hlock : t.pool.lock = .held who)
  | accept (x : Task F A) (htake : takenBy s a = none) (hl : s.pool.lock = .free)
      (hlock : t.pool.lock = .free) (hx : x.ticket = s.tickets)
      (hhead : t.pool.head = x :: s.pool.head) (hacc : accepted t = x :: accepted s)
      (htickets : t.tickets = s.tickets + 1)
  | take (x : Task F A) (next : List (Task F A)) (htake : takenBy s a = some x)
      (hl : s.pool.lock = .free) (hlock : t.pool.lock = .free)
      (hhead : s.pool.head = x :: next) (hnext : t.pool.head = next)
      (hacc : accepted t = accepted s) (htickets : t.tickets = s.tickets)
  | closed (htake : takenBy s a = none) (hlock : t.pool.lock = .destroyed)
      (hhead : t.pool.head = [] ∨ t.pool.head = s.pool.head) (hacc : accepted t = accepted s)
      (htickets : t.tickets = s.tickets)

lemma Effect.withInit {s t : Sys F A} {a : Act F A} (h : Effect s a t) (pc : InitPc) :
    Effect s a { t with init := pc } := by
  cases h with
  | quiet htake hkept hlock =>
    exact .quiet htake ⟨hkept.head, hkept.queueSize, hkept.accepted, hkept.tickets⟩ hlock
  | stuck who hwho htake hkept hl hlock =>
    exact .stuck who hwho htake ⟨hkept.head, hkept.queueSize, hkept.accepted, hkept.tickets⟩ hl
      hlock
  | accept x htake hl hlock hx hhead hacc htickets =>
    exact .accept x htake hl hlock hx hhead hacc htickets
  | take x next htake hl hlock hhead hnext hacc htickets =>
    exact .take x next htake hl hlock hhead hnext hacc htickets
  | closed htake hlock hhead hacc htickets => exact .closed htake hlock hhead hacc htickets

lemma initStep_effect {s t : Sys F A} (h : initStep s = some t) : Effect s .initStep t := by
  unfold initStep at h
  split at h
  case h_1 i hpc =>
    split_ifs at h with hi
    obtain rfl := Option.some.inj h
    exact .quiet rfl ⟨rfl, rfl, rfl, le_rfl⟩ rfl
  case h_2 i hpc | h_3 i hpc | h_4 i v hpc =>
    obtain rfl := Option.some.inj h
    exact .quiet rfl ⟨rfl, rfl, rfl, le_rfl⟩ rfl
  case h_5 d hpc =>
    split at h
    · obtain rfl := Option.some.inj h
      exact .quiet rfl ⟨rfl, rfl, rfl, le_rfl⟩ rfl
    · cases h
  all_goals cases h

lemma enterDestroy_effect {s t : Sys F A} {me : Thread} {g b : Bool} {a : Act F A}
    (hwho : caller a = some me) (htake : takenBy s a = none)
    (h : enterDestroy me g b s = some t) : Effect s a t := by
  obtain ⟨hl, hcase⟩ := enterDestroy_cases h
  cases hcase with
  | first hsd hb => exact .quiet htake ⟨rfl, rfl, rfl, le_rfl⟩ rfl
  | unsent hsd hb => exact .stuck me hwho htake ⟨rfl, rfl, rfl, le_rfl⟩ hl rfl
  | again hsd => exact .stuck me hwho htake ⟨rfl, rfl, rfl, le_rfl⟩ hl rfl

lemma accepted_zero {x : Task F A} {s t : Sys F A} (h : t.log = .added x 0 :: s.log) :
    accepted t = x :: accepted s := by
  simp [accepted, h, acceptedOf]

lemma accepted_nonzero {x : Task F A} {rc : ℤ} (hrc : rc ≠ 0) {s t : Sys F A}
    (h : t.log = .added x rc :: s.log) : accepted t = accepted s := by
  simp [accepted, h, acceptedOf, hrc]

lemma addStep_effect {s t : Sys F A} {c : ℕ} {func : F} {arg : A} {malloc signal : Bool}
    {ws : List ℕ} (h : addStep c func arg malloc signal ws s = some t) :
    Effect s (.add c func arg malloc signal ws) t := by
  obtain ⟨hl, hcase⟩ := addStep_cases h
  cases hcase with
  | refuse hsd =>
    exact .quiet rfl ⟨rfl, rfl, accepted_nonzero (by decide) rfl, Nat.le_succ _⟩ rfl
  | noMemory hsd hm =>
    exact .stuck (.client c) rfl rfl ⟨rfl, rfl, accepted_nonzero (by decide) rfl, Nat.le_succ _⟩
      hl rfl
  | accept hsd hm l hw =>
    exact .accept ⟨func, arg, s.tickets⟩ rfl hl hl rfl rfl (accepted_zero rfl) rfl

lemma takenBy_turn {s : Sys F A} {i : ℕ} {w : Worker F A} (hw : s.workers[i]? = some w)
    (htw : w = .top ∨ w = .woken) :
    takenBy s (.turn i) =
      match workerTurn (.worker i) s.pool with
      | some (.task t, _) => some t
      | _ => none := by
  rcases htw with rfl | rfl <;> simp only [takenBy, hw] <;>
    rcases workerTurn (.worker i) s.pool with _ | ⟨o, p⟩ <;> first | rfl | cases o <;> rfl

lemma workerTurn_effect {p p' : Pool F A} {me : Thread} {o : Outcome F A}
    (h : workerTurn me p = some (o, p')) :
    p.lock = .free ∧ p'.lock = .free ∧
      match o with
      | .task t => ∃ next, p.head = t :: next ∧ p'.head = next
      | _ => p'.head = p.head ∧ p'.queueSize = p.queueSize := by
  by_cases hl : p.lock = .free
  swap
  · simp [workerTurn, mutexLock_eq_none hl] at h
  refine ⟨hl, ?_⟩
  simp only [workerTurn, mutexLock_of_free hl, Option.bind_eq_bind, Option.bind_some] at h
  split_ifs at h with hwait himm hgrace
  · obtain ⟨rfl, rfl⟩ : _ = o ∧ _ = p' := by simpa using h
    exact ⟨rfl, rfl, rfl⟩
  · obtain ⟨rfl, rfl⟩ : _ = o ∧ _ = p' := by simpa using h
    exact ⟨rfl, rfl, rfl⟩
  · obtain ⟨rfl, rfl⟩ : _ = o ∧ _ = p' := by simpa using h
    exact ⟨rfl, rfl, rfl⟩
  · rcases hh : p.head with _ | ⟨x, next⟩
    · obtain ⟨rfl, rfl⟩ : _ = o ∧ _ = p' := by simpa [hh] using h
      exact ⟨rfl, rfl, rfl⟩
    · obtain ⟨rfl, rfl⟩ : _ = o ∧ _ = p' := by simpa [hh] using h
      exact ⟨rfl, next, rfl, rfl⟩

lemma turnStep_effect {s t : Sys F A} {i : ℕ} {w : Worker F A} (hw : s.workers[i]? = some w)
    (htw : w = .top ∨ w = .woken) (h : turnStep i s = some t) : Effect s (.turn i) t := by
  have htake := takenBy_turn hw htw
  unfold turnStep at h
  rcases hturn : workerTurn (.worker i) s.pool with _ | ⟨o, p⟩
  · simp [hturn] at h
  · rw [hturn] at h htake
    obtain ⟨hl, hlock, heffect⟩ := workerTurn_effect hturn
    cases o with
    | task x =>
      obtain ⟨next, hhead, hnext⟩ := heffect
      obtain rfl : _ = t := by simpa using h
      exact .take x next htake hl hlock hhead hnext rfl rfl
    | wait | null | quit =>
      obtain ⟨hhead, hsize⟩ := heffect
      obtain rfl : _ = t := by simpa using h
      exact .quiet htake ⟨hhead, hsize, rfl, le_rfl⟩ (hlock.trans hl.symm)

lemma leaveDestroy_effect (d : ℕ) (c : DestroyCall) (err : Option Err) (s : Sys F A) :
    Effect s (.leave d) (leaveDestroy d c err s) := by
  rcases err with _ | e
  · by_cases hss : 0 < s.pool.startSize
    · refine .closed rfl ?_ (.inr ?_) ?_ rfl <;> simp [leaveDestroy, threadpoolFree, hss, accepted]
    · refine .closed rfl ?_ (.inl ?_) ?_ rfl
      · simp [leaveDestroy, threadpoolFree, hss]
      · simp [leaveDestroy, threadpoolFree, hss]
      · simp only [leaveDestroy, threadpoolFree, hss, if_false, accepted]
        exact filterMap_released (fun _ => rfl) _ _
  · exact .quiet rfl ⟨rfl, rfl, rfl, le_rfl⟩ rfl

/-- **Every step**, whatever the outcomes. -/
theorem step_effect {s t : Sys F A} {a : Act F A} (h : step s a = some t) : Effect s a t := by
  cases a with
  | create ok broadcast =>
    simp only [step] at h
    split at h
    · rename_i i hpc
      split_ifs at h with hi hok
      · obtain rfl := Option.some.inj h
        exact .quiet rfl ⟨rfl, rfl, rfl, le_rfl⟩ rfl
      · obtain ⟨r, hr, rfl⟩ := Option.map_eq_some_iff.mp h
        exact (enterDestroy_effect rfl rfl hr).withInit _
    · cases h
  | initStep => exact initStep_effect h
  | add c func arg malloc signal ws =>
    simp only [step] at h
    split_ifs at h with hpc
    exact addStep_effect h
  | spurious i =>
    simp only [step] at h
    split at h
    · obtain rfl := Option.some.inj h
      exact .quiet rfl ⟨rfl, rfl, rfl, le_rfl⟩ rfl
    · cases h
  | turn i =>
    obtain ⟨w, hw, htw, hturn⟩ := turn_inv h
    exact turnStep_effect hw htw hturn
  | call i =>
    simp only [step] at h
    split at h
    · obtain rfl := Option.some.inj h
      exact .quiet rfl ⟨rfl, rfl, rfl, le_rfl⟩ rfl
    · cases h
  | finish i =>
    simp only [step] at h
    split at h
    · obtain rfl := Option.some.inj h
      exact .quiet rfl ⟨rfl, rfl, rfl, le_rfl⟩ rfl
    · cases h
  | destroy c g broadcast =>
    simp only [step] at h
    split_ifs at h with hpc
    exact enterDestroy_effect rfl rfl h
  | join d ok =>
    simp only [step] at h
    split at h
    · split_ifs at h with hi hok
      · split at h
        · obtain rfl := Option.some.inj h
          exact .quiet rfl ⟨rfl, rfl, rfl, le_rfl⟩ rfl
        · cases h
      · obtain rfl := Option.some.inj h
        exact .quiet rfl ⟨rfl, rfl, rfl, le_rfl⟩ rfl
    · cases h
  | leave d =>
    simp only [step] at h
    split at h
    · rename_i g i err hd
      split_ifs at h with hi
      obtain rfl := Option.some.inj h
      exact leaveDestroy_effect d _ err s
    · cases h

end WeatherQuery.PoolEffects
