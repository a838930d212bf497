import WeatherQuery.Runs
import WeatherQuery.TimerLists

/-!
What the timers are for.

A schedule is a set of entries with their times. Running it calls only entries that are due, each
of them once for a one-shot timer, and comes to its end only when nothing is left that was due
all the while and has not been set since; the clock may be set anew by a procedure. `timers.c` is an
implementation of this, as long as only timers that are set are cancelled and reset, and the
procedure of a timer does not cancel its own and does neither to the one that `tmr_run` holds in
`next`.
-/

namespace WeatherQuery.TimerRun

open WeatherQuery.TimerModel WeatherQuery.TimerLists WeatherQuery.DLinked

variable {γ : Type}

/-! ### The schedule -/

inductive Phase
  | idle
  | running (now : Time)
  | calling (now : Time) (t : ℕ)

/-- `touched` are the entries made or given a new time since the schedule was last run, and `low` is
the earliest time of the clock since. -/
structure Sched (γ : Type) where
  entries : ℕ → Option (Entry γ)
  phase : Phase
  touched : List ℕ
  low : Time

inductive Event (γ : Type)
  | create (t : ℕ) (e : Entry γ)
  | cancel (t : ℕ)
  | retime (t : ℕ) (time : Time)
  | begin (now : Time)
  | call (t : ℕ)
  | clock (now : Time)
  | finish
  | stop

def Phase.outside : Phase → Prop
  | .running _ => False
  | _ => True

/-- Nothing is left that was due at every time of the clock and has not been touched. -/
def Settled (s : Sched γ) : Prop :=
  ∀ t e, s.entries t = some e → e.time.gt s.low = true ∨ t ∈ s.touched

def Sched.retime (s : Sched γ) (t : ℕ) (e : Entry γ) (time : Time) : Sched γ :=
  { s with
    entries := Function.update s.entries t (some { e with time := time })
    touched := t :: s.touched }

open Classical in
/-- The steps of the schedule. -/
noncomputable def specStep (s : Sched γ) : Event γ → Option (Sched γ)
  | .create t e =>
    if s.phase.outside ∧ s.entries t = none then
      some { s with entries := Function.update s.entries t (some e), touched := t :: s.touched }
    else none
  | .cancel t =>
    if s.phase.outside ∧ s.entries t ≠ none ∧ ∀ now, s.phase ≠ .calling now t then
      some { s with entries := Function.update s.entries t none }
    else none
  | .retime t time =>
    if s.phase.outside then (s.entries t).map fun e => s.retime t e time else none
  | .begin now =>
    match s.phase with
    | .idle => some { s with phase := .running now, touched := [], low := now }
    | _ => none
  | .call t =>
    match s.phase, s.entries t with
    | .running now, some e =>
      if e.time.gt now then none else some { s with phase := .calling now t }
    | _, _ => none
  | .clock now =>
    match s.phase with
    | .calling _ t =>
      some { s with phase := .calling now t, low := if now.le s.low then now else s.low }
    | _ => none
  | .finish =>
    match s.phase with
    | .calling now t =>
      (s.entries t).map fun e =>
        if e.periodic then { s.retime t e (e.time.add e.msecs) with phase := .running now }
        else { s with entries := Function.update s.entries t none, phase := .running now }
    | _ => none
  | .stop =>
    match s.phase with
    | .running _ => if Settled s then some { s with phase := .idle } else none
    | _ => none

def empty : Sched γ := ⟨fun _ => none, .idle, [], ⟨0, 0⟩⟩

/-! ### What can be seen of the lists -/

/-- The timers from a pointer on. -/
def follow (s : Timers γ) : ℕ → Option ℕ → List ℕ
  | _, none => []
  | 0, some _ => []
  | fuel + 1, some t => t :: follow s fuel (s.cell t).next

/-- The timer is in one of the lists. -/
def listed (s : Timers γ) (t : ℕ) : Bool :=
  (List.range hashSize).any fun h => (follow s s.allocated (s.timers h)).contains t

/-- What the program and the procedures may do: they name timers that are set, and a procedure
neither cancels its own timer nor cancels or resets the one behind it. -/
def safe (s : Sys γ) : Act γ → Bool
  | .cancel t => listed s.mem t &&
    match s.pc with
    | .inProc _ _ t' next => t ≠ t' && next ≠ some t
    | _ => true
  | .reset _ t => listed s.mem t &&
    match s.pc with
    | .inProc _ _ _ next => next ≠ some t
    | _ => true
  | _ => true

def phaseOf : Pc → Phase
  | .idle => .idle
  | .scan now _ _ => .running now
  | .inProc now _ t _ => .calling now t

/-- The lists show the entries of the schedule. -/
structure Shows (c : Sys γ) (a : Sched γ) : Prop where
  entries : a.entries = fun t => if listed c.mem t then some (entry (c.mem.cell t)) else none
  phase : a.phase = phaseOf c.pc

/-- The calls that are made in a state. -/
def possible (pc : Pc) : Act γ → Bool
  | .create .. | .cancel _ | .reset .. => pc.outside
  | .run _ => pc = .idle
  | .turn => !pc.outside
  | .clock _ | .ret => match pc with
    | .inProc .. => true
    | _ => false

lemma follow_chain {s : Timers γ} {b f : Option ℕ} {l : List ℕ} (h : Seg (links s) b f l none)
    {fuel : ℕ} (hfuel : l.length ≤ fuel) : follow s fuel f = l := by
  induction l generalizing b f fuel with
  | nil =>
    obtain rfl : f = none := h
    cases fuel <;> rfl
  | cons t l ih =>
    obtain ⟨rfl, -, hrest⟩ := h
    rcases fuel with _ | fuel
    · simp at hfuel
    · rw [follow, show (s.cell t).next = (links s).next t from rfl,
        ih hrest (by simpa using hfuel)]

lemma listed_iff {s : Timers γ} {bs : ℕ → List ℕ} {fr : List ℕ} (hI : Inv s bs fr []) {t : ℕ} :
    listed s t = true ↔ t ∈ actives bs := by
  have hall : ∀ h < hashSize, follow s s.allocated (s.timers h) = bs h := fun h hh =>
    follow_chain (hI.chain h hh) (hI.length_le hh)
  simp only [listed, List.any_eq_true, List.mem_range, mem_actives]
  refine exists_congr fun h => ?_
  constructor
  · rintro ⟨hh, ht⟩
    rw [hall h hh] at ht
    exact ⟨hh, by simpa using ht⟩
  · rintro ⟨hh, ht⟩
    refine ⟨hh, ?_⟩
    rw [hall h hh]
    simpa using ht

/-! ### Where the loop is -/

/-- What is left of a list from a pointer into it on. -/
def fromNode (p : Option ℕ) (l : List ℕ) : List ℕ :=
  p.elim [] fun t => l.dropWhile (· ≠ t)

lemma fromNode_cons_self (t : ℕ) (l : List ℕ) : fromNode (some t) (t :: l) = t :: l := by
  simp [fromNode]

lemma fromNode_cons {t x : ℕ} (h : x ≠ t) (l : List ℕ) :
    fromNode (some t) (x :: l) = fromNode (some t) l := by
  simp [fromNode, h]

lemma fromNode_head (l : List ℕ) : fromNode l.head? l = l := by
  rcases l with _ | ⟨x, l⟩
  · rfl
  · exact fromNode_cons_self x l

lemma fromNode_append {t : ℕ} {xs : List ℕ} (h : t ∉ xs) (ys : List ℕ) :
    fromNode (some t) (xs ++ ys) = fromNode (some t) ys := by
  induction xs with
  | nil => rfl
  | cons x xs ih =>
    rw [List.cons_append, fromNode_cons (fun hxt => h (by simp [hxt]))]
    exact ih fun hx => h (List.mem_cons_of_mem x hx)

/-- A node put into the list, in front of the pointer or behind it. -/
lemma fromNode_insert {p : Option ℕ} {x : ℕ} (hx : p ≠ some x) {xs ys : List ℕ} {y : ℕ}
    (h : y ∈ fromNode p (xs ++ ys)) : y ∈ fromNode p (xs ++ x :: ys) := by
  rcases p with _ | t
  · cases h
  · have hxt : x ≠ t := fun hxt => hx (by rw [hxt])
    induction xs with
    | nil => rwa [List.nil_append, fromNode_cons hxt]
    | cons a xs ih =>
      by_cases ha : a = t
      · subst ha
        rw [List.cons_append, fromNode_cons_self] at h ⊢
        rw [List.mem_cons, List.mem_append] at h ⊢
        rw [List.mem_cons]
        tauto
      · rw [List.cons_append, fromNode_cons ha] at h ⊢
        exact ih h

/-- A node taken out of the list, but not the one pointed to. -/
lemma fromNode_remove {p : Option ℕ} {x : ℕ} (hx : p ≠ some x) {xs ys : List ℕ} {y : ℕ}
    (h : y ∈ fromNode p (xs ++ x :: ys)) (hy : y ≠ x) : y ∈ fromNode p (xs ++ ys) := by
  rcases p with _ | t
  · cases h
  · have hxt : x ≠ t := fun hxt => hx (by rw [hxt])
    induction xs with
    | nil => rwa [List.nil_append, fromNode_cons hxt] at h
    | cons a xs ih =>
      by_cases ha : a = t
      · subst ha
        rw [List.cons_append, fromNode_cons_self] at h ⊢
        rw [List.mem_cons, List.mem_append, List.mem_cons] at h
        rw [List.mem_cons, List.mem_append]
        tauto
      · rw [List.cons_append, fromNode_cons ha] at h ⊢
        exact ih h

/-- One node further. -/
lemma fromNode_next {xs ys : List ℕ} {t x : ℕ} (hnd : (xs ++ t :: ys).Nodup)
    (h : x ∈ fromNode (some t) (xs ++ t :: ys)) (hx : x ≠ t) :
    x ∈ fromNode ys.head? (xs ++ t :: ys) := by
  obtain ⟨-, hndy, hdis⟩ := List.nodup_append.mp hnd
  have htx : t ∉ xs := fun hmem => hdis t hmem t (by simp) rfl
  rw [fromNode_append htx, fromNode_cons_self] at h
  have hxy : x ∈ ys := (List.mem_cons.mp h).resolve_left hx
  rcases ys with _ | ⟨y, ys⟩
  · cases hxy
  · have hyx : y ∉ xs := fun hmem => hdis y hmem y (by simp) rfl
    have hyt : t ≠ y := by
      rintro rfl
      exact (List.nodup_cons.mp hndy).1 (by simp)
    rw [List.head?_cons, fromNode_append hyx, fromNode_cons hyt, fromNode_cons_self]
    exact hxy

/-- `tmr_run` at list `h` and pointer `p` has all in front of it that is due, apart from what was
touched and from the timer `but` whose procedure it has called. -/
def Ahead (time : ℕ → Time) (bs : ℕ → List ℕ) (touched : List ℕ) (now : Time) (h : ℕ)
    (p but : Option ℕ) : Prop :=
  ∀ k < hashSize, ∀ x ∈ bs k, x ∉ touched → but ≠ some x → (time x).gt now = false →
    h < k ∨ (k = h ∧ x ∈ fromNode p (bs h))

/-- The pointer is into the list. -/
def Points (bs : ℕ → List ℕ) (h : ℕ) (p : Option ℕ) : Prop := ∀ t ∈ p, t ∈ bs h

section Position

variable {time time' : ℕ → Time} {bs bs' : ℕ → List ℕ} {touched : List ℕ} {now : Time} {h x : ℕ}
  {p but : Option ℕ}

lemma Ahead.insert (ha : Ahead time bs touched now h p but) (hb : Inserted bs bs' x)
    (hp : p ≠ some x) (htime : ∀ y ≠ x, time' y = time y) :
    Ahead time' bs' (x :: touched) now h p but := by
  obtain ⟨j, hj, xs, ys, hl, rfl⟩ := hb
  intro k hk y hy hyt hbut hdue
  have hyx : y ≠ x := fun hyx => hyt (by simp [hyx])
  have hyt' : y ∉ touched := fun hmem => hyt (List.mem_cons_of_mem x hmem)
  rw [htime y hyx] at hdue
  have hold : y ∈ bs k := by
    by_cases hkj : k = j
    · subst hkj
      rw [Function.update_self] at hy
      rw [hl]
      simpa [hyx] using hy
    · rwa [Function.update_of_ne hkj] at hy
  refine (ha k hk y hold hyt' hbut hdue).imp_right fun ⟨hkh, hfrom⟩ => ⟨hkh, ?_⟩
  by_cases hhj : h = j
  · subst hhj
    rw [Function.update_self]
    rw [hl] at hfrom
    exact fromNode_insert hp hfrom
  · rwa [Function.update_of_ne hhj]

lemma Ahead.remove (ha : Ahead time bs touched now h p but) (hb : Removed bs bs' x)
    (hp : p ≠ some x) (hnd : (actives bs).Nodup) (htime : ∀ y ≠ x, time' y = time y) :
    Ahead time' bs' touched now h p but := by
  have hperm := hb.perm
  obtain ⟨j, hj, xs, ys, hl, rfl⟩ := hb
  intro k hk y hy hyt hbut hdue
  have hyx : y ≠ x := by
    rintro rfl
    have hmem : y ∈ actives (Function.update bs j (xs ++ ys)) := mem_actives.mpr ⟨k, hk, hy⟩
    exact (List.nodup_cons.mp (hperm.nodup_iff.mp hnd)).1 hmem
  rw [htime y hyx] at hdue
  have hold : y ∈ bs k := by
    by_cases hkj : k = j
    · subst hkj
      rw [Function.update_self] at hy
      rw [hl]
      rcases List.mem_append.mp hy with hy | hy
      · exact List.mem_append_left _ hy
      · exact List.mem_append_right _ (List.mem_cons_of_mem x hy)
    · rwa [Function.update_of_ne hkj] at hy
  refine (ha k hk y hold hyt hbut hdue).imp_right fun ⟨hkh, hfrom⟩ => ⟨hkh, ?_⟩
  by_cases hhj : h = j
  · subst hhj
    rw [Function.update_self]
    rw [hl] at hfrom
    exact fromNode_remove hp hfrom hyx
  · rwa [Function.update_of_ne hhj]

lemma Points.insert (hp : Points bs h p) (hb : Inserted bs bs' x) : Points bs' h p := by
  obtain ⟨j, hj, xs, ys, hl, rfl⟩ := hb
  intro t ht
  have hmem := hp t ht
  by_cases hhj : h = j
  · subst hhj
    rw [hl] at hmem
    rw [Function.update_self]
    rcases List.mem_append.mp hmem with hm | hm
    · exact List.mem_append_left _ hm
    · exact List.mem_append_right _ (List.mem_cons_of_mem x hm)
  · rwa [Function.update_of_ne hhj]

lemma Points.remove (hp : Points bs h p) (hb : Removed bs bs' x) (hx : p ≠ some x) :
    Points bs' h p := by
  obtain ⟨j, hj, xs, ys, hl, rfl⟩ := hb
  intro t ht
  have hmem := hp t ht
  have htx : t ≠ x := by
    rintro rfl
    exact hx ht
  by_cases hhj : h = j
  · subst hhj
    rw [hl] at hmem
    rw [Function.update_self]
    simpa [htx] using hmem
  · rwa [Function.update_of_ne hhj]

end Position

/-! ### The relation -/

/-- The entries of the timers in the lists. -/
def view (s : Timers γ) (bs : ℕ → List ℕ) : ℕ → Option (Entry γ) := fun t =>
  if t ∈ actives bs then some (entry (s.cell t)) else none

def timeOf (s : Timers γ) (t : ℕ) : Time := (s.cell t).time

/-- Where the program is, beside the schedule. -/
def At (c : Sys γ) (a : Sched γ) (bs : ℕ → List ℕ) : Prop :=
  match c.pc with
  | .idle => a.phase = .idle
  | .scan now h p =>
    a.phase = .running now ∧ h < hashSize ∧ Points bs h p ∧
      Ahead (timeOf c.mem) bs a.touched a.low h p none ∧ a.low.le now = true
  | .inProc now h t next =>
    a.phase = .calling now t ∧ h < hashSize ∧ t ∈ actives bs ∧ next ≠ some t ∧
      Points bs h next ∧ Ahead (timeOf c.mem) bs a.touched a.low h next (some t) ∧
      a.low.le now = true

def Rel (c : Sys γ) (a : Sched γ) : Prop :=
  ∃ bs fr, Inv c.mem bs fr [] ∧ a.entries = view c.mem bs ∧ At c a bs

section View

variable {s s' : Timers γ} {bs bs' : ℕ → List ℕ} {t : ℕ}

lemma view_insert (hb : Inserted bs bs' t) (hrest : ∀ x ≠ t, entry (s'.cell x) = entry (s.cell x)) :
    view s' bs' = Function.update (view s bs) t (some (entry (s'.cell t))) := by
  funext x
  have hmem : x ∈ actives bs' ↔ x = t ∨ x ∈ actives bs := by
    rw [hb.perm.mem_iff, List.mem_cons]
  by_cases hx : x = t
  · subst hx
    simp [view, hmem]
  · simp [view, hmem, hx, hrest x hx]

lemma view_remove (hb : Removed bs bs' t) (hnd : (actives bs).Nodup)
    (hrest : ∀ x ≠ t, entry (s'.cell x) = entry (s.cell x)) :
    view s' bs' = Function.update (view s bs) t none := by
  have hmem : ∀ x, x ∈ actives bs ↔ x = t ∨ x ∈ actives bs' := fun x => by
    rw [hb.perm.mem_iff, List.mem_cons]
  have hnot : t ∉ actives bs' := (List.nodup_cons.mp (hb.perm.nodup_iff.mp hnd)).1
  funext x
  by_cases hx : x = t
  · subst hx
    simp [view, hnot]
  · simp [view, hmem x, hx, hrest x hx]

end View

lemma run_one {σ α : Type*} {step : σ → α → Option σ} {s t : σ} {a : α} (h : step s a = some t) :
    Runs.run step s [a] = some t := Runs.run_cons_iff.mpr ⟨t, h, rfl⟩

lemma At.outside {c : Sys γ} {a : Sched γ} {bs : ℕ → List ℕ} (h : At c a bs)
    (hpc : c.pc.outside = true) : a.phase.outside := by
  unfold At at h
  rcases hc : c.pc with _ | ⟨now, k, p⟩ | ⟨now, k, t, next⟩
  · rw [hc] at h
    simp only at h
    rw [h]
    trivial
  · rw [hc] at hpc
    cases hpc
  · rw [hc] at h
    rw [h.1]
    trivial

/-- A timer is put into a list while the program or a procedure is running. -/
lemma At.insert {c : Sys γ} {a a' : Sched γ} {m : Timers γ} {bs bs' : ℕ → List ℕ} {x : ℕ}
    (h : At c a bs) (hpc : c.pc.outside = true) (hb : Inserted bs bs' x)
    (hx : ∀ now k t next, c.pc = .inProc now k t next → next ≠ some x)
    (htime : ∀ y ≠ x, timeOf m y = timeOf c.mem y) (hphase : a'.phase = a.phase)
    (htouched : a'.touched = x :: a.touched) (hlow : a'.low = a.low) :
    At { c with mem := m } a' bs' := by
  unfold At at h ⊢
  rcases hc : c.pc with _ | ⟨now, k, p⟩ | ⟨now, k, t, next⟩
  · rw [hc] at h
    exact hphase.trans h
  · rw [hc] at hpc
    cases hpc
  · rw [hc] at h
    obtain ⟨hph, hk, ht, hne, hpts, hahead, hle⟩ := h
    rw [← hlow] at hahead hle
    refine ⟨hphase.trans hph, hk, ?_, hne, hpts.insert hb, ?_, hle⟩
    · rw [hb.perm.mem_iff]
      exact List.mem_cons_of_mem x ht
    · rw [htouched]
      exact hahead.insert hb (hx now k t next hc) htime

/-- A timer is taken out of its list while the program or a procedure is running. -/
lemma At.remove {c : Sys γ} {a a' : Sched γ} {m : Timers γ} {bs bs' : ℕ → List ℕ} {x : ℕ}
    (h : At c a bs) (hpc : c.pc.outside = true) (hb : Removed bs bs' x)
    (hnd : (actives bs).Nodup)
    (hx : ∀ now k t next, c.pc = .inProc now k t next → t ≠ x ∧ next ≠ some x)
    (htime : ∀ y ≠ x, timeOf m y = timeOf c.mem y) (hphase : a'.phase = a.phase)
    (htouched : a'.touched = a.touched) (hlow : a'.low = a.low) :
    At { c with mem := m } a' bs' := by
  unfold At at h ⊢
  rcases hc : c.pc with _ | ⟨now, k, p⟩ | ⟨now, k, t, next⟩
  · rw [hc] at h
    exact hphase.trans h
  · rw [hc] at hpc
    cases hpc
  · rw [hc] at h
    obtain ⟨hph, hk, ht, hne, hpts, hahead, hle⟩ := h
    rw [← hlow] at hahead hle
    obtain ⟨htx, hnx⟩ := hx now k t next hc
    refine ⟨hphase.trans hph, hk, ?_, hne, hpts.remove hb hnx, ?_, hle⟩
    · rw [hb.perm.mem_iff, List.mem_cons] at ht
      exact ht.resolve_left htx
    · rw [htouched]
      exact hahead.remove hb hnx hnd htime

/-- A timer goes from one list into another while the program or a procedure is running. -/
lemma At.move {c : Sys γ} {a a' : Sched γ} {m : Timers γ} {bs bs₁ bs' : ℕ → List ℕ} {x : ℕ}
    (h : At c a bs) (hpc : c.pc.outside = true) (hb : Removed bs bs₁ x) (hb' : Inserted bs₁ bs' x)
    (hnd : (actives bs).Nodup)
    (hx : ∀ now k t next, c.pc = .inProc now k t next → next ≠ some x)
    (htime : ∀ y ≠ x, timeOf m y = timeOf c.mem y) (hphase : a'.phase = a.phase)
    (htouched : a'.touched = x :: a.touched) (hlow : a'.low = a.low) :
    At { c with mem := m } a' bs' := by
  unfold At at h ⊢
  rcases hc : c.pc with _ | ⟨now, k, p⟩ | ⟨now, k, t, next⟩
  · rw [hc] at h
    exact hphase.trans h
  · rw [hc] at hpc
    cases hpc
  · rw [hc] at h
    obtain ⟨hph, hk, ht, hne, hpts, hahead, hle⟩ := h
    rw [← hlow] at hahead hle
    have hnx := hx now k t next hc
    refine ⟨hphase.trans hph, hk, ?_, hne, (hpts.remove hb hnx).insert hb', ?_, hle⟩
    · rw [hb'.perm.mem_iff, ← hb.perm.mem_iff]
      exact ht
    · rw [htouched]
      exact (hahead.remove hb hnx hnd htime).insert hb' hnx fun _ _ => rfl

lemma view_move {s s' : Timers γ} {bs bs₁ bs' : ℕ → List ℕ} {t : ℕ} (hb : Removed bs bs₁ t)
    (hb' : Inserted bs₁ bs' t) (hnd : (actives bs).Nodup)
    (hrest : ∀ x ≠ t, entry (s'.cell x) = entry (s.cell x)) :
    view s' bs' = Function.update (view s bs) t (some (entry (s'.cell t))) := by
  rw [view_insert hb' hrest, view_remove hb hnd fun _ _ => rfl, Function.update_idem]

/-! ### The steps -/

section Steps

variable {c c' : Sys γ} {a : Sched γ} {bs : ℕ → List ℕ} {fr : List ℕ}

/-- The schedule answers a step of the program. -/
def Answered (c' : Sys γ) (a : Sched γ) : Prop :=
  ∃ evs a', Runs.run specStep a evs = some a' ∧ Rel c' a'

lemma entry_time {s s' : Timers γ} {x : ℕ} (h : entry (s'.cell x) = entry (s.cell x)) :
    timeOf s' x = timeOf s x := congrArg Entry.time h

lemma create_answered (hI : Inv c.mem bs fr []) (hv : a.entries = view c.mem bs) (hat : At c a bs)
    {now : Time} {client : γ} {msecs : ℤ} {periodic malloc : Bool}
    (h : step c (.create now client msecs periodic malloc) = some c') : Answered c' a := by
  simp only [step, Option.ite_none_right_eq_some, Option.map_eq_some_iff] at h
  obtain ⟨hpc, r, hr, rfl⟩ := h
  rcases create_spec hI now client msecs periodic malloc with ⟨-, hnone⟩ | ⟨t, s', bs', fr', hsome,
    hnot, hb, hI', he, hrest, -⟩
  · obtain rfl : (c.mem, none) = r := Option.some.inj (hnone.symm.trans hr)
    exact ⟨[], a, rfl, bs, fr, hI, hv, hat⟩
  · obtain rfl : (s', some t) = r := Option.some.inj (hsome.symm.trans hr)
    have hfree : a.entries t = none := by
      rw [hv]
      exact if_neg hnot
    have hnext : ∀ now k t' next, c.pc = .inProc now k t' next → next ≠ some t := by
      intro now k t' next hc hnext
      unfold At at hat
      rw [hc] at hat
      obtain ⟨-, hk, -, -, hpts, -⟩ := hat
      exact hnot (mem_actives.mpr ⟨k, hk, hpts t hnext⟩)
    refine ⟨[.create t ⟨client, msecs, periodic, now.add msecs⟩], _,
      run_one (if_pos ⟨hat.outside hpc, hfree⟩), bs', fr', hI', ?_, ?_⟩
    · rw [view_insert hb hrest, he, ← hv]
    · exact hat.insert hpc hb hnext (fun y hy => entry_time (hrest y hy)) rfl rfl rfl

lemma cancel_answered (hI : Inv c.mem bs fr []) (hv : a.entries = view c.mem bs) (hat : At c a bs)
    {t : ℕ} (hsafe : safe c (.cancel t) = true) (h : step c (.cancel t) = some c') :
    Answered c' a := by
  simp only [step, Option.ite_none_right_eq_some, Option.some.injEq] at h
  obtain ⟨hpc, rfl⟩ := h
  simp only [safe, Bool.and_eq_true] at hsafe
  obtain ⟨hlisted, hother⟩ := hsafe
  have ht := (listed_iff hI).mp hlisted
  have hx : ∀ now k t' next, c.pc = .inProc now k t' next → t' ≠ t ∧ next ≠ some t := by
    intro now k t' next hc
    rw [hc] at hother
    simp only [ne_eq, decide_not, Bool.and_eq_true, Bool.not_eq_eq_eq_not, Bool.not_true,
      decide_eq_false_iff_not] at hother
    exact ⟨fun heq => hother.1 heq.symm, hother.2⟩
  obtain ⟨bs', hb, hI', hdata⟩ := cancel_spec hI ht
  have hset : a.entries t ≠ none := by
    rw [hv]
    simp [view, ht]
  have hphase : ∀ now, a.phase ≠ .calling now t := by
    intro now hcall
    unfold At at hat
    rcases hc : c.pc with _ | ⟨now', k, p⟩ | ⟨now', k, t', next⟩
    · rw [hc] at hat
      cases hat.symm.trans hcall
    · rw [hc] at hpc
      cases hpc
    · rw [hc] at hat
      cases hat.1.symm.trans hcall
      exact (hx _ _ _ _ hc).1 rfl
  refine ⟨[.cancel t], _, run_one (if_pos ⟨hat.outside hpc, hset, hphase⟩), bs', t :: fr, hI', ?_,
    ?_⟩
  · rw [view_remove hb hI.actives_nodup fun x _ => (hdata x).1, ← hv]
  · exact hat.remove hpc hb hI.actives_nodup hx (fun y _ => hdata.time y) rfl rfl rfl

lemma reset_answered (hI : Inv c.mem bs fr []) (hv : a.entries = view c.mem bs) (hat : At c a bs)
    {now : Time} {t : ℕ} (hsafe : safe c (.reset now t) = true)
    (h : step c (.reset now t) = some c') : Answered c' a := by
  simp only [step, Option.ite_none_right_eq_some, Option.map_eq_some_iff] at h
  obtain ⟨hpc, m, hm, rfl⟩ := h
  simp only [safe, Bool.and_eq_true] at hsafe
  obtain ⟨hlisted, hother⟩ := hsafe
  have ht := (listed_iff hI).mp hlisted
  have hx : ∀ now k t' next, c.pc = .inProc now k t' next → next ≠ some t := by
    intro now k t' next hc
    rw [hc] at hother
    simpa using hother
  obtain ⟨s', bs₁, bs', hres, hb, hb', hI', he, hrest⟩ :=
    resort_spec hI ht fun e => now.add e.msecs
  obtain rfl : s' = m := Option.some.inj (hres.symm.trans hm)
  have hset : a.entries t = some (entry (c.mem.cell t)) := by
    rw [hv]
    exact if_pos ht
  have hstep : specStep a (.retime t (now.add (c.mem.cell t).msecs)) =
      some (a.retime t (entry (c.mem.cell t)) (now.add (c.mem.cell t).msecs)) := by
    simp only [specStep, if_pos (hat.outside hpc), hset, Option.map_some]
  refine ⟨[_], _, run_one hstep, bs', fr, hI', ?_, ?_⟩
  · rw [view_move hb hb' hI.actives_nodup hrest, he, ← hv]
    rfl
  · exact hat.move hpc hb hb' hI.actives_nodup hx (fun y hy => entry_time (hrest y hy)) rfl rfl rfl

lemma head_eq (hI : Inv c.mem bs fr []) {h : ℕ} (hh : h < hashSize) :
    c.mem.timers h = (bs h).head? := by
  simpa using Seg.first_eq (hI.chain h hh)

/-- The loop goes on with the list `h`, and all that is due is in it or behind it; behind the last
list nothing is. -/
lemma nextList_answered (hI : Inv c.mem bs fr []) (hv : a.entries = view c.mem bs) {now : Time}
    (hphase : a.phase = .running now) (hlow : a.low.le now = true) {h : ℕ}
    (hdue : ∀ k < hashSize, ∀ x ∈ bs k, x ∉ a.touched → (timeOf c.mem x).gt a.low = false →
      h ≤ k) :
    Answered { c with pc := nextList c.mem now h } a := by
  unfold nextList
  split_ifs with hh
  · refine ⟨[], a, rfl, bs, fr, hI, hv, hphase, hh, ?_, ?_, hlow⟩
    · intro t ht
      rw [head_eq hI hh] at ht
      exact List.mem_of_head? ht
    · intro k hk x hx hxt _ hxdue
      rw [head_eq hI hh, fromNode_head]
      rcases Nat.lt_or_ge h k with hlt | hge
      · exact .inl hlt
      · have hkh : k = h := Nat.le_antisymm hge (hdue k hk x hx hxt hxdue)
        exact .inr ⟨hkh, hkh ▸ hx⟩
  · have hsettled : Settled a := by
      intro t e he
      by_contra hcon
      rw [not_or] at hcon
      rw [hv] at he
      obtain ⟨ht, he⟩ : t ∈ actives bs ∧ entry (c.mem.cell t) = e := by simpa [view] using he
      obtain ⟨k, hk, htk⟩ := mem_actives.mp ht
      have hgt : (timeOf c.mem t).gt a.low = false := by
        have : ¬ (timeOf c.mem t).gt a.low = true := by
          rw [← he] at hcon
          exact hcon.1
        simpa using this
      exact hh (Nat.lt_of_le_of_lt (hdue k hk t htk hcon.2 hgt) hk)
    have hstep : specStep a .stop = some { a with phase := .idle } := by
      simp only [specStep, hphase, if_pos hsettled]
    exact ⟨[.stop], _, run_one hstep, bs, fr, hI, hv, rfl⟩

lemma run_answered (hI : Inv c.mem bs fr []) (hv : a.entries = view c.mem bs) (hat : At c a bs)
    {now : Time} (h : step c (.run now) = some c') : Answered c' a := by
  obtain ⟨hpc, rfl⟩ : c.pc = .idle ∧ { c with pc := nextList c.mem now 0 } = c' := by
    unfold step at h
    rcases hc : c.pc with _ | ⟨now', k, p⟩ | ⟨now', k, t', next⟩ <;> simp [hc] at h
    exact ⟨rfl, h⟩
  unfold At at hat
  rw [hpc] at hat
  have hstep : specStep a (.begin now) =
      some { a with phase := .running now, touched := [], low := now } := by
    simp only at hat
    simp only [specStep, hat]
  obtain ⟨evs, a', hrun, hrel⟩ := nextList_answered (c := c)
    (a := { a with phase := .running now, touched := [], low := now }) hI hv rfl (le_refl now)
    (h := 0) fun _ _ _ _ _ _ => Nat.zero_le _
  exact ⟨.begin now :: evs, a', Runs.run_cons_iff.mpr ⟨_, hstep, hrun⟩, hrel⟩

/-- Behind a timer that is not due there is none that is. -/
lemma not_due (hI : Inv c.mem bs fr []) {h t : ℕ} (hh : h < hashSize) (ht : t ∈ bs h) {now : Time}
    (hgt : (timeOf c.mem t).gt now = true) {x : ℕ} (hx : x ∈ fromNode (some t) (bs h)) :
    (timeOf c.mem x).gt now = true := by
  obtain ⟨xs, ys, hl⟩ := List.append_of_mem ht
  have hnd := hI.bucket_nodup hh
  have hsorted := hI.sorted h hh
  rw [hl] at hx hnd hsorted
  have htx : t ∉ xs := fun hmem => (List.nodup_append.mp hnd).2.2 t hmem t (by simp) rfl
  rw [fromNode_append htx, fromNode_cons_self] at hx
  rcases List.mem_cons.mp hx with rfl | hx
  · exact hgt
  · have hle := (List.pairwise_cons.mp (List.pairwise_append.mp hsorted).2.1).1 x hx
    exact gt_of_le hgt hle

lemma turn_answered (hI : Inv c.mem bs fr []) (hv : a.entries = view c.mem bs) (hat : At c a bs)
    (h : step c .turn = some c') : Answered c' a := by
  unfold At at hat
  unfold step at h
  rcases hc : c.pc with _ | ⟨now, k, _ | t⟩ | ⟨now, k, t', next⟩
  · simp [hc] at h
  · -- the end of a list
    rw [hc] at hat
    obtain ⟨hphase, hk, -, hahead, hlow⟩ := hat
    obtain rfl : { c with pc := nextList c.mem now (k + 1) } = c' := by simpa [hc] using h
    refine nextList_answered hI hv hphase hlow fun j hj x hx hxt hdue => ?_
    rcases hahead j hj x hx hxt (by simp) hdue with hlt | ⟨-, hfrom⟩
    · exact hlt
    · cases hfrom
  · rw [hc] at hat
    obtain ⟨hphase, hk, hpts, hahead, hlow⟩ := hat
    have ht : t ∈ bs k := hpts t rfl
    by_cases hgt : (c.mem.cell t).time.gt now = true
    · -- the rest of the list is not due
      obtain rfl : { c with pc := nextList c.mem now (k + 1) } = c' := by simpa [hc, hgt] using h
      refine nextList_answered hI hv hphase hlow fun j hj x hx hxt hdue => ?_
      rcases hahead j hj x hx hxt (by simp) hdue with hlt | ⟨-, hfrom⟩
      · exact hlt
      · have := not_due hI hk ht (gt_of_gt_le hgt hlow) hfrom
        rw [hdue] at this
        cases this
    · -- the procedure is called
      obtain rfl : { c with pc := .inProc now k t (c.mem.cell t).next } = c' := by
        simpa [hc, hgt] using h
      have hact : t ∈ actives bs := mem_actives.mpr ⟨k, hk, ht⟩
      have hset : a.entries t = some (entry (c.mem.cell t)) := by
        rw [hv]
        exact if_pos hact
      have hstep : specStep a (.call t) = some { a with phase := .calling now t } := by
        simp only [specStep, hphase, hset]
        exact if_neg hgt
      obtain ⟨xs, ys, hl⟩ := List.append_of_mem ht
      have hnd := hI.bucket_nodup hk
      have hchain := hI.chain k hk
      rw [hl] at hnd hchain
      have hnext : (c.mem.cell t).next = ys.head? := hchain.neighbours.2
      have hty : t ∉ ys := (List.nodup_cons.mp (List.nodup_append.mp hnd).2.1).1
      refine ⟨[.call t], _, run_one hstep, bs, fr, hI, hv, rfl, hk, hact, ?_, ?_, ?_, hlow⟩
      · rw [hnext]
        exact fun h => hty (List.mem_of_head? h)
      · intro n hn
        rw [hnext] at hn
        rw [hl]
        exact List.mem_append_right _ (List.mem_cons_of_mem t (List.mem_of_head? hn))
      · intro j hj x hx hxt hbut hdue
        refine (hahead j hj x hx hxt (by simp) hdue).imp_right fun ⟨hjk, hfrom⟩ => ⟨hjk, ?_⟩
        have hxt' : x ≠ t := fun hxt' => hbut (by rw [hxt'])
        rw [hl] at hfrom ⊢
        rw [hnext]
        exact fromNode_next hnd hfrom hxt'
  · simp [hc] at h

lemma clock_answered (hI : Inv c.mem bs fr []) (hv : a.entries = view c.mem bs) (hat : At c a bs)
    {now : Time} (h : step c (.clock now) = some c') : Answered c' a := by
  unfold At at hat
  unfold step at h
  rcases hc : c.pc with _ | ⟨now', k, p⟩ | ⟨now', k, t, next⟩
  · simp [hc] at h
  · simp [hc] at h
  · rw [hc] at hat
    obtain ⟨hphase, hk, ht, hne, hpts, hahead, hlow⟩ := hat
    obtain rfl : { c with pc := .inProc now k t next } = c' := by simpa [hc] using h
    have hstep : specStep a (.clock now) = some { a with
        phase := .calling now t, low := if now.le a.low then now else a.low } := by
      simp only [specStep, hphase]
    have hle : (if now.le a.low then now else a.low).le a.low = true := by
      split_ifs with hback
      · exact hback
      · exact le_refl a.low
    have hle' : (if now.le a.low then now else a.low).le now = true := by
      split_ifs with hback
      · exact le_refl now
      · exact le_total hback
    refine ⟨[.clock now], _, run_one hstep, bs, fr, hI, hv, rfl, hk, ht, hne, hpts, ?_, hle'⟩
    -- what is due at the earliest time was due before
    intro j hj x hx hxt hbut hdue
    refine hahead j hj x hx hxt hbut ?_
    by_contra hgt
    rw [Bool.not_eq_false] at hgt
    rw [gt_of_gt_le hgt hle] at hdue
    cases hdue

lemma ret_answered (hI : Inv c.mem bs fr []) (hv : a.entries = view c.mem bs) (hat : At c a bs)
    (h : step c .ret = some c') : Answered c' a := by
  unfold At at hat
  unfold step at h
  rcases hc : c.pc with _ | ⟨now, k, p⟩ | ⟨now, k, t, next⟩
  · simp [hc] at h
  · simp [hc] at h
  · rw [hc] at hat
    obtain ⟨hphase, hk, ht, hne, hpts, hahead, hlow⟩ := hat
    simp only [hc, Option.map_eq_some_iff] at h
    obtain ⟨m, hm, rfl⟩ := h
    have hset : a.entries t = some (entry (c.mem.cell t)) := by
      rw [hv]
      exact if_pos ht
    have hstep : specStep a .finish = some (if (entry (c.mem.cell t)).periodic then
        { a.retime t (entry (c.mem.cell t)) ((c.mem.cell t).time.add (c.mem.cell t).msecs) with
          phase := .running now }
        else { a with entries := Function.update a.entries t none, phase := .running now }) := by
      simp only [specStep, hphase, hset, Option.map_some]
      rfl
    -- what was called is done with, and nothing else is left out any more
    have hall {time' : ℕ → Time} {bs' : ℕ → List ℕ} {touched : List ℕ}
        (hahead' : Ahead time' bs' touched a.low k next (some t))
        (hout : ∀ j < hashSize, t ∈ bs' j → t ∈ touched) :
        Ahead time' bs' touched a.low k next none := by
      intro j hj x hx hxt _ hdue
      refine hahead' j hj x hx hxt ?_ hdue
      intro htx
      obtain rfl : t = x := by simpa using htx
      exact hxt (hout j hj hx)
    unfold afterProc at hm
    by_cases hper : (c.mem.cell t).periodic = true
    · rw [if_pos hper] at hm
      rw [if_pos (show (entry (c.mem.cell t)).periodic = true from hper)] at hstep
      obtain ⟨s', bs₁, bs', hres, hb, hb', hI', he, hrest⟩ :=
        resort_spec hI ht fun e => e.time.add e.msecs
      obtain rfl : s' = m := Option.some.inj (hres.symm.trans hm)
      have htime : ∀ y ≠ t, timeOf s' y = timeOf c.mem y := fun y hy => entry_time (hrest y hy)
      refine ⟨[.finish], _, run_one hstep, bs', fr, hI', ?_, rfl, hk, ?_, ?_, hlow⟩
      · rw [view_move hb hb' hI.actives_nodup hrest, he, ← hv]
        rfl
      · exact (hpts.remove hb hne).insert hb'
      · exact hall ((hahead.remove hb hne hI.actives_nodup htime).insert hb' hne fun _ _ => rfl)
          fun _ _ _ => List.mem_cons_self
    · rw [if_neg hper, Option.some.injEq] at hm
      subst hm
      rw [if_neg (show ¬ (entry (c.mem.cell t)).periodic = true from hper)] at hstep
      obtain ⟨bs', hb, hI', hdata⟩ := cancel_spec hI ht
      refine ⟨[.finish], _, run_one hstep, bs', t :: fr, hI', ?_, rfl, hk, hpts.remove hb hne, ?_,
        hlow⟩
      · rw [view_remove hb hI.actives_nodup fun x _ => (hdata x).1, ← hv]
      · refine hall (hahead.remove hb hne hI.actives_nodup fun y _ => hdata.time y) ?_
        intro j hj hmem
        have hnot := (List.nodup_cons.mp (hb.perm.nodup_iff.mp hI.actives_nodup)).1
        exact absurd (mem_actives.mpr ⟨j, hj, hmem⟩) hnot

end Steps

/-! ### Whole runs -/

lemma Rel.step {c c' : Sys γ} {a : Sched γ} (h : Rel c a) {act : Act γ}
    (hstep : Runs.restrict safe step c act = some c') : Answered c' a := by
  obtain ⟨bs, fr, hI, hv, hat⟩ := h
  obtain ⟨hsafe, hstep⟩ := Runs.restrict_eq_some.mp hstep
  cases act with
  | create now client msecs periodic malloc => exact create_answered hI hv hat hstep
  | cancel t => exact cancel_answered hI hv hat hsafe hstep
  | reset now t => exact reset_answered hI hv hat hsafe hstep
  | run now => exact run_answered hI hv hat hstep
  | turn => exact turn_answered hI hv hat hstep
  | clock now => exact clock_answered hI hv hat hstep
  | ret => exact ret_answered hI hv hat hstep

lemma inv_init (cell : ℕ → Timer γ) : Inv (tmrInit cell) (fun _ => []) [] [] where
  chain _ _ := rfl
  sorted _ _ := List.Pairwise.nil
  hash _ _ _ ht := by cases ht
  free := rfl
  place := by simp [tmrInit]

lemma rel_init (cell : ℕ → Timer γ) : Rel ⟨tmrInit cell, .idle⟩ empty := by
  refine ⟨fun _ => [], [], inv_init cell, ?_, rfl⟩
  funext t
  simp [empty, view, actives]

lemma Rel.inv {c : Sys γ} {a : Sched γ} (h : Rel c a) : ∃ bs fr, Inv c.mem bs fr [] := by
  obtain ⟨bs, fr, hI, -⟩ := h
  exact ⟨bs, fr, hI⟩

lemma Rel.shows {c : Sys γ} {a : Sched γ} (h : Rel c a) : Shows c a := by
  obtain ⟨bs, fr, hI, hv, hat⟩ := h
  refine ⟨?_, ?_⟩
  · rw [hv]
    funext t
    simp only [view, listed_iff hI]
  · unfold At at hat
    rcases hc : c.pc with _ | ⟨now, k, p⟩ | ⟨now, k, t, next⟩
    · rw [hc] at hat
      exact hat
    · rw [hc] at hat
      exact hat.1
    · rw [hc] at hat
      exact hat.1

lemma afterProc_isSome {s : Timers γ} {bs : ℕ → List ℕ} {fr : List ℕ} {t : ℕ}
    (hI : Inv s bs fr []) (ht : t ∈ actives bs) : (afterProc s t).isSome := by
  obtain ⟨s', _, _, hres, -⟩ := resort_spec hI ht fun e => e.time.add e.msecs
  unfold afterProc
  split_ifs
  · exact Option.isSome_iff_exists.mpr ⟨s', hres⟩
  · rfl

/-- No call gets stuck. -/
lemma Rel.isSome {c : Sys γ} {a : Sched γ} (h : Rel c a) {act : Act γ} (hsafe : safe c act = true)
    (hposs : possible c.pc act = true) : (TimerModel.step c act).isSome := by
  obtain ⟨bs, fr, hI, hv, hat⟩ := h
  cases act with
  | create now client msecs periodic malloc =>
    have hpc : c.pc.outside = true := hposs
    rcases create_spec hI now client msecs periodic malloc with ⟨-, h⟩ | ⟨t, s', bs', fr', h, -⟩ <;>
      simp [TimerModel.step, hpc, h]
  | cancel t =>
    have hpc : c.pc.outside = true := hposs
    simp [TimerModel.step, hpc]
  | reset now t =>
    have hpc : c.pc.outside = true := hposs
    simp only [safe, Bool.and_eq_true] at hsafe
    obtain ⟨s', _, _, hres, -⟩ :=
      resort_spec hI ((listed_iff hI).mp hsafe.1) fun e => now.add e.msecs
    have hreset : tmrReset c.mem now t = some s' := hres
    simp [TimerModel.step, hpc, hreset]
  | run now =>
    have hpc : c.pc = .idle := by simpa [possible] using hposs
    simp [TimerModel.step, hpc]
  | turn =>
    unfold TimerModel.step
    rcases hc : c.pc with _ | ⟨now, k, _ | t⟩ | ⟨now, k, t, next⟩
    · simp [possible, hc, Pc.outside] at hposs
    · rfl
    · simp only
      split_ifs <;> rfl
    · simp [possible, hc, Pc.outside] at hposs
  | clock now =>
    unfold TimerModel.step
    rcases hc : c.pc with _ | ⟨now', k, p⟩ | ⟨now', k, t, next⟩
    · simp [possible, hc] at hposs
    · simp [possible, hc] at hposs
    · rfl
  | ret =>
    unfold At at hat
    unfold TimerModel.step
    rcases hc : c.pc with _ | ⟨now, k, p⟩ | ⟨now, k, t, next⟩
    · simp [possible, hc] at hposs
    · simp [possible, hc] at hposs
    · rw [hc] at hat
      simpa using afterProc_isSome hI hat.2.2.1

/-- A one-shot timer is set and runs: its procedure reads the clock, sets another and returns. -/
def oneShot : List (Act ℕ) :=
  [.create ⟨5, 0⟩ 1 1000 false true, .run ⟨6, 0⟩] ++ List.replicate 7 .turn ++
    [.clock ⟨6, 300⟩, .create ⟨6, 300⟩ 2 500 false true, .ret] ++ List.replicate 61 .turn

def blankCell : ℕ → Timer ℕ := fun _ => ⟨0, 0, false, ⟨0, 0⟩, none, none, 0⟩

/-- Two timers are due in one list, and the procedure of the first cancels the second. -/
def cancelsNext : List (Act ℕ) :=
  [.create ⟨5, 0⟩ 1 1000 false true, .create ⟨5, 0⟩ 2 1000 false true, .run ⟨6, 0⟩] ++
    List.replicate 7 .turn ++ [.cancel 0, .ret, .turn]

/-- Then `tmr_run` calls the procedure of a timer that is in no list. -/
example : (Runs.run step ⟨tmrInit blankCell, .idle⟩ cancelsNext).map
    (fun c => (c.pc, listed c.mem 0)) = some (.inProc ⟨6, 0⟩ 6 0 none, false) := by
  decide +kernel

end WeatherQuery.TimerRun
