import WeatherQuery.LookupModel

/-!
Lookups during a refresh.

The crawler drops the table and creates it again. `select_sql` does not look at the result of
its query, so a lookup that asks in between goes on with a result that is not there.
-/

namespace WeatherQuery.LookupRefresh

open WeatherQuery.CText WeatherQuery.SqlLex WeatherQuery.SqlText WeatherQuery.LookupModel

variable {others : Others}

/-- A call of `select_sql`: the table at that moment, and the name it is asked for. -/
structure Call where
  table : Table
  cityname : Bytes

/-- The call that a step makes, if it makes one. -/
def callOf (s : St) : Act → Option Call
  | .go i =>
    match s.procs[i]? with
    | some ⟨key, .selectKey, _⟩ => some ⟨s.table, key⟩
    | some ⟨key, .selectPlus, _⟩ => some ⟨s.table, plus key⟩
    | _ => none
  | _ => none

/-- The calls of a run. -/
def calls (others : Others) : St → List Act → List Call
  | _, [] => []
  | s, a :: as =>
    match step others s a with
    | some t => (callOf s a).toList ++ calls others t as
    | none => []

/-- The call gives the info of a row that is in the table, or says that there is none and leaves
`data` as it was. -/
def Answered (others : Others) (c : Call) : Prop :=
  ∀ data, (∃ rows row, c.table = some rows ∧ row ∈ rows c.cityname ∧
      selectSql others c.table data c.cityname = some (true, cstr row)) ∨
    selectSql others c.table data c.cityname = some (false, data)

lemma answered_iff {c : Call} (hasks : SelectAsks c.cityname) :
    Answered others c ↔ c.table ≠ none := by
  obtain ⟨table, cityname⟩ := c
  constructor
  · intro h
    rintro rfl
    rcases h [] with ⟨rows, row, htable, -⟩ | hnone
    · simp at htable
    · rw [selectSql_gone hasks] at hnone
      cases hnone
  · intro h data
    obtain ⟨rows, rfl⟩ := Option.ne_none_iff_exists'.mp h
    rcases hrows : rows cityname with _ | ⟨row, more⟩
    · exact .inr (selectSql_miss hasks hrows data)
    · exact .inl ⟨rows, row, rfl, by simp [hrows], selectSql_hit hasks hrows data⟩

/-! ### Steps -/

/-- Every lookup is of a tame key, and none has used a result that is not there. -/
def Sound (s : St) : Prop := ∀ p ∈ s.procs, Tame p.key ∧ p.pc ≠ .crashed

lemma procStep_sound {table : Table} {cache : Cache} {p : Proc} {r : Cache × Proc}
    (h : procStep others table cache p = some r) (hkey : Tame p.key)
    (htable : p.pc = .selectKey ∨ p.pc = .selectPlus → table ≠ none) :
    r.2.key = p.key ∧ r.2.pc ≠ .crashed := by
  obtain ⟨key, pc, out⟩ := p
  cases pc with
  | getKey =>
    rcases hk : memcacheGet cache key with _ | v <;> simp only [procStep, hk] at h <;> cases h <;>
      exact ⟨rfl, by simp⟩
  | getPlus =>
    rcases hk : memcacheGet cache (plus key) with _ | v <;> simp only [procStep, hk] at h <;>
      cases h <;> exact ⟨rfl, by simp⟩
  | selectKey =>
    obtain ⟨rows, rfl⟩ := Option.ne_none_iff_exists'.mp (htable (.inl rfl))
    rcases hk : rows key with _ | ⟨v, more⟩
    · simp only [procStep, selectSql_miss hkey.asks hk] at h
      cases h
      exact ⟨rfl, by simp⟩
    · simp only [procStep, selectSql_hit hkey.asks hk] at h
      cases h
      exact ⟨rfl, by simp⟩
  | selectPlus =>
    obtain ⟨rows, rfl⟩ := Option.ne_none_iff_exists'.mp (htable (.inr rfl))
    rcases hk : rows (plus key) with _ | ⟨v, more⟩
    · simp only [procStep, selectSql_miss hkey.plus.asks hk] at h
      cases h
      exact ⟨rfl, by simp⟩
    · simp only [procStep, selectSql_hit hkey.plus.asks hk] at h
      cases h
      exact ⟨rfl, by simp⟩
  | set key' v =>
    cases h
    exact ⟨rfl, by simp⟩
  | finished => cases h
  | crashed => cases h

/-- The name of a call is tame, and no step leaves a lookup crashed whose call finds the table. -/
lemma step_sound {s t : St} {a : Act} (hs : Sound s) (h : step others s a = some t)
    (hkey : ∀ key, a = .lookup key → Tame key) :
    (∀ c ∈ callOf s a, Tame c.cityname) ∧ ((∀ c ∈ callOf s a, c.table ≠ none) → Sound t) := by
  cases a with
  | lookup key =>
    obtain rfl : _ = t := by simpa [step] using h
    refine ⟨by simp [callOf], fun _ p hp => ?_⟩
    rcases List.mem_append.mp hp with hp | hp
    · exact hs p hp
    · rw [List.mem_singleton.mp hp]
      exact ⟨hkey key rfl, by simp⟩
  | go i =>
    simp only [step] at h
    rcases hi : s.procs[i]? with _ | p
    · simp [hi] at h
    · rw [hi] at h
      obtain ⟨r, hstep, rfl⟩ := Option.map_eq_some_iff.mp h
      have hp := hs p (List.mem_of_getElem? hi)
      obtain ⟨key, pc, out⟩ := p
      refine ⟨fun c hc => ?_, fun htable q hq => ?_⟩
      · cases pc with
        | selectKey =>
          obtain rfl : _ = c := by simpa [callOf, hi] using hc
          exact hp.1
        | selectPlus =>
          obtain rfl : _ = c := by simpa [callOf, hi] using hc
          exact hp.1.plus
        | _ => simp [callOf, hi] at hc
      · obtain ⟨hkey, hpc⟩ := procStep_sound hstep hp.1 (by
          rintro (rfl | rfl)
          · exact htable ⟨s.table, key⟩ (by simp [callOf, hi])
          · exact htable ⟨s.table, plus key⟩ (by simp [callOf, hi]))
        rcases List.mem_or_eq_of_mem_set hq with hq | rfl
        · exact hs q hq
        · exact ⟨hkey ▸ hp.1, hpc⟩
  | evict key | drop | create =>
    obtain rfl : _ = t := by simpa [step] using h
    exact ⟨by simp [callOf], fun _ => hs⟩
  | insert key info =>
    refine ⟨by simp [callOf], fun _ => ?_⟩
    rcases ht : s.table with _ | rows <;> simp only [step, ht] at h <;> cases h <;> exact hs

/-! ### Runs -/

lemma calls_cons {s t : St} {a : Act} (h : step others s a = some t) (as : List Act) :
    calls others s (a :: as) = (callOf s a).toList ++ calls others t as := by
  rw [calls, h]

lemma run_sound {s t : St} {as : List Act} (hs : Sound s) (h : Runs.run (step others) s as = some t)
    (hkeys : ∀ key, .lookup key ∈ as → Tame key)
    (htable : ∀ c ∈ calls others s as, c.table ≠ none) :
    (∀ c ∈ calls others s as, Tame c.cityname) ∧ Sound t := by
  induction as generalizing s with
  | nil =>
    obtain rfl : s = t := by simpa using h
    exact ⟨by simp [calls], hs⟩
  | cons a as ih =>
    obtain ⟨r, hr, h⟩ := Runs.run_cons_iff.mp h
    rw [calls_cons hr] at htable ⊢
    obtain ⟨hcall, hsound⟩ := step_sound hs hr fun key hkey => hkeys key (by simp [hkey])
    have hr := hsound fun c hc => htable c (by simp at hc; simp [hc])
    obtain ⟨hcalls, ht⟩ := ih hr h (fun key hkey => hkeys key (by simp [hkey]))
      fun c hc => htable c (by simp [hc])
    refine ⟨fun c hc => ?_, ht⟩
    rcases List.mem_append.mp hc with hc | hc
    · exact hcall c (by simpa using hc)
    · exact hcalls c hc

/-- **Lookups and refreshes.** In every run of lookups of tame names and of refreshes, the calls
of `select_sql` are all answered, and no lookup goes on without a result, exactly when every call
finds the table; and so it is whatever MySQL gives for other statements. -/
theorem answered_iff_table (others : Others) (table : Table) (cache : Cache) (as : List Act)
    (hkeys : ∀ key, .lookup key ∈ as → Tame key) (s : St)
    (h : Runs.run (step others) ⟨table, cache, []⟩ as = some s) :
    ((∀ c ∈ calls others ⟨table, cache, []⟩ as, SelectAsks c.cityname ∧ Answered others c) ∧
        ∀ p ∈ s.procs, p.pc ≠ .crashed) ↔
      ∀ c ∈ calls others ⟨table, cache, []⟩ as, c.table ≠ none := by
  constructor
  · rintro ⟨hcalls, -⟩ c hc
    exact (answered_iff (hcalls c hc).1).mp (hcalls c hc).2
  · intro htable
    have hstart : Sound ⟨table, cache, []⟩ := by simp [Sound]
    obtain ⟨htame, hs⟩ := run_sound hstart h hkeys htable
    refine ⟨fun c hc => ⟨(htame c hc).asks, ?_⟩, fun p hp => (hs p hp).2⟩
    exact (answered_iff (htame c hc).asks).mpr (htable c hc)

/-- A table without rows, and nothing cached. -/
def fresh : St := ⟨some fun _ => [], fun _ => none, []⟩

/-- A refresh, and a lookup of `A` that asks after it. -/
def refreshThenLookup : List Act :=
  [.drop, .create, .insert (lit ['A']) (lit ['x', '#']), .lookup (lit ['A']), .go 0, .go 0, .go 0]

lemma tame_A : Tame (lit ['A']) := by decide

theorem answered_iff_table_refreshThenLookup :
    (calls refusing fresh refreshThenLookup).map Call.cityname = [lit ['A']] ∧
      ∀ c ∈ calls refusing fresh refreshThenLookup,
        SelectAsks c.cityname ∧ Answered refusing c := by
  refine ⟨by decide, ?_⟩
  have hkeys : ∀ key, .lookup key ∈ refreshThenLookup → Tame key := by
    simp [refreshThenLookup, tame_A]
  have hrun : ∃ s, Runs.run (step refusing) fresh refreshThenLookup = some s := ⟨_, rfl⟩
  obtain ⟨s, hs⟩ := hrun
  refine ((answered_iff_table refusing _ _ refreshThenLookup hkeys s hs).mpr ?_).1
  have hselect : selectSql refusing
      (some (Function.update (fun _ => []) (lit ['A']) [lit ['x', '#']])) [] (lit ['A']) =
        some (true, cstr (lit ['x', '#'])) :=
    selectSql_hit tame_A.asks (Function.update_self ..) []
  simp [refreshThenLookup, calls, step, procStep, callOf, memcacheGet, hselect]

/-- A lookup of `A` that asks between the drop and the create. -/
def lookupInBetween : List Act :=
  [.drop, .lookup (lit ['A']), .go 0, .go 0, .go 0, .create]

/-- The lookup in between goes on without a result. -/
theorem not_answered_lookupInBetween :
    ¬ ∀ (table : Table) (cache : Cache) (as : List Act) (s : St),
      (∀ key, .lookup key ∈ as → Tame key) →
      Runs.run (step refusing) ⟨table, cache, []⟩ as = some s →
        (∀ c ∈ calls refusing ⟨table, cache, []⟩ as, SelectAsks c.cityname ∧ Answered refusing c) ∧
          ∀ p ∈ s.procs, p.pc ≠ .crashed := by
  intro h
  have hkeys : ∀ key, .lookup key ∈ lookupInBetween → Tame key := by simp [lookupInBetween, tame_A]
  have hcrash := (h _ _ lookupInBetween _ hkeys
    (show Runs.run (step refusing) fresh _ = some _ from rfl)).2
  exact hcrash ⟨lit ['A'], .crashed, []⟩ (List.mem_singleton_self _) rfl

end WeatherQuery.LookupRefresh
