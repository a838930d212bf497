import WeatherQuery.LookupModel

/-!
Whether the cache can be seen.

What is cached for a key is what the table has for it, in every run. That is not enough: a
lookup of `k` asks the cache for `k` and for `k+` before it asks the table for `k`, so a cached
`k+` hides a row `k` that is not cached. Among names that stand for themselves in a statement, the
cache cannot be seen exactly when no table entry can be hidden that way, that is, when the rows of
`k` and `k+` render alike wherever both exist.
-/

namespace WeatherQuery.LookupCache

open WeatherQuery.CText WeatherQuery.SqlLex WeatherQuery.SqlText WeatherQuery.LookupModel

variable {others : Others} {db : Bytes → Option Bytes}

/-- The values are as the C strings they are read through. -/
def PlainRows (db : Bytes → Option Bytes) : Prop :=
  ∀ key v, db key = some v → v ≠ [] ∧ NulFree v

/-- What a process at a given place may rely on. -/
def ProcOk (db : Bytes → Option Bytes) (p : Proc) : Prop :=
  match p.pc with
  | .getKey | .getPlus | .selectKey => True
  | .selectPlus => db p.key = none
  | .set key v => db key = some v ∧ p.out = uncached db p.key
  | .finished => p.out = uncached db p.key
  | .crashed => False

/-- The table is as it was, the cache holds only what the table has, and every result rendered
is the one a lookup without a cache gives. -/
structure Faithful (db : Bytes → Option Bytes) (s : St) : Prop where
  table : s.table = some fun key => (db key).toList
  cache : ∀ key v, s.cache key = some v → db key = some v
  keys : ∀ p ∈ s.procs, Tame p.key
  procs : ∀ p ∈ s.procs, ProcOk db p

/-- The rows of `k` and of `k+` render alike, for every name that can be asked for. -/
def Unhidden (db : Bytes → Option Bytes) : Prop :=
  ∀ key v w, Tame key → db key = some v → db (plus key) = some w → render v = render w

lemma select_hit (hp : PlainRows db) {key v : Bytes} (ht : Tame key) (h : db key = some v)
    (data : Bytes) :
    selectSql others (some fun key => (db key).toList) data key = some (true, v) := by
  have hrow : (db key).toList = v :: [] := by rw [h, Option.toList_some]
  have hselect :
      selectSql others (some fun key => (db key).toList) data key = some (true, cstr v) :=
    selectSql_hit ht.asks hrow data
  rwa [cstr_of_nulFree (hp key v h).2] at hselect

lemma select_miss {key : Bytes} (ht : Tame key) (h : db key = none) (data : Bytes) :
    selectSql others (some fun key => (db key).toList) data key = some (false, data) :=
  selectSql_miss ht.asks (by rw [h, Option.toList_none]) data

lemma memcacheGet_eq (hp : PlainRows db) {cache : Cache}
    (hc : ∀ key v, cache key = some v → db key = some v) (key : Bytes) :
    memcacheGet cache key = cache key := by
  unfold memcacheGet
  rcases h : cache key with _ | v
  · rfl
  · rw [Option.map_some, cstr_of_nulFree (hp key v (hc key v h)).2]

lemma uncached_hit {key v : Bytes} (h : db key = some v) : uncached db key = render v := by
  simp [uncached, h]

lemma uncached_plus {key v : Bytes} (h0 : db key = none) (h : db (plus key) = some v) :
    uncached db key = render v := by
  simp [uncached, h0, h]

/-- A hit on `k+` renders the right result, unless it hides a row `k`. -/
lemma uncached_of_plus (hu : Unhidden db) {key w : Bytes} (ht : Tame key)
    (h : db (plus key) = some w) : uncached db key = render w := by
  rcases hk : db key with _ | v
  · exact uncached_plus hk h
  · rw [uncached_hit hk, hu key v w ht hk h]

lemma procStep_ok (hp : PlainRows db) (hu : Unhidden db) {cache cache' : Cache} {p p' : Proc}
    (hc : ∀ key v, cache key = some v → db key = some v) (ht : Tame p.key) (hok : ProcOk db p)
    (h : procStep others (some fun key => (db key).toList) cache p = some (cache', p')) :
    (∀ key v, cache' key = some v → db key = some v) ∧ p'.key = p.key ∧ ProcOk db p' := by
  unfold procStep at h
  obtain ⟨key, pc, out⟩ := p
  cases pc with
  | getKey =>
    simp only [memcacheGet_eq hp hc] at h
    rcases hk : cache key with _ | v <;> rw [hk] at h <;> cases h
    · exact ⟨hc, rfl, trivial⟩
    · exact ⟨hc, rfl, (uncached_hit (hc key v hk)).symm⟩
  | getPlus =>
    simp only [memcacheGet_eq hp hc] at h
    rcases hk : cache (plus key) with _ | v <;> rw [hk] at h <;> cases h
    · exact ⟨hc, rfl, trivial⟩
    · exact ⟨hc, rfl, (uncached_of_plus hu ht (hc _ v hk)).symm⟩
  | selectKey =>
    rcases hk : db key with _ | v
    · simp only [select_miss ht hk] at h
      cases h
      exact ⟨hc, rfl, hk⟩
    · simp only [select_hit hp ht hk] at h
      cases h
      exact ⟨hc, rfl, hk, (uncached_hit hk).symm⟩
  | selectPlus =>
    have h0 : db key = none := hok
    rcases hk : db (plus key) with _ | v
    · simp only [select_miss ht.plus hk] at h
      cases h
      exact ⟨hc, rfl, by simp [ProcOk, uncached, h0, hk]⟩
    · simp only [select_hit hp ht.plus hk] at h
      cases h
      exact ⟨hc, rfl, hk, (uncached_plus h0 hk).symm⟩
  | set key' v =>
    cases h
    refine ⟨fun k w hw => ?_, rfl, hok.2⟩
    by_cases hkk : k = key'
    · subst hkk
      simp only [memcacheSet, Function.update_self, Option.some.injEq] at hw
      rw [← hw]
      exact hok.1
    · rw [memcacheSet, Function.update_of_ne hkk] at hw
      exact hc k w hw
  | finished => cases h
  | crashed => cases h

lemma step_faithful (hp : PlainRows db) (hu : Unhidden db) {s t : St} {a : Act}
    (ha : a.Reads ∧ a.Asks) (hs : Faithful db s) (h : step others s a = some t) :
    Faithful db t := by
  obtain ⟨ha, hasks⟩ := ha
  cases a with
  | lookup key =>
    obtain rfl : _ = t := by simpa [step] using h
    refine ⟨hs.table, hs.cache, fun p hp => ?_, fun p hp => ?_⟩
    all_goals rcases List.mem_append.mp hp with hp | hp
    · exact hs.keys p hp
    · rw [List.mem_singleton.mp hp]
      exact hasks
    · exact hs.procs p hp
    · rw [List.mem_singleton.mp hp]
      trivial
  | go i =>
    simp only [step] at h
    rcases hi : s.procs[i]? with _ | p
    · simp [hi] at h
    · rw [hi] at h
      obtain ⟨⟨cache', p'⟩, hstep, rfl⟩ := Option.map_eq_some_iff.mp h
      rw [hs.table] at hstep
      have hmem := List.mem_of_getElem? hi
      obtain ⟨hcache, hkey, hok⟩ :=
        procStep_ok hp hu hs.cache (hs.keys p hmem) (hs.procs p hmem) hstep
      refine ⟨hs.table, hcache, fun q hq => ?_, fun q hq => ?_⟩
      all_goals rcases List.mem_or_eq_of_mem_set hq with hq | rfl
      · exact hs.keys q hq
      · rw [hkey]
        exact hs.keys p hmem
      · exact hs.procs q hq
      · exact hok
  | evict key =>
    obtain rfl : _ = t := by simpa [step] using h
    refine ⟨hs.table, fun k v hk => ?_, hs.keys, hs.procs⟩
    by_cases hkk : k = key
    · subst hkk
      simp at hk
    · exact hs.cache k v (by simpa [Function.update_of_ne hkk] using hk)
  | drop => exact ha.elim
  | create => exact ha.elim
  | insert key info => exact ha.elim

lemma start_faithful (db : Bytes → Option Bytes) : Faithful db (start db) where
  table := rfl
  cache _ _ h := by cases h
  keys := by simp [start]
  procs := by simp [start]

/-! ### Every run -/

/-- A lookup that has written its result. -/
def Shown (p : Proc) : Prop :=
  match p.pc with
  | .set _ _ | .finished => True
  | _ => False

/-- The cache cannot be seen: in no run of lookups of tame names does a lookup crash, and every
result written is the one a lookup without a cache gives. -/
def Transparent (others : Others) (db : Bytes → Option Bytes) : Prop :=
  ∀ as s, (∀ a ∈ as, Act.Reads a ∧ Act.Asks a) → Runs.run (step others) (start db) as = some s →
    ∀ p ∈ s.procs, p.pc ≠ .crashed ∧ (Shown p → p.out = uncached db p.key)

lemma transparent_of_unhidden (hp : PlainRows db) (hu : Unhidden db) : Transparent others db := by
  intro as s hok hrun p hps
  have hs : Faithful db s := Runs.run_invariant
    (fun _ _ _ ha hs hst => step_faithful hp hu ha hs hst) (start_faithful db) hok hrun
  have hpok := hs.procs p hps
  obtain ⟨key, pc, out⟩ := p
  cases pc with
  | crashed => exact hpok.elim
  | set key' v => exact ⟨by simp, fun _ => hpok.2⟩
  | finished => exact ⟨by simp, fun _ => hpok⟩
  | _ => exact ⟨by simp, fun h => h.elim⟩

/-- A lookup of `k+`, then one of `k`. -/
def plusThenKey (key : Bytes) : List Act :=
  [.lookup (plus key), .go 0, .go 0, .go 0, .go 0, .lookup key, .go 1, .go 1]

lemma plusThenKey_run (hp : PlainRows db) {key w : Bytes} (ht : Tame key)
    (hw : db (plus key) = some w) :
    Runs.run (step others) (start db) (plusThenKey key) = some {
      table := some fun key => (db key).toList
      cache := memcacheSet (fun _ => none) (plus key) w
      procs := [⟨plus key, .finished, render w⟩, ⟨key, .finished, render w⟩] } := by
  have hne : key ≠ plus key := by simp [plus]
  simp [plusThenKey, Runs.run, step, start, procStep, memcacheGet, select_hit hp ht.plus hw,
    memcacheSet, hne, cstr_of_nulFree (hp _ w hw).2]

lemma unhidden_of_transparent (hp : PlainRows db) (h : Transparent others db) : Unhidden db := by
  intro key v w ht hv hw
  have hok : ∀ a ∈ plusThenKey key, Act.Reads a ∧ Act.Asks a := by
    simp [plusThenKey, Act.Reads, Act.Asks, ht, ht.plus]
  have h := (h (plusThenKey key) _ hok (plusThenKey_run hp ht hw)
    ⟨key, .finished, render w⟩ (by simp)).2 trivial
  rw [uncached_hit hv] at h
  exact h.symm

/-- **The cache cannot be seen exactly when it hides nothing.** For a table `db` of plain values,
every lookup of every run of lookups of tame names, whatever was looked up before or beside it and
whatever was evicted, renders what it would without a cache, if and only if the rows of `k` and `k+`
render alike wherever the table has both. What MySQL gives for other statements does not matter. -/
theorem transparent_iff (others : Others) (hp : PlainRows db) :
    Transparent others db ↔ Unhidden db :=
  ⟨unhidden_of_transparent hp, transparent_of_unhidden hp⟩

/-- One row, `A` with the info `x#`. -/
def oneRow : Bytes → Option Bytes := fun key =>
  if key = lit ['A'] then some (lit ['x', '#']) else none

theorem transparent_oneRow : Transparent refusing oneRow := by
  refine (transparent_iff refusing ?_).mpr ?_
  · intro key v h
    obtain ⟨-, rfl⟩ : key = lit ['A'] ∧ lit ['x', '#'] = v := by simpa [oneRow] using h
    exact ⟨by decide, by decide⟩
  · intro key v w _ hv hw
    have h1 : key = lit ['A'] := by
      by_contra hne
      simp [oneRow, hne] at hv
    have h2 : oneRow (plus (lit ['A'])) = none := by decide
    rw [h1, h2] at hw
    cases hw

/-- Two rows, `A` and `A+`. -/
def twoRows : Bytes → Option Bytes := fun key =>
  if key = lit ['A'] then some (lit ['x', '#'])
  else if key = lit ['A', '+'] then some (lit ['y', '#']) else none

lemma plain_twoRows : PlainRows twoRows := by
  intro key v h
  unfold twoRows at h
  split_ifs at h <;> cases h <;> exact ⟨by decide, by decide⟩

/-- A lookup of `'`, which asks the table before it asks for `'+`. -/
def lookupQuote : List Act := [.lookup (lit ['\'']), .go 0, .go 0, .go 0]

/-- With both rows in the table, a lookup of `A` after one of `A+` renders the row of `A+`. The
statement for the name `'` is refused, and the lookup goes on with NULL. -/
theorem hidden_twoRows :
    PlainRows twoRows ∧ ¬ Transparent refusing twoRows ∧
      (Runs.run (step refusing) (start twoRows) (plusThenKey (lit ['A']))).map
        (fun s => s.procs.map Proc.out) =
          some [render (lit ['y', '#']), render (lit ['y', '#'])] ∧
      uncached twoRows (lit ['A']) = render (lit ['x', '#']) ∧
      (Runs.run (step refusing) (start oneRow) lookupQuote).map
        (fun s => s.procs.map Proc.pc) = some [.crashed] := by
  refine ⟨plain_twoRows, fun ht => ?_, by decide +kernel, by decide, by decide +kernel⟩
  have h := unhidden_of_transparent plain_twoRows ht (lit ['A']) (lit ['x', '#'])
    (lit ['y', '#']) (by decide) (by decide) (by decide)
  exact absurd h (by decide)

/-! ### A lookup ends -/

/-- The calls a lookup has left at most. -/
def left : Pc → ℕ
  | .getKey => 5
  | .getPlus => 4
  | .selectKey => 3
  | .selectPlus => 2
  | .set _ _ => 1
  | .finished | .crashed => 0

/-- Every call brings a lookup nearer to its end, whatever table and cache answer. -/
lemma procStep_left (others : Others) (table : Table) (cache : Cache) {p : Proc}
    (h : 0 < left p.pc) :
    ∃ r, procStep others table cache p = some r ∧ left r.2.pc < left p.pc := by
  obtain ⟨key, pc, out⟩ := p
  cases pc with
  | getKey =>
    rcases hk : memcacheGet cache key with _ | v <;> simp only [procStep, hk] <;>
      exact ⟨_, rfl, by simp [left]⟩
  | getPlus =>
    rcases hk : memcacheGet cache (plus key) with _ | v <;> simp only [procStep, hk] <;>
      exact ⟨_, rfl, by simp [left]⟩
  | selectKey =>
    rcases hk : selectSql others table [] key with _ | ⟨_ | _, v⟩ <;> simp only [procStep, hk] <;>
      exact ⟨_, rfl, by simp [left]⟩
  | selectPlus =>
    rcases hk : selectSql others table [] (plus key) with _ | ⟨_ | _, v⟩ <;>
      simp only [procStep, hk] <;>
      exact ⟨_, rfl, by simp [left]⟩
  | set key' v => exact ⟨_, rfl, by simp [left]⟩
  | finished => simp [left] at h
  | crashed => simp [left] at h

/-- **A lookup ends** after at most five calls of its own. -/
theorem lookup_ends {s : St} {i : ℕ} {p : Proc} (hi : s.procs[i]? = some p) :
    ∃ n ≤ left p.pc, ∃ t q, Runs.run (step others) s (List.replicate n (.go i)) = some t ∧
      t.procs[i]? = some q ∧ left q.pc = 0 := by
  induction hl : left p.pc using Nat.strong_induction_on generalizing s p with
  | _ k ih =>
    rcases Nat.eq_zero_or_pos k with h0 | hpos
    · exact ⟨0, by omega, s, p, rfl, hi, by omega⟩
    · obtain ⟨r, hr, hlt⟩ := procStep_left others s.table s.cache (p := p) (by omega)
      have hget : (s.procs.set i r.2)[i]? = some r.2 :=
        List.getElem?_set_self (List.getElem?_eq_some_iff.mp hi).1
      obtain ⟨n, hn, t, q, hrun, hq, hend⟩ :=
        ih (left r.2.pc) (by omega) (s := { s with cache := r.1, procs := s.procs.set i r.2 })
          hget rfl
      refine ⟨n + 1, by omega, t, q, ?_, hq, hend⟩
      rw [List.replicate_succ]
      exact Runs.run_cons_iff.mpr ⟨_, by simp [step, hi, hr], hrun⟩

end WeatherQuery.LookupCache
