import WeatherQuery.LoadBooks

/-!
What `http_load` reports at its end.

With `-parallel` and `-fetches` the program makes as many fetches as it was asked for, with never
more connections than it was allowed, and comes to its end when the last of them is done. The
statistics it prints are those of the answers: of the bytes that came for each fetch, however they
came, however many fetches were under way at a time, and in whatever order they were done. As in the
books, starts come up, memory lasts, and a program that throttles waits a second or more.
-/

namespace WeatherQuery.LoadReport

open WeatherQuery.CText WeatherQuery.LoadModel WeatherQuery.LoadTable WeatherQuery.LoadSlots
open WeatherQuery.LoadSteps WeatherQuery.LoadActs WeatherQuery.LoadBooks
open WeatherQuery.LoadHeader (headOf bodyOf statusOf lengthOf)
open WeatherQuery.LoadRead (readable Counts Open Fresh sumOf)
open WeatherQuery.TimerModel (Time Sys)

/-! ### The number of fetches -/

section Limits

variable {opt : Options} {s s' : Load} {cnum n m : ℕ} {c d : Connection}

structure Limits (n m : ℕ) (s : Load) : Prop where
  books : Books s
  length : s.connections.length = n
  parallel : s.totals.maxParallel ≤ n
  started : s.totals.fetchesStarted ≤ m
  done : s.finished = true → m ≤ s.totals.fetchesCompleted

/-- As long as fewer are open than there are slots, one is free. -/
lemma hasFree_of_lt (h : openCount s.connections < s.connections.length) : hasFree s = true := by
  by_contra hno
  have hall : ∀ c ∈ s.connections, c.connState ≠ .free := by
    intro c hc hfree
    refine hno (List.findIdx?_isSome.trans ?_)
    exact List.any_eq_true.mpr ⟨c, hc, by simpa using hfree⟩
  have hcount : openCount s.connections = s.connections.length :=
    List.countP_eq_length.mpr fun c hc => by simpa using hall c hc
  omega

lemma Limits.closed (h : Limits n m s) (hc : s.connections[cnum]? = some c)
    (hopen : c.connState ≠ .free) (hfin : s.finished = false) (u : Seen) (timers : Sys Client) :
    Limits n m (Load.closed opt s cnum d u timers) := by
  obtain ⟨-, h₂, h₃, h₄⟩ := closed_totals opt s cnum d u timers
  refine ⟨h.books.closed hc hopen u timers, ?_, ?_, ?_, fun hend => ?_⟩
  · rw [show (Load.closed opt s cnum d u timers).connections.length = s.connections.length by
      simp [Load.closed]]
    exact h.length
  · rw [h₄]
    exact h.parallel
  · rw [h₂]
    exact h.started
  · rw [show (Load.closed opt s cnum d u timers).finished = s.finished from rfl, hfin] at hend
    cases hend

lemma Limits.same (h : Limits n m s) (hc : s.connections[cnum]? = some c)
    (hd : d.connState = .free ↔ c.connState = .free) (timers : Sys Client) :
    Limits n m { s.setConn cnum d with timers := timers } where
  books := h.books.same hc hd timers
  length := (List.length_set ..).trans h.length
  parallel := h.parallel
  started := h.started
  done := h.done

lemma Limits.timedOut (h : Limits n m s) : Limits n m (Load.timedOut s) :=
  ⟨h.books, h.length, h.parallel, h.started, h.done⟩

/-- More connections are asked for only where there is room, and more to do. -/
lemma MayStart.room (hstart : opt.start = .parallel n) (hstop : opt.stop = .fetches m)
    (h : MayStart opt s) : s.totals.numConnections < n ∧ s.totals.fetchesStarted < m := by
  rcases h with h | ⟨limit, interval, doJitter, hrate⟩
  · simpa [wantsMore, hstart, hstop] using h
  · rw [hstart] at hrate
    cases hrate

lemma Limits.ends (hstart : opt.start = .parallel n) (hstop : opt.stop = .fetches m)
    (h : Limits n m s) (hwhy : EndsBy opt s) : m ≤ s.totals.fetchesCompleted := by
  rcases hwhy with ⟨hno, hmay⟩ | ⟨k, hk⟩ | ⟨k, hk, hdone⟩
  · have hroom := (MayStart.room hstart hstop hmay).1
    have hlt : openCount s.connections < s.connections.length := by
      have hnum := h.books.1
      rw [h.length]
      omega
    rw [hasFree_of_lt hlt] at hno
    cases hno
  · rw [hstop] at hk
    cases hk
  · rw [hstop] at hk
    obtain rfl := EndMode.fetches.inj hk
    exact hdone

lemma effect_limits (hstart : opt.start = .parallel n) (hstop : opt.stop = .fetches m) {a : Act}
    (he : Effect opt s a s') (hfin : s.finished = false) (h : Limits n m s) : Limits n m s' := by
  cases he with
  | quiet timers ha => exact ⟨h.books, h.length, h.parallel, h.started, h.done⟩
  | ended ha hwhy =>
    have hdone := h.ends hstart hstop hwhy
    exact ⟨h.books, h.length, h.parallel, h.started, fun _ => hdone⟩
  | started timers ha hc hfree hmay hup hurl =>
    obtain ⟨hroom, hmore⟩ := MayStart.room hstart hstop hmay
    have hpar := h.parallel
    refine ⟨h.books.started hc hfree startedRecord_open timers, (List.length_set ..).trans h.length,
      ?_, hmore, h.done⟩
    simp only [Load.started, Totals.up]
    omega
  | sent hc hstate => exact h.same hc (by simp [hstate, sentRecord]) s.timers
  | dropped timers hc hstate hd hu => exact h.closed hc (by simp [hstate]) hfin _ timers
  | read timers hc hread hr hopen =>
    refine h.same hc ?_ timers
    simp [hopen, open_of_readable hread]
  | readLast timers hc hread hr hu => exact h.closed hc (open_of_readable hread) hfin _ timers
  | woke timers hc hopen hwake =>
    exact h.same hc (by simp [hopen, LoadModel.wakeupConnection]) timers
  | idle timers hc hopen hu =>
    exact (h.closed hc hopen hfin _ timers).timedOut

/-- A state of a run, with what the run has kept. -/
lemma run_effects (hidle : opt.doThrottle = true → 1 ≤ opt.idleSecs) {I : Load → Prop}
    (hI : ∀ s a t, s.finished = false → I s → Effect opt s a t → I t) {acts : List Act} {s t : Load}
    (hg : ∃ bs, Good opt s bs) (hs : I s)
    (hup : Runs.Steps (step TimerModel.step opt) CameUp s acts)
    (h : Runs.run (step TimerModel.step opt) s acts = some t) : I t := by
  induction acts generalizing s with
  | nil =>
    obtain rfl : s = t := by simpa using h
    exact hs
  | cons a acts ih =>
    obtain ⟨r, hr, h⟩ := Runs.run_cons_iff.mp h
    obtain ⟨hup, hrest⟩ := hup r hr
    obtain ⟨bs, hg⟩ := hg
    obtain ⟨-, hg', heff⟩ := step_good hidle hg hup hr
    have hfin : s.finished = false := by
      unfold step at hr
      split_ifs at hr with hfin
      simpa using hfin
    exact ih hg' (hI s a r hfin hs heff) hrest h

/-- **As many fetches as asked for.** With `-parallel n` and `-fetches m`, when the connections come
up, there are never more than `n` of them and never more than `m` fetches. The program has something
to do until it has made them, and it ends with all `m` done and no connection left. -/
theorem parallel_exact (opt : Options) {n m : ℕ} (hstart : opt.start = .parallel n)
    (hstop : opt.stop = .fetches m) (hn : 1 ≤ n)
    (hidle : opt.doThrottle = true → 1 ≤ opt.idleSecs) (numUrls : ℕ) (memory : Memory)
    (now : Time) :
    ∃ s₀, prepare opt numUrls memory now = some s₀ ∧
      ∀ acts s, Runs.Steps (step TimerModel.step opt) CameUp s₀ acts →
        Runs.run (step TimerModel.step opt) s₀ acts = some s →
        openCount s.connections ≤ n ∧ s.totals.maxParallel ≤ n ∧ s.totals.fetchesStarted ≤ m ∧
          (s.totals.fetchesCompleted < m → wantsMore opt s = true ∨ 0 < openCount s.connections) ∧
          (s.finished = true →
            s.totals.fetchesCompleted = m ∧ openCount s.connections = 0) := by
  obtain ⟨s₀, bs, hprep, hg, hb⟩ := prepare_good opt numUrls memory now
  refine ⟨s₀, hprep, fun acts s hup hrun => ?_⟩
  have hfirst : Limits n m s₀ := by
    obtain ⟨mem, -, rfl⟩ := Option.map_eq_some_iff.mp hprep
    refine ⟨hb, ?_, ?_, Nat.zero_le m, fun h => by cases h⟩
    · simp [freeTable, maxConnections, hstart]
    · simp [noTotals]
  have hlim : Limits n m s := run_effects hidle
    (fun s a t hfin h he => effect_limits hstart hstop he hfin h) ⟨bs, hg⟩ hfirst hup hrun
  obtain ⟨hnum, hstarted⟩ := hlim.books
  have hle : openCount s.connections ≤ n := by
    rw [← hlim.length]
    exact List.countP_le_length
  have hm := hlim.started
  refine ⟨hle, hlim.parallel, hm, fun hmore => ?_, fun hend => ?_⟩
  · rcases Nat.eq_zero_or_pos (openCount s.connections) with hzero | hpos
    · refine .inl ?_
      simp only [wantsMore, hstart, hstop, hnum, hzero, Bool.and_eq_true, decide_eq_true_eq]
      omega
    · exact .inr hpos
  · have hdone := hlim.done hend
    omega

end Limits

/-- The second in which the one connection pauses and is given up, `tmr_run` to its end, and the
test of the main loop. -/
def lastSecond : List Act := pausedSecond ++ (List.replicate 61 .turn ++ [.finish])

lemma lastSecond_up : ∀ a ∈ lastSecond, actUp a := by
  intro a ha
  rcases List.mem_append.mp ha with ha | ha
  · exact pausedSecond_up a ha
  · rcases List.mem_append.mp ha with ha | ha
    · rw [List.eq_of_mem_replicate ha]
      trivial
    · rw [List.mem_singleton.mp ha]
      trivial

lemma lastSecond_ends :
    ((prepare oneSecond 1 blankMemory ⟨5, 0⟩).bind fun s =>
      Runs.run (step TimerModel.step oneSecond) s lastSecond).map
        (fun s => (s.finished, s.totals.totalBytes, s.totals.httpStatusCounts 200)) =
      some (true, 1, 1) := by
  decide +kernel

theorem parallel_exact_lastSecond :
    ∃ s₀ s, prepare oneSecond 1 blankMemory ⟨5, 0⟩ = some s₀ ∧
      Runs.run (step TimerModel.step oneSecond) s₀ lastSecond = some s ∧
      s.finished = true ∧ s.totals.fetchesCompleted = 1 ∧ openCount s.connections = 0 := by
  obtain ⟨s₀, hprep, hall⟩ := parallel_exact oneSecond rfl rfl (le_refl 1) (fun _ => le_refl 1) 1
    blankMemory ⟨5, 0⟩
  have hends := lastSecond_ends
  rw [hprep, Option.bind_some] at hends
  obtain ⟨s, hrun, hs⟩ := Option.map_eq_some_iff.mp hends
  have hfin : s.finished = true := congrArg Prod.fst hs
  obtain ⟨-, -, -, -, hend⟩ := hall lastSecond s (steps_of_actUp lastSecond_up s₀) hrun
  exact ⟨s₀, s, hprep, hrun, hfin, hend hfin⟩

/-! ### The fetches of a run -/

/-- A fetch that is done: its url, and the bytes that came. -/
structure Fetch where
  url : ℕ
  answer : Bytes

/-- What has come for the fetch that is under way in a slot, and the fetches that are done. -/
structure History where
  coming : ℕ → Bytes
  done : List Fetch

def History.start : History := ⟨fun _ => [], []⟩

def openAt (conns : List Connection) (n : ℕ) : Bool := conns[n]?.any (·.connState ≠ .free)

/-- The bytes of a slot once the action has brought its own. -/
def History.came (h : History) (a : Act) (n : ℕ) : Bytes :=
  match a with
  | .read cnum _ bytes => if cnum = n then h.coming n ++ bytes else h.coming n
  | _ => h.coming n

/-- A fetch is done when its slot becomes free. -/
def History.note (h : History) (s : Load) (a : Act) (s' : Load) : History where
  coming n := if openAt s'.connections n then h.came a n else []
  done := h.done ++ (List.range s.connections.length).filterMap fun n =>
    if openAt s.connections n && !openAt s'.connections n then
      s.connections[n]?.map fun c => ⟨c.urlNum, h.came a n⟩
    else none

/-- The fetches of a run, as they can be read off its actions and the states of the slots. -/
def history (opt : Options) : Load → History → List Act → History
  | _, h, [] => h
  | s, h, a :: acts =>
    match step TimerModel.step opt s a with
    | none => h
    | some s' => history opt s' (h.note s a s') acts

section Firsts

variable {α : Type*} (value : Bytes → α)

/-- What the first fetch of a url came to. -/
def firstOf (done : List Fetch) (url : ℕ) : Option α :=
  (done.find? (·.url = url)).map fun f => value f.answer

/-- The fetches that came to something else than the first of their url. -/
def oddOnes [DecidableEq α] (done : List Fetch) : ℕ :=
  done.countP fun f => firstOf value done f.url ≠ some (value f.answer)

variable {value}

lemma firstOf_append (done : List Fetch) (f : Fetch) (url : ℕ) :
    firstOf value (done ++ [f]) url =
      (firstOf value done url).or (if f.url = url then some (value f.answer) else none) := by
  unfold firstOf
  rw [List.find?_append, Option.map_or]
  by_cases h : f.url = url <;> simp [h]

lemma firstOf_isSome {done : List Fetch} {f : Fetch} (h : f ∈ done) :
    ∃ v, firstOf value done f.url = some v := by
  have hsome : (done.find? (·.url = f.url)).isSome := by
    rw [List.find?_isSome]
    exact ⟨f, h, by simp⟩
  obtain ⟨g, hg⟩ := Option.isSome_iff_exists.mp hsome
  exact ⟨value g.answer, by simp [firstOf, hg]⟩

/-- A fetch more is odd where there was one before, and that was different. -/
lemma oddOnes_append [DecidableEq α] (done : List Fetch) (f : Fetch) :
    oddOnes value (done ++ [f]) = oddOnes value done +
      if (firstOf value done f.url).any (value f.answer ≠ ·) then 1 else 0 := by
  unfold oddOnes
  rw [List.countP_append]
  congr 1
  · refine List.countP_congr fun g hg => ?_
    obtain ⟨v, hv⟩ := @firstOf_isSome _ value _ _ hg
    rw [firstOf_append, hv]
    rfl
  · rw [List.countP_singleton, firstOf_append]
    rcases firstOf value done f.url with _ | v
    · simp
    · by_cases h : v = value f.answer
      · simp [h]
      · simp [h, Ne.symm h]

end Firsts

/-! ### The statistics of the fetches -/

/-- The length of the body of an answer. -/
def bodyLength (all : Bytes) : ℕ := (bodyOf all).length

/-- The checksum of the body of an answer. -/
def bodySum (cfg : Config) (all : Bytes) : ℤ := sumOf cfg (bodyOf all)

/-- The statistics are those of the fetches that are done. -/
structure Report (cfg : Config) (done : List Fetch) (n : Totals) : Prop where
  completed : n.fetchesCompleted = done.length
  bytes : n.totalBytes = (done.map fun f => bodyLength f.answer).sum
  statuses : ∀ k, n.httpStatusCounts k =
    if 0 ≤ k ∧ k ≤ 999 then done.countP fun f => statusOf (headOf f.answer) = k else 0
  badbytes : n.totalBadbytes = if cfg.doChecksum then 0 else oddOnes bodyLength done
  badchecksums : n.totalBadchecksums =
    if cfg.doChecksum then oddOnes (bodySum cfg) done else 0

/-- What is kept of a url is what its first fetch came to. -/
def Kept (cfg : Config) (done : List Fetch) (url : ℕ) (u : Seen) : Prop :=
  if cfg.doChecksum then u.checksum = firstOf (bodySum cfg) done url
  else u.bytes = firstOf bodyLength done url

section Report

variable {cfg : Config} {c : Connection} {all : Bytes} {done : List Fetch} {u : Seen} {n : Totals}

/-- The url is compared with its first fetch, or this is the first. -/
lemma compareUrl_kept (hcounts : Counts cfg c all) (hu : Kept cfg done c.urlNum u) :
    Kept cfg (done ++ [⟨c.urlNum, all⟩]) c.urlNum (compareUrl cfg u c).1 ∧
      (compareUrl cfg u c).2 =
        if cfg.doChecksum then (firstOf (bodySum cfg) done c.urlNum).any (bodySum cfg all ≠ ·)
        else (firstOf bodyLength done c.urlNum).any (bodyLength all ≠ ·) := by
  unfold Kept at hu ⊢
  unfold compareUrl
  rw [firstOf_append, firstOf_append, if_pos rfl, if_pos rfl]
  split_ifs at hu ⊢ with hdo
  · rw [← hu, hcounts.checksum]
    rcases hsum : u.checksum with _ | sum
    · exact ⟨rfl, rfl⟩
    · exact ⟨hsum, rfl⟩
  · rw [← hu, hcounts.bytes]
    rcases hlen : u.bytes with _ | len
    · exact ⟨rfl, rfl⟩
    · exact ⟨hlen, rfl⟩

lemma close_counts (n : Totals) (c : Connection) :
    (n.close c).fetchesCompleted = n.fetchesCompleted + 1 ∧
      (n.close c).totalBytes = n.totalBytes + c.bytes ∧
      (n.close c).totalBadbytes = n.totalBadbytes ∧
      (n.close c).totalBadchecksums = n.totalBadchecksums := by
  unfold Totals.close
  dsimp only
  split_ifs <;> exact ⟨rfl, rfl, rfl, rfl⟩

lemma close_statuses (n : Totals) (c : Connection) (k : ℤ) :
    (n.close c).httpStatusCounts k =
      n.httpStatusCounts k + if 0 ≤ k ∧ k ≤ 999 ∧ c.httpStatus = k then 1 else 0 := by
  unfold Totals.close
  dsimp only
  by_cases hk : c.httpStatus = k
  · subst hk
    split_ifs <;> simp_all
  · rw [if_neg (show ¬ (0 ≤ k ∧ k ≤ 999 ∧ c.httpStatus = k) from fun h => hk h.2.2)]
    split_ifs <;> simp [Ne.symm hk]

lemma bad_counts (n : Totals) (cfg : Config) (odd : Bool) :
    (if odd then n.bad cfg else n).fetchesCompleted = n.fetchesCompleted ∧
      (if odd then n.bad cfg else n).totalBytes = n.totalBytes ∧
      (if odd then n.bad cfg else n).httpStatusCounts = n.httpStatusCounts ∧
      (if odd then n.bad cfg else n).totalBadbytes =
        n.totalBadbytes + (if cfg.doChecksum then 0 else odd.toNat) ∧
      (if odd then n.bad cfg else n).totalBadchecksums =
        n.totalBadchecksums + (if cfg.doChecksum then odd.toNat else 0) := by
  unfold Totals.bad
  by_cases hdo : cfg.doChecksum = true <;> cases odd <;> simp [hdo]

/-- `close_connection` counts the fetch. -/
lemma Report.close (h : Report cfg done n) (hcounts : Counts cfg c all)
    (hu : Kept cfg done c.urlNum u) :
    Report cfg (done ++ [⟨c.urlNum, all⟩])
      (if (compareUrl cfg u c).2 then (n.close c).bad cfg else n.close c) := by
  obtain ⟨hdone, hbytes, hbadbytes, hbadsums⟩ := close_counts n c
  obtain ⟨hdone', hbytes', hstatuses', hbadbytes', hbadsums'⟩ :=
    bad_counts (n.close c) cfg (compareUrl cfg u c).2
  refine ⟨?_, ?_, fun k => ?_, ?_, ?_⟩
  · rw [hdone', hdone, h.completed, List.length_append, List.length_singleton]
  · rw [hbytes', hbytes, h.bytes, hcounts.bytes]
    simp [bodyLength]
  · rw [hstatuses', close_statuses, h.statuses, hcounts.status, List.countP_append,
      List.countP_singleton]
    by_cases hk : 0 ≤ k ∧ k ≤ 999
    · simp [hk]
    · rw [if_neg hk, if_neg hk, if_neg fun h => hk ⟨h.1, h.2.1⟩]
  · rw [hbadbytes', hbadbytes, h.badbytes, (compareUrl_kept hcounts hu).2, oddOnes_append]
    split_ifs <;> simp_all
  · rw [hbadsums', hbadsums, h.badchecksums, (compareUrl_kept hcounts hu).2, oddOnes_append]
    split_ifs <;> simp_all

/-- What the report is about is not changed. -/
lemma Report.totals (h : Report cfg done n) {n' : Totals}
    (h₁ : n'.fetchesCompleted = n.fetchesCompleted) (h₂ : n'.totalBytes = n.totalBytes)
    (h₃ : n'.httpStatusCounts = n.httpStatusCounts) (h₄ : n'.totalBadbytes = n.totalBadbytes)
    (h₅ : n'.totalBadchecksums = n.totalBadchecksums) : Report cfg done n' where
  completed := h₁.trans h.completed
  bytes := h₂.trans h.bytes
  statuses k := (congrFun h₃ k).trans (h.statuses k)
  badbytes := h₄.trans h.badbytes
  badchecksums := h₅.trans h.badchecksums

end Report

/-! ### The history tells the state -/

/-- A fetch that is under way, with what has come for it. -/
def UnderWay (cfg : Config) (c : Connection) (all : Bytes) : Prop :=
  (c.connState = .connecting ∧ all = [] ∧ ∀ now, Fresh (sentRecord c now)) ∨ Open cfg c all

structure Tells (opt : Options) (s : Load) (h : History) : Prop where
  slots : ∀ n c, s.connections[n]? = some c → c.connState ≠ .free →
    UnderWay opt.toConfig c (h.coming n)
  blank : ∀ n c, s.connections[n]? = some c → c.connState = .free → h.coming n = []
  urls : ∀ url u, s.urls[url]? = some u → Kept opt.toConfig h.done url u
  report : Report opt.toConfig h.done s.totals

section Tells

variable {opt : Options} {s s' : Load} {h : History} {a : Act} {cnum : ℕ} {c d : Connection}
  {cfg : Config} {all : Bytes}

lemma UnderWay.counts (hu : UnderWay cfg c all) : Counts cfg c all := by
  rcases hu with ⟨-, rfl, hfresh⟩ | hopen
  · have hcounts : Counts cfg (sentRecord c ⟨0, 0⟩) [] := (hfresh ⟨0, 0⟩).inHeader.counts
    exact ⟨hcounts.status, hcounts.length, hcounts.bytes, hcounts.checksum⟩
  · exact hopen.counts

lemma UnderWay.open (hu : UnderWay cfg c all) (hstate : c.connState ≠ .connecting) :
    Open cfg c all := by
  rcases hu with ⟨hconn, -, -⟩ | hopen
  · exact absurd hconn hstate
  · exact hopen

lemma openAt_eq (hc : s.connections[cnum]? = some c) :
    openAt s.connections cnum = decide (c.connState ≠ .free) := by simp [openAt, hc]

lemma openAt_set (hc : s.connections[cnum]? = some c) (n : ℕ) :
    openAt (s.connections.set cnum d) n =
      if n = cnum then decide (d.connState ≠ .free) else openAt s.connections n := by
  have hlt := (List.getElem?_eq_some_iff.mp hc).1
  unfold openAt
  split_ifs with hn
  · subst hn
    simp [hlt]
  · rw [List.getElem?_set_ne (Ne.symm hn)]

/-- Nothing is done as long as no slot becomes free. -/
lemma note_done_same
    (hno : ∀ n, openAt s.connections n = true → openAt s'.connections n = true) :
    (h.note s a s').done = h.done := by
  have hnil : ((List.range s.connections.length).filterMap fun n =>
      if openAt s.connections n && !openAt s'.connections n then
        s.connections[n]?.map fun c => (⟨c.urlNum, h.came a n⟩ : Fetch)
      else none) = [] := by
    refine List.filterMap_eq_nil_iff.mpr fun n _ => if_neg ?_
    simp only [Bool.and_eq_true, Bool.not_eq_true', not_and, Bool.not_eq_false]
    exact hno n
  exact (congrArg (h.done ++ ·) hnil).trans (List.append_nil _)

/-- The one member of a range that a function takes. -/
lemma filterMap_range_one {α : Type*} {f : ℕ → Option α} {k n : ℕ} {x : α} (hn : n < k)
    (hf : ∀ i, f i = if i = n then some x else none) : (List.range k).filterMap f = [x] := by
  induction k with
  | zero => omega
  | succ k ih =>
    rw [List.range_succ, List.filterMap_append, List.filterMap_cons, hf k]
    rcases Nat.lt_succ_iff_lt_or_eq.mp hn with hlt | rfl
    · rw [ih hlt, if_neg (by omega)]
      rfl
    · have hnil : (List.range n).filterMap f = [] := by
        refine List.filterMap_eq_nil_iff.mpr fun i hi => ?_
        rw [hf i, if_neg (List.mem_range.mp hi).ne]
      rw [hnil, if_pos rfl]
      rfl

/-- The fetch of a slot that becomes free is done. -/
lemma note_done_closed (hc : s.connections[cnum]? = some c) (hopen : c.connState ≠ .free)
    (hd : d.connState = .free) (hs' : s'.connections = s.connections.set cnum d) :
    (h.note s a s').done = h.done ++ [⟨c.urlNum, h.came a cnum⟩] := by
  refine congrArg (h.done ++ ·)
    (filterMap_range_one (List.getElem?_eq_some_iff.mp hc).1 fun n => ?_)
  rw [hs', openAt_set hc]
  by_cases hn : n = cnum
  · subst hn
    simp [openAt_eq hc, hopen, hd, hc]
  · simp [hn]

lemma note_coming {n : ℕ} (hc : s'.connections[n]? = some c) :
    (h.note s a s').coming n = if c.connState ≠ .free then h.came a n else [] := by
  simp only [History.note, openAt, hc, Option.any_some, decide_eq_true_eq]

/-- One slot is rewritten, and the others have nothing from the action. -/
lemma Tells.slot (ht : Tells opt s h) (hc : s.connections[cnum]? = some c)
    (hs' : s'.connections = s.connections.set cnum d)
    (hother : ∀ n, n ≠ cnum → h.came a n = h.coming n)
    (hd : d.connState ≠ .free → UnderWay opt.toConfig d (h.came a cnum)) (n : ℕ) (e : Connection)
    (he : s'.connections[n]? = some e) (hopen : e.connState ≠ .free) :
    UnderWay opt.toConfig e ((h.note s a s').coming n) := by
  rw [note_coming he, if_pos hopen]
  rw [hs'] at he
  by_cases hn : n = cnum
  · subst hn
    rw [List.getElem?_set_self (List.getElem?_eq_some_iff.mp hc).1, Option.some.injEq] at he
    subst he
    exact hd hopen
  · rw [List.getElem?_set_ne (Ne.symm hn)] at he
    rw [hother n hn]
    exact ht.slots n e he hopen

lemma note_blank {n : ℕ} (hc : s'.connections[n]? = some c) (hfree : c.connState = .free) :
    (h.note s a s').coming n = [] := by
  rw [note_coming hc, if_neg (by simp [hfree])]

/-- The fetch of the slot goes on, or is begun. -/
lemma Tells.goOn (ht : Tells opt s h) (hc : s.connections[cnum]? = some c)
    (hopen : d.connState ≠ .free) (hd : UnderWay opt.toConfig d (h.came a cnum))
    (hother : ∀ n, n ≠ cnum → h.came a n = h.coming n)
    (hs' : s'.connections = s.connections.set cnum d) (hurls : s'.urls = s.urls)
    (hreport : Report opt.toConfig h.done s'.totals) : Tells opt s' (h.note s a s') := by
  have hdone : (h.note s a s').done = h.done := by
    refine note_done_same fun n hn => ?_
    rw [hs', openAt_set hc]
    split_ifs
    · simpa using hopen
    · exact hn
  refine ⟨ht.slot hc hs' hother fun _ => hd, fun n e he hfree => note_blank he hfree, ?_, ?_⟩
  · rw [hdone, hurls]
    exact ht.urls
  · rw [hdone]
    exact hreport

/-- The fetch of the slot is done. -/
lemma Tells.close (ht : Tells opt s h) (hc : s.connections[cnum]? = some c)
    (hopen : c.connState ≠ .free) (hurl : d.urlNum = c.urlNum)
    (hcounts : Counts opt.toConfig d (h.came a cnum))
    (hother : ∀ n, n ≠ cnum → h.came a n = h.coming n) {u : Seen}
    (hu : s.urls[c.urlNum]? = some u) (timers : Sys Client) :
    Tells opt (Load.closed opt s cnum d u timers)
      (h.note s a (Load.closed opt s cnum d u timers)) := by
  have hdone : (h.note s a (Load.closed opt s cnum d u timers)).done =
      h.done ++ [⟨d.urlNum, h.came a cnum⟩] := by
    rw [hurl]
    exact note_done_closed hc hopen rfl rfl
  have hkept : Kept opt.toConfig h.done d.urlNum u := by
    rw [hurl]
    exact ht.urls _ u hu
  refine ⟨ht.slot hc rfl hother fun h => absurd rfl h, fun n e he hfree => note_blank he hfree,
    fun url v hv => ?_, ?_⟩
  · rw [hdone]
    by_cases hn : url = d.urlNum
    · subst hn
      rw [← hurl] at hu
      have hv' : (compareUrl opt.toConfig u d).1 = v := by
        simpa [Load.closed, (List.getElem?_eq_some_iff.mp hu).1] using hv
      rw [← hv']
      exact (compareUrl_kept hcounts hkept).1
    · have hv' : s.urls[url]? = some v := by
        rw [← hv]
        exact (List.getElem?_set_ne (Ne.symm hn)).symm
      have hold := ht.urls url v hv'
      unfold Kept at hold ⊢
      rw [firstOf_append, firstOf_append, if_neg (Ne.symm hn), if_neg (Ne.symm hn)]
      simpa using hold
  · rw [hdone]
    exact ht.report.close hcounts hkept

lemma came_of_ne (ha : ∀ cnum now bytes, a ≠ .read cnum now bytes) (n : ℕ) :
    h.came a n = h.coming n := by
  cases a with
  | read cnum now bytes => exact absurd rfl (ha cnum now bytes)
  | _ => rfl

lemma came_read (now : Time) (bytes : Bytes) :
    h.came (.read cnum now bytes) cnum = h.coming cnum ++ bytes := if_pos rfl

lemma came_read_ne (now : Time) (bytes : Bytes) (n : ℕ) (hn : n ≠ cnum) :
    h.came (.read cnum now bytes) n = h.coming n := if_neg (Ne.symm hn)

/-- A fetch is given up. -/
lemma Tells.drop (ht : Tells opt s h) (ha : ∀ cnum now bytes, a ≠ .read cnum now bytes)
    (hc : s.connections[cnum]? = some c) (hopen : c.connState ≠ .free)
    (hcounts : Counts opt.toConfig d (h.coming cnum)) (hurl : d.urlNum = c.urlNum) {u : Seen}
    (hu : s.urls[c.urlNum]? = some u) (timers : Sys Client) :
    Tells opt (Load.closed opt s cnum d u timers)
      (h.note s a (Load.closed opt s cnum d u timers)) := by
  refine ht.close hc hopen hurl ?_ (fun n _ => came_of_ne ha n) hu timers
  rw [came_of_ne ha]
  exact hcounts

/-- Nothing happens in the slots. -/
lemma Tells.rest (ht : Tells opt s h) (ha : ∀ cnum now bytes, a ≠ .read cnum now bytes)
    (hs' : s'.connections = s.connections) (hurls : s'.urls = s.urls)
    (htotals : s'.totals = s.totals) : Tells opt s' (h.note s a s') := by
  have hdone : (h.note s a s').done = h.done := note_done_same fun n hn => by rwa [hs']
  refine ⟨fun n e he hopen => ?_, fun n e he hfree => note_blank he hfree, ?_, ?_⟩
  · rw [note_coming he, if_pos hopen, came_of_ne ha]
    rw [hs'] at he
    exact ht.slots n e he hopen
  · rw [hdone, hurls]
    exact ht.urls
  · rw [hdone, htotals]
    exact ht.report

lemma started_underWay {urlNum t : ℕ} {now : Time} {out : Started} (hup : up out) :
    UnderWay cfg (startedRecord c urlNum now t out) [] := by
  cases out with
  | inProgress => exact .inl ⟨rfl, rfl, fun _ => ⟨rfl, rfl, rfl, rfl, rfl, rfl, rfl⟩⟩
  | instant now' wrote =>
    have hfresh : Fresh (sentRecord (startRecord c urlNum now t) now') :=
      ⟨rfl, rfl, rfl, rfl, rfl, rfl, rfl⟩
    exact .inr (.inl hfresh.inHeader)
  | _ => exact hup.elim

/-- What `handle_read` leaves is what the bytes say, and a connection it leaves open goes on. -/
lemma read_underWay (ho : Open cfg c all) (hread : readable c = true) {now : ℤ} {timer : ℕ}
    {bytes : Bytes} {closed : Bool} (hr : handleRead cfg now timer c bytes = some (d, closed)) :
    Counts cfg d (all ++ bytes) ∧ (closed = false → Open cfg d (all ++ bytes)) := by
  by_cases hne : bytes = []
  · subst hne
    obtain ⟨d', hd', hcounts⟩ := ho.handleRead_end now timer
    obtain ⟨rfl, rfl⟩ : d' = d ∧ true = closed := by simpa [hd'] using hr
    rw [List.append_nil]
    exact ⟨hcounts, fun h => by cases h⟩
  · obtain ⟨d', closed', hd', hcounts, hor⟩ :=
      ho.handleRead hread now timer hne (LoadRead.handleRead_fits hr)
    obtain ⟨rfl, rfl⟩ : d' = d ∧ closed' = closed := by simpa [hd'] using hr
    refine ⟨hcounts, fun hclosed => ?_⟩
    rcases hor with ⟨-, ho'⟩ | ⟨hclosed', -⟩
    · exact ho'
    · rw [hclosed] at hclosed'
      cases hclosed'

lemma read_url {now : ℤ} {timer : ℕ} {bytes : Bytes} {closed : Bool} (hread : readable c = true)
    (hr : handleRead cfg now timer c bytes = some (d, closed)) : d.urlNum = c.urlNum := by
  obtain ⟨r, closed', hr', hreads⟩ :=
    handleRead_reads cfg now timer hread (LoadRead.handleRead_fits hr)
  obtain ⟨rfl, -⟩ : r = d ∧ closed' = closed := by simpa [hr'] using hr
  exact hreads.url

lemma not_connecting (hread : readable c = true) : c.connState ≠ .connecting := by
  intro hconn
  simp [readable, hconn] at hread

/-- The request is sent. -/
lemma UnderWay.sent (hu : UnderWay cfg c all) (hstate : c.connState = .connecting) (now : Time) :
    UnderWay cfg (sentRecord c now) all := by
  rcases hu with ⟨-, rfl, hfresh⟩ | ho
  · exact .inr (.inl (hfresh now).inHeader)
  · exact absurd hstate (not_connecting (ho.readable (by simp [hstate])))

lemma UnderWay.wakeup (hu : UnderWay cfg c all) (hwake : c.wakeupTimer.isSome = true) :
    UnderWay cfg (LoadModel.wakeupConnection c) all := by
  rcases hu with ⟨-, -, hfresh⟩ | ho
  · have hnone : c.wakeupTimer = none := (hfresh ⟨0, 0⟩).wakeup
    rw [hnone] at hwake
    cases hwake
  · exact .inr (ho.wakeup hwake)

/-- What is counted is not changed. -/
lemma counts_congr (hcounts : Counts cfg c all) (h₁ : d.httpStatus = c.httpStatus)
    (h₂ : d.contentLength = c.contentLength) (h₃ : d.bytes = c.bytes)
    (h₄ : d.checksum = c.checksum) : Counts cfg d all :=
  ⟨h₁.trans hcounts.status, h₂.trans hcounts.length, h₃.trans hcounts.bytes,
    h₄.trans hcounts.checksum⟩

/-- **The history is told step by step.** -/
lemma effect_tells (he : Effect opt s a s') (ht : Tells opt s h) :
    Tells opt s' (h.note s a s') := by
  cases he with
  | quiet timers ha => exact ht.rest ha rfl rfl rfl
  | ended ha hwhy => exact ht.rest ha rfl rfl rfl
  | started timers ha hc hfree hmay hup hurl =>
    refine ht.goOn hc startedRecord_open ?_ (fun n _ => came_of_ne ha n) rfl rfl ?_
    · rw [came_of_ne ha, ht.blank _ _ hc hfree]
      exact started_underWay hup
    · exact ht.report.totals rfl rfl rfl rfl rfl
  | sent hc hstate =>
    have hu := ht.slots _ _ hc (by simp [hstate])
    exact ht.goOn hc (by simp [sentRecord]) (hu.sent hstate _) (fun n _ => rfl) rfl rfl ht.report
  | @dropped cnum now out c d u timers hc hstate hd hu =>
    have hcounts := (ht.slots cnum c hc (by simp [hstate])).counts
    have hd' : d.urlNum = c.urlNum ∧ Counts opt.toConfig d (h.coming cnum) := by
      rcases hd with rfl | rfl
      · exact ⟨rfl, hcounts⟩
      · exact ⟨rfl, counts_congr hcounts rfl rfl rfl rfl⟩
    refine ht.drop ?_ hc (by simp [hstate]) hd'.2 hd'.1 hu timers
    simp
  | read timers hc hread hr hopen =>
    have ho := (ht.slots _ _ hc (open_of_readable hread)).open (not_connecting hread)
    refine ht.goOn hc hopen ?_ (came_read_ne _ _) rfl rfl ht.report
    rw [came_read]
    exact .inr ((read_underWay ho hread hr).2 rfl)
  | readLast timers hc hread hr hu =>
    have ho := (ht.slots _ _ hc (open_of_readable hread)).open (not_connecting hread)
    have hurl := read_url hread hr
    rw [hurl] at hu
    refine ht.close hc (open_of_readable hread) hurl ?_ (came_read_ne _ _) hu timers
    rw [came_read]
    exact (read_underWay ho hread hr).1
  | woke timers hc hopen hwake =>
    have hu := (ht.slots _ _ hc hopen).wakeup hwake
    exact ht.goOn hc (by simp [LoadModel.wakeupConnection]) hu (fun n _ => rfl) rfl rfl ht.report
  | @idle x cnum c u timers hc hopen hu =>
    have hcounts : Counts opt.toConfig { c with idleTimer := none } (h.coming cnum) :=
      counts_congr (ht.slots cnum c hc hopen).counts rfl rfl rfl rfl
    obtain ⟨hslots, hblank, hurls, hreport⟩ := ht.drop (fire_ne x) hc hopen hcounts rfl hu timers
    exact ⟨hslots, hblank, hurls, hreport.totals rfl rfl rfl rfl rfl⟩

end Tells

section Run

variable {opt : Options}

lemma run_tells (hidle : opt.doThrottle = true → 1 ≤ opt.idleSecs) {acts : List Act} {s t : Load}
    {h : History} (hg : ∃ bs, Good opt s bs) (hs : Tells opt s h)
    (hup : Runs.Steps (step TimerModel.step opt) CameUp s acts)
    (hrun : Runs.run (step TimerModel.step opt) s acts = some t) :
    Tells opt t (history opt s h acts) := by
  induction acts generalizing s h with
  | nil =>
    obtain rfl : s = t := by simpa using hrun
    exact hs
  | cons a acts ih =>
    obtain ⟨r, hr, hrun⟩ := Runs.run_cons_iff.mp hrun
    obtain ⟨hup, hrest⟩ := hup r hr
    obtain ⟨bs, hg⟩ := hg
    obtain ⟨-, hg', heff⟩ := step_good hidle hg hup hr
    have htail := ih hg' (effect_tells heff hs) hrest hrun
    simpa only [history, hr] using htail

lemma prepare_tells {numUrls : ℕ} {memory : Memory} {now : Time} {s : Load}
    (h : prepare opt numUrls memory now = some s) : Tells opt s History.start := by
  obtain ⟨m, -, rfl⟩ := Option.map_eq_some_iff.mp h
  refine ⟨fun n c hc hopen => ?_, fun n c hc hfree => rfl, fun url u hu => ?_, ?_⟩
  · exact absurd (mem_freeTable (List.mem_of_getElem? hc)) hopen
  · obtain rfl := List.eq_of_mem_replicate (List.mem_of_getElem? hu)
    simp [Kept, firstOf, History.start]
  · constructor <;> simp [noTotals, History.start, oddOnes]

/-- **The report is that of the answers.** In every run whose starts come up, however many fetches
are under way at a time and however their answers are cut, mixed, paused and broken off, the
statistics are those of the answers alone: the fetches and the bytes of their bodies, the statuses,
and how many fetches came to something else than the first of their url. -/
theorem report_exact (opt : Options) (hidle : opt.doThrottle = true → 1 ≤ opt.idleSecs)
    (numUrls : ℕ) (memory : Memory) (now : Time) :
    ∃ s₀, prepare opt numUrls memory now = some s₀ ∧
      ∀ acts s, Runs.Steps (step TimerModel.step opt) CameUp s₀ acts →
        Runs.run (step TimerModel.step opt) s₀ acts = some s →
        Report opt.toConfig (history opt s₀ History.start acts).done s.totals := by
  obtain ⟨s₀, bs, hprep, hg, -⟩ := prepare_good opt numUrls memory now
  refine ⟨s₀, hprep, fun acts s hup hrun => ?_⟩
  exact (run_tells hidle ⟨bs, hg⟩ (prepare_tells hprep) hup hrun).report

theorem report_exact_lastSecond :
    ∃ s₀ s, prepare oneSecond 1 blankMemory ⟨5, 0⟩ = some s₀ ∧
      Runs.run (step TimerModel.step oneSecond) s₀ lastSecond = some s ∧
      s.totals.totalBytes = 1 ∧ s.totals.httpStatusCounts 200 = 1 ∧
      Report oneSecond.toConfig (history oneSecond s₀ History.start lastSecond).done s.totals := by
  obtain ⟨s₀, hprep, hall⟩ := report_exact oneSecond (fun _ => le_refl 1) 1 blankMemory ⟨5, 0⟩
  have hends := lastSecond_ends
  rw [hprep, Option.bind_some] at hends
  obtain ⟨s, hrun, hs⟩ := Option.map_eq_some_iff.mp hends
  simp only [Prod.mk.injEq] at hs
  obtain ⟨-, hbytes, hstatus⟩ := hs
  exact ⟨s₀, s, hprep, hrun, hbytes, hstatus,
    hall lastSecond s (steps_of_actUp lastSecond_up s₀) hrun⟩

end Run

end WeatherQuery.LoadReport
