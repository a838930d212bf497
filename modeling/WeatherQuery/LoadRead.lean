import WeatherQuery.LoadHeader
import WeatherQuery.Runs

/-!
A connection of `http_load` from the request to its end.

The answer comes in reads of any size that fits the buffer, and with a throttle there are pauses
between them that a timer ends. None of this shows in what the connection counts: that is a function
of the bytes.
-/

namespace WeatherQuery.LoadRead

open WeatherQuery.CText WeatherQuery.LoadModel WeatherQuery.LoadHeader

/-- A connection, and whether `close_connection` was called on it. -/
structure Session where
  conn : Connection
  closed : Bool

/-- `read` is a call of `handle_read` with the bytes it got, none of them at the end of the answer;
`wakeup` is the timer of the throttle. -/
inductive Act
  | read (now : ℤ) (timer : ℕ) (bytes : Bytes)
  | wakeup

/-- The main loop calls `handle_read` in the states `CNST_HEADERS` and `CNST_READING`. -/
def readable (c : Connection) : Bool := c.connState = .headers || c.connState = .reading

def step (cfg : Config) (s : Session) : Act → Option Session
  | .read now timer bytes =>
    if !s.closed && readable s.conn then
      (handleRead cfg now timer s.conn bytes).map fun r => ⟨r.1, r.2⟩
    else none
  | .wakeup =>
    if !s.closed && s.conn.wakeupTimer.isSome then
      some { s with conn := wakeupConnection s.conn }
    else none

/-- A connection as `handle_connect` leaves it. -/
structure Fresh (c : Connection) : Prop where
  conn : c.connState = .headers
  header : c.headerState = .line1Protocol
  length : c.contentLength = -1
  status : c.httpStatus = -1
  bytes : c.bytes = 0
  checksum : c.checksum = 0
  wakeup : c.wakeupTimer = none

def received (acts : List Act) : Bytes :=
  acts.flatMap fun
    | .read _ _ bytes => bytes
    | .wakeup => []

/-- A read that got nothing. -/
def Act.isEnd : Act → Bool
  | .read _ _ bytes => bytes = []
  | .wakeup => false

/-- The sum of a body, as `-checksum` counts it. -/
def sumOf (cfg : Config) (body : Bytes) : ℤ := if cfg.doChecksum then body.foldl sumByte 0 else 0

/-- Something has come behind the header, and it is as much as the header announced. An answer
without a body is never complete in this sense: the length is compared behind a byte of the body. -/
def Reached (all : Bytes) : Prop :=
  bodyOf all ≠ [] ∧ lengthOf (headOf all) ≠ -1 ∧ lengthOf (headOf all) ≤ (bodyOf all).length

/-! ### What the header machine leaves alone -/

/-- The first lines of `handle_read`. -/
def respond (now : ℤ) (s : Connection) : Connection :=
  if s.didResponse then s else { s with didResponse := true, responseAt := now }

lemma headerByte_frame (s : Connection) (b : UInt8) :
    headerByte s b =
      { s with
        connState := (headerByte s b).connState
        headerState := (headerByte s b).headerState
        contentLength := (headerByte s b).contentLength
        httpStatus := (headerByte s b).httpStatus } := by
  unfold headerByte waitFor lineStart inLine
  dsimp only
  split <;> split_ifs <;> rfl

lemma fold_frame (s : Connection) (h : Bytes) :
    h.foldl headerByte s =
      { s with
        connState := (h.foldl headerByte s).connState
        headerState := (h.foldl headerByte s).headerState
        contentLength := (h.foldl headerByte s).contentLength
        httpStatus := (h.foldl headerByte s).httpStatus } := by
  induction h generalizing s with
  | nil => rfl
  | cons b h ih =>
    rw [List.foldl_cons, ih, headerByte_frame s b]

lemma headerByte_respond (now : ℤ) (s : Connection) (b : UInt8) :
    headerByte (respond now s) b = respond now (headerByte s b) := by
  have hdid : (headerByte s b).didResponse = s.didResponse := by rw [headerByte_frame]
  unfold respond
  rw [hdid]
  split_ifs
  · rfl
  · unfold headerByte waitFor lineStart inLine
    dsimp only
    split <;> split_ifs <;> rfl

lemma fold_respond (now : ℤ) (s : Connection) (h : Bytes) :
    h.foldl headerByte (respond now s) = respond now (h.foldl headerByte s) := by
  induction h generalizing s with
  | nil => rfl
  | cons b h ih => rw [List.foldl_cons, List.foldl_cons, headerByte_respond, ih]

lemma respond_connState (now : ℤ) (s : Connection) : (respond now s).connState = s.connState := by
  unfold respond
  split_ifs <;> rfl

lemma Fresh.respond {c : Connection} (h : Fresh c) (now : ℤ) : Fresh (respond now c) := by
  obtain ⟨h₁, h₂, h₃, h₄, h₅, h₆, h₇⟩ := h
  unfold LoadRead.respond
  split_ifs
  · exact ⟨h₁, h₂, h₃, h₄, h₅, h₆, h₇⟩
  · exact ⟨h₁, h₂, h₃, h₄, h₅, h₆, h₇⟩

/-! ### Inside the header -/

/-- The connection has read the bytes `all`, all of them in the header. -/
structure InHeader (c : Connection) (all : Bytes) : Prop where
  conn : c.connState = .headers
  unended : Unended all
  newlines : Newlines c.headerState all.reverse
  start : ∃ c₀, Fresh c₀ ∧ c = all.foldl headerByte c₀

/-- The connection has read `body` behind the header `head`. -/
structure InBody (cfg : Config) (c : Connection) (head body : Bytes) : Prop where
  first : FirstEnd head
  status : c.httpStatus = statusOf head
  length : c.contentLength = lengthOf head
  bytes : c.bytes = body.length
  checksum : c.checksum = sumOf cfg body
  state : c.connState = .reading ∧ c.wakeupTimer = none ∨
    c.connState = .pausing ∧ c.wakeupTimer.isSome

lemma Fresh.inHeader {c : Connection} (h : Fresh c) : InHeader c [] where
  conn := h.conn
  unended p hp := by
    rw [List.prefix_nil.mp hp]
    rfl
  newlines := by
    rw [h.header]
    exact ⟨by decide, by decide⟩
  start := ⟨c, h, rfl⟩

lemma InHeader.respond {c : Connection} {all : Bytes} (h : InHeader c all) (now : ℤ) :
    InHeader (respond now c) all := by
  obtain ⟨hconn, hu, hn, c₀, hc₀, rfl⟩ := h
  rw [← fold_respond]
  refine ⟨?_, hu, ?_, _, hc₀.respond now, rfl⟩
  · rw [fold_respond, respond_connState]
    exact hconn
  · rw [fold_respond]
    unfold LoadRead.respond
    split_ifs <;> exact hn

lemma InBody.respond {cfg : Config} {c : Connection} {head body : Bytes}
    (h : InBody cfg c head body) (now : ℤ) : InBody cfg (respond now c) head body := by
  obtain ⟨h₁, h₂, h₃, h₄, h₅, h₆⟩ := h
  unfold LoadRead.respond
  split_ifs
  · exact ⟨h₁, h₂, h₃, h₄, h₅, h₆⟩
  · exact ⟨h₁, h₂, h₃, h₄, h₅, h₆⟩

/-- Where the header ends the connection has its two numbers and nothing of the body. -/
lemma Fresh.inBody {cfg : Config} {c : Connection} (h : Fresh c) {head : Bytes}
    (hconn : (head.foldl headerByte c).connState = .reading) (hend : FirstEnd head) :
    InBody cfg (head.foldl headerByte c) head [] := by
  obtain ⟨hst, hlen⟩ := fold_header h.header h.status h.length head
  refine ⟨hend, hst, hlen, ?_, ?_, .inl ⟨hconn, ?_⟩⟩
  · rw [fold_frame]
    exact h.bytes
  · rw [fold_frame, sumOf]
    simp [h.checksum]
  · rw [fold_frame]
    exact h.wakeup

lemma InBody.readBody {cfg : Config} {c : Connection} {head body : Bytes}
    (h : InBody cfg c head body) (hconn : c.connState = .reading) (now : ℤ) (timer : ℕ)
    (rest : Bytes) : InBody cfg (readBody cfg now timer c rest) head (body ++ rest) := by
  obtain ⟨hend, hst, hlen, hbytes, hsum, hstate⟩ := h
  have hwake : c.wakeupTimer = none := by
    rcases hstate with ⟨-, h⟩ | ⟨h, -⟩
    · exact h
    · rw [hconn] at h
      cases h
  have hsum' : cfg.doChecksum = true → c.checksum = body.foldl sumByte 0 := by
    intro hdo
    rw [hsum, sumOf, if_pos hdo]
  unfold LoadModel.readBody
  refine ⟨hend, ?_, ?_, ?_, ?_, ?_⟩ <;> dsimp only <;> split_ifs <;> simp_all [sumOf]

/-! ### One read -/

/-- The connection counts what it has read of `all`. -/
structure Counts (cfg : Config) (c : Connection) (all : Bytes) : Prop where
  status : c.httpStatus = statusOf (headOf all)
  length : c.contentLength = lengthOf (headOf all)
  bytes : c.bytes = (bodyOf all).length
  checksum : c.checksum = sumOf cfg (bodyOf all)

/-- An open connection that has read `all`. -/
def Open (cfg : Config) (c : Connection) (all : Bytes) : Prop :=
  InHeader c all ∨
    ∃ head body, all = head ++ body ∧ InBody cfg c head body ∧ (body = [] ∨ complete c = false)

lemma InHeader.counts {cfg : Config} {c : Connection} {all : Bytes} (h : InHeader c all) :
    Counts cfg c all := by
  obtain ⟨-, hu, -, c₀, hc₀, rfl⟩ := h
  obtain ⟨hhead, hbody⟩ := cut_unended hu
  obtain ⟨hst, hlen⟩ := fold_header hc₀.header hc₀.status hc₀.length all
  refine ⟨?_, ?_, ?_, ?_⟩
  · rw [hhead, hst]
  · rw [hhead, hlen]
  · rw [hbody, fold_frame]
    exact hc₀.bytes
  · rw [hbody, fold_frame, sumOf]
    simp [hc₀.checksum]

lemma InBody.counts {cfg : Config} {c : Connection} {head body : Bytes}
    (h : InBody cfg c head body) : Counts cfg c (head ++ body) := by
  obtain ⟨hhead, hbody⟩ := cut_firstEnd h.first body
  refine ⟨?_, ?_, ?_, ?_⟩
  · rw [hhead, h.status]
  · rw [hhead, h.length]
  · rw [hbody, h.bytes]
  · rw [hbody, h.checksum]

lemma Open.counts {cfg : Config} {c : Connection} {all : Bytes} (h : Open cfg c all) :
    Counts cfg c all := by
  rcases h with h | ⟨head, body, rfl, h, -⟩
  · exact h.counts
  · exact h.counts

lemma Counts.complete_iff {cfg : Config} {c : Connection} {all : Bytes} (h : Counts cfg c all) :
    complete c = true ↔
      lengthOf (headOf all) ≠ -1 ∧ lengthOf (headOf all) ≤ (bodyOf all).length := by
  simp [complete, h.length, h.bytes]

lemma Open.not_reached {cfg : Config} {c : Connection} {all : Bytes} (h : Open cfg c all) :
    ¬ Reached all := by
  rintro ⟨hne, hreach⟩
  rw [← h.counts.complete_iff] at hreach
  rcases h with h | ⟨head, body, rfl, h, hor⟩
  · exact hne (cut_unended h.unended).2
  · rcases hor with rfl | hno
    · exact hne (cut_firstEnd h.first []).2
    · rw [hno] at hreach
      cases hreach

/-- A read that gets on in the body. -/
lemma InBody.read {cfg : Config} {c : Connection} {head body : Bytes} (h : InBody cfg c head body)
    (hconn : c.connState = .reading) (now : ℤ) (timer fuel : ℕ) {bytes : Bytes}
    (hne : bytes ≠ []) :
    ∃ c' closed, readLoop cfg now timer (fuel + 1) c bytes = some (c', closed) ∧
      InBody cfg c' head (body ++ bytes) ∧ complete c' = closed := by
  rcases bytes with _ | ⟨b, bytes⟩
  · exact absurd rfl hne
  · have hbody := h.readBody hconn now timer (b :: bytes)
    refine ⟨_, complete (LoadModel.readBody cfg now timer c (b :: bytes)), ?_, hbody, rfl⟩
    rw [readLoop, hconn]
    dsimp only
    split_ifs with hfull
    · rw [hfull]
    · rw [readLoop]
      simpa using hfull

/-- A read that gets on in the header, and perhaps in the body. -/
lemma InHeader.read {c : Connection} {all : Bytes} (h : InHeader c all) (cfg : Config) (now : ℤ)
    (timer : ℕ) {bytes : Bytes} (hne : bytes ≠ []) :
    ∃ c' closed, readLoop cfg now timer 2 c bytes = some (c', closed) ∧
      ((closed = false ∧ InHeader c' (all ++ bytes)) ∨
        ∃ head body, all ++ bytes = head ++ body ∧ InBody cfg c' head body ∧
          ((body = [] ∧ closed = false) ∨ (body ≠ [] ∧ complete c' = closed))) := by
  obtain ⟨hconn, hu, hn, c₀, hc₀, hc⟩ := h
  obtain ⟨p, rest, hcut, hloop, hor⟩ := headerLoop_cut hconn hu hn bytes
  have hfold : p.foldl headerByte c = (all ++ p).foldl headerByte c₀ := by
    rw [hc, List.foldl_append]
  have hturn : readLoop cfg now timer 2 c bytes =
      readLoop cfg now timer 1 (p.foldl headerByte c) rest := by
    rcases bytes with _ | ⟨b, bytes⟩
    · exact absurd rfl hne
    · rw [readLoop, hconn]
      dsimp only
      rw [hloop]
  rw [hturn]
  rcases hor with ⟨hconn', rfl, hu', hn'⟩ | ⟨hconn', hend⟩
  · obtain rfl : bytes = p := by simpa using hcut
    exact ⟨_, false, by rw [readLoop], .inl ⟨rfl, hconn', hu', hn', c₀, hc₀, hfold⟩⟩
  · have hbody : InBody cfg (p.foldl headerByte c) (all ++ p) [] := by
      rw [hfold] at hconn' ⊢
      exact hc₀.inBody hconn' hend
    have hall : all ++ bytes = (all ++ p) ++ rest := by rw [hcut, List.append_assoc]
    by_cases hrest : rest = []
    · subst hrest
      exact ⟨_, false, by rw [readLoop], .inr ⟨_, [], hall, hbody, .inl ⟨rfl, rfl⟩⟩⟩
    · obtain ⟨c', closed, hread, hbody', hfull⟩ := hbody.read hconn' now timer 0 hrest
      exact ⟨c', closed, hread, .inr ⟨_, rest, hall, hbody', .inr ⟨hrest, hfull⟩⟩⟩

/-- What `read` gave has fitted the buffer. -/
lemma handleRead_fits {cfg : Config} {now : ℤ} {timer : ℕ} {c : Connection} {bytes : Bytes}
    {r : Connection × Bool} (h : handleRead cfg now timer c bytes = some r) :
    bytes.length ≤ bufSize := by
  by_contra hlong
  have hne : bytes ≠ [] := by
    rintro rfl
    simp at hlong
  simp [handleRead, hne, Nat.not_le.mp hlong] at h

/-- **One read.** On a connection the main loop reads from, `handle_read` returns from every read
that fits its buffer. It leaves the connection open with the bytes counted, or closes it when what
was announced has come. -/
lemma Open.handleRead {cfg : Config} {c : Connection} {all : Bytes} (h : Open cfg c all)
    (hread : readable c = true) (now : ℤ) (timer : ℕ) {bytes : Bytes} (hne : bytes ≠ [])
    (hfit : bytes.length ≤ bufSize) :
    ∃ c' closed, handleRead cfg now timer c bytes = some (c', closed) ∧
      Counts cfg c' (all ++ bytes) ∧
      ((closed = false ∧ Open cfg c' (all ++ bytes)) ∨
        (closed = true ∧ Reached (all ++ bytes))) := by
  have hstart : LoadModel.handleRead cfg now timer c bytes =
      readLoop cfg now timer 2 (LoadRead.respond now c) bytes := by
    unfold LoadModel.handleRead
    rw [if_neg hne, if_neg (Nat.not_lt.mpr hfit)]
    rfl
  -- both kinds of a read into the body come to this
  have hdone : ∀ {c' : Connection} {closed : Bool} {head body : Bytes},
      all ++ bytes = head ++ body → InBody cfg c' head body → body ≠ [] → complete c' = closed →
      Counts cfg c' (all ++ bytes) ∧
        ((closed = false ∧ Open cfg c' (all ++ bytes)) ∨
          (closed = true ∧ Reached (all ++ bytes))) := by
    intro c' closed head body hall hbody hne' hfull
    have hcounts := hbody.counts
    rw [← hall] at hcounts
    refine ⟨hcounts, ?_⟩
    rcases closed with _ | _
    · exact .inl ⟨rfl, .inr ⟨head, body, hall, hbody, .inr hfull⟩⟩
    · refine .inr ⟨rfl, ?_, hcounts.complete_iff.mp hfull⟩
      rw [hall, (cut_firstEnd hbody.first body).2]
      exact hne'
  rw [hstart]
  rcases h with h | ⟨head, body, rfl, h, -⟩
  · obtain ⟨c', closed, hloop, hor⟩ := (h.respond now).read cfg now timer hne
    refine ⟨c', closed, hloop, ?_⟩
    rcases hor with ⟨rfl, hin⟩ | ⟨head, body, hall, hbody, ⟨rfl, rfl⟩ | ⟨hne', hfull⟩⟩
    · exact ⟨hin.counts, .inl ⟨rfl, .inl hin⟩⟩
    · have hcounts := hbody.counts
      rw [← hall] at hcounts
      exact ⟨hcounts, .inl ⟨rfl, .inr ⟨head, [], hall, hbody, .inl rfl⟩⟩⟩
    · exact hdone hall hbody hne' hfull
  · have hconn : (LoadRead.respond now c).connState = .reading := by
      rw [respond_connState]
      simp only [readable, Bool.or_eq_true, decide_eq_true_eq] at hread
      rcases h.state with ⟨h, -⟩ | ⟨h, -⟩
      · exact h
      · simp [h] at hread
    obtain ⟨c', closed, hloop, hbody, hfull⟩ := (h.respond now).read hconn now timer 1 hne
    refine ⟨c', closed, hloop, ?_⟩
    exact hdone (List.append_assoc _ _ _) hbody (by simp [hne]) hfull

/-! ### Whole answers -/

lemma Open.handleRead_end {cfg : Config} {c : Connection} {all : Bytes} (h : Open cfg c all)
    (now : ℤ) (timer : ℕ) :
    ∃ c', LoadModel.handleRead cfg now timer c [] = some (c', true) ∧ Counts cfg c' all := by
  refine ⟨LoadRead.respond now c, rfl, ?_⟩
  obtain ⟨h₁, h₂, h₃, h₄⟩ := h.counts
  unfold LoadRead.respond
  split_ifs
  · exact ⟨h₁, h₂, h₃, h₄⟩
  · exact ⟨h₁, h₂, h₃, h₄⟩

lemma Open.wakeup {cfg : Config} {c : Connection} {all : Bytes} (h : Open cfg c all)
    (hw : c.wakeupTimer.isSome) : Open cfg (wakeupConnection c) all := by
  rcases h with h | ⟨head, body, rfl, h, hor⟩
  · obtain ⟨-, -, -, c₀, hc₀, rfl⟩ := h
    rw [fold_frame] at hw
    simp [hc₀.wakeup] at hw
  · exact .inr ⟨head, body, rfl,
      ⟨h.first, h.status, h.length, h.bytes, h.checksum, .inl ⟨rfl, rfl⟩⟩, hor⟩

/-- The session after the bytes `all`; `gone` says whether a read got nothing. -/
def Sound (cfg : Config) (s : Session) (all : Bytes) (gone : Bool) : Prop :=
  Counts cfg s.conn all ∧
    ((s.closed = false ∧ gone = false ∧ Open cfg s.conn all) ∨
      (s.closed = true ∧ (gone = true ∨ Reached all)))

lemma step_sound {cfg : Config} {s t : Session} {act : Act} {all : Bytes} {gone : Bool}
    (hs : Sound cfg s all gone) (h : step cfg s act = some t) :
    Sound cfg t (all ++ received [act]) (gone || act.isEnd) := by
  obtain ⟨hcounts, hor⟩ := hs
  have hopen : s.closed = false := by
    cases act <;> simp only [step, Option.ite_none_right_eq_some, Bool.and_eq_true] at h <;>
      simpa using h.1.1
  obtain ⟨-, rfl, ho⟩ : s.closed = false ∧ gone = false ∧ Open cfg s.conn all := by
    rcases hor with hor | ⟨hclosed, -⟩
    · exact hor
    · rw [hopen] at hclosed
      cases hclosed
  cases act with
  | read now timer bytes =>
    simp only [step, Option.ite_none_right_eq_some, Bool.and_eq_true] at h
    obtain ⟨⟨-, hread⟩, h⟩ := h
    have hrec : received [.read now timer bytes] = bytes := by simp [received]
    rw [hrec]
    by_cases hne : bytes = []
    · subst hne
      obtain ⟨c', hc', hcounts'⟩ := ho.handleRead_end now timer
      obtain rfl : (⟨c', true⟩ : Session) = t := by simpa [hc'] using h
      exact ⟨by simpa using hcounts', .inr ⟨rfl, .inl (by simp [Act.isEnd])⟩⟩
    · obtain ⟨r, hr, -⟩ := Option.map_eq_some_iff.mp h
      have hfit := handleRead_fits hr
      obtain ⟨c', closed, hc', hcounts', hor'⟩ := ho.handleRead hread now timer hne hfit
      obtain rfl : (⟨c', closed⟩ : Session) = t := by simpa [hc'] using h
      refine ⟨hcounts', ?_⟩
      rcases hor' with ⟨rfl, ho'⟩ | ⟨rfl, hreach⟩
      · exact .inl ⟨rfl, by simp [Act.isEnd, hne], ho'⟩
      · exact .inr ⟨rfl, .inr hreach⟩
  | wakeup =>
    simp only [step, Option.ite_none_right_eq_some, Bool.and_eq_true, Option.some.injEq] at h
    obtain ⟨⟨-, hw⟩, rfl⟩ := h
    have ho' := ho.wakeup hw
    have hrec : all ++ received [.wakeup] = all := by simp [received]
    rw [hrec]
    exact ⟨ho'.counts, .inl ⟨hopen, rfl, ho'⟩⟩

lemma run_sound {cfg : Config} {s t : Session} {acts : List Act} {all : Bytes} {gone : Bool}
    (hs : Sound cfg s all gone) (h : Runs.run (step cfg) s acts = some t) :
    Sound cfg t (all ++ received acts) (gone || acts.any Act.isEnd) := by
  induction acts generalizing s all gone with
  | nil =>
    obtain rfl : s = t := by simpa using h
    simpa [received] using hs
  | cons act acts ih =>
    obtain ⟨r, hr, h⟩ := Runs.run_cons_iff.mp h
    have hrun := ih (step_sound hs hr) h
    have hrec : all ++ received [act] ++ received acts = all ++ received (act :: acts) := by
      simp [received]
    rw [hrec] at hrun
    simpa [Bool.or_assoc] using hrun

lemma Fresh.sound {cfg : Config} {c : Connection} (hc : Fresh c) : Sound cfg ⟨c, false⟩ [] false :=
  ⟨hc.inHeader.counts, .inl ⟨rfl, rfl, .inl hc.inHeader⟩⟩

lemma Sound.closed_iff {cfg : Config} {s : Session} {all : Bytes} {gone : Bool}
    (h : Sound cfg s all gone) : s.closed = true ↔ gone = true ∨ Reached all := by
  obtain ⟨-, ⟨hopen, hover, ho⟩ | ⟨hclosed, hor⟩⟩ := h
  · simp [hopen, hover, ho.not_reached]
  · exact ⟨fun _ => hor, fun _ => hclosed⟩

/-- What a run has counted, and whether it is over. -/
lemma run_counts {cfg : Config} {c : Connection} (hc : Fresh c) {acts : List Act} {s : Session}
    (hrun : Runs.run (step cfg) ⟨c, false⟩ acts = some s) :
    Sound cfg s (received acts) (acts.any Act.isEnd) := by
  have hsound := run_sound hc.sound hrun
  rwa [List.nil_append, Bool.false_or] at hsound

lemma Open.headers_iff {cfg : Config} {c : Connection} {all : Bytes} (h : Open cfg c all) :
    c.connState = .headers ↔ headLength all = none := by
  rcases h with h | ⟨head, body, rfl, h, -⟩
  · simp [h.conn, headLength_unended h.unended]
  · rw [headLength_firstEnd h.first body]
    rcases h.state with ⟨h, -⟩ | ⟨h, -⟩ <;> simp [h]

lemma Open.readable {cfg : Config} {c : Connection} {all : Bytes} (h : Open cfg c all)
    (hp : c.connState ≠ .pausing) : readable c = true := by
  unfold LoadRead.readable
  rcases h with h | ⟨head, body, rfl, h, -⟩
  · simp [h.conn]
  · rcases h.state with ⟨h, -⟩ | ⟨h, -⟩
    · simp [h]
    · exact absurd h hp

lemma Open.wakeable {cfg : Config} {c : Connection} {all : Bytes} (h : Open cfg c all)
    (hp : c.connState = .pausing) : c.wakeupTimer.isSome := by
  rcases h with h | ⟨head, body, rfl, h, -⟩
  · rw [h.conn] at hp
    cases hp
  · rcases h.state with ⟨h, -⟩ | ⟨-, hw⟩
    · rw [h] at hp
      cases hp
    · exact hw

lemma Open.read_isSome {cfg : Config} {s : Session} {all : Bytes} (h : Open cfg s.conn all)
    (hopen : s.closed = false) (hp : s.conn.connState ≠ .pausing) (now : ℤ) (timer : ℕ)
    {bytes : Bytes} (hfit : bytes.length ≤ bufSize) :
    (step cfg s (.read now timer bytes)).isSome := by
  have hread := h.readable hp
  by_cases hne : bytes = []
  · obtain ⟨c', hc', -⟩ := h.handleRead_end now timer
    simp [step, hopen, hread, hne, hc']
  · obtain ⟨c', closed, hc', -⟩ := h.handleRead hread now timer hne hfit
    simp [step, hopen, hread, hc']

/-- **An answer, however it is cut.** Whatever the sizes of the reads and the pauses between them,
the status, the announced length, the count and the checksum are those of the bytes that came; the
connection is closed by a read exactly when one got nothing or, a byte of the body among it, all
that was announced has come. Until then `handle_read` returns from every read that fits its buffer,
and, while memory lasts for the timer, a pause can end. -/
theorem answer_read {cfg : Config} {c : Connection} (hc : Fresh c) {acts : List Act} {s : Session}
    (hrun : Runs.run (step cfg) ⟨c, false⟩ acts = some s) :
    Counts cfg s.conn (received acts) ∧
      (s.closed = true ↔ acts.any Act.isEnd = true ∨ Reached (received acts)) ∧
      (s.closed = false →
        (s.conn.connState = .headers ↔ headLength (received acts) = none) ∧
        (s.conn.connState ≠ .pausing →
          ∀ now timer bytes, bytes.length ≤ bufSize →
            (step cfg s (.read now timer bytes)).isSome) ∧
        (s.conn.connState = .pausing → (step cfg s .wakeup).isSome)) := by
  have hsound := run_counts hc hrun
  refine ⟨hsound.1, hsound.closed_iff, fun hopen => ?_⟩
  obtain ⟨-, ⟨-, -, ho⟩ | ⟨hclosed, -⟩⟩ := hsound
  · refine ⟨ho.headers_iff, fun hp now timer bytes hfit => ?_, fun hp => ?_⟩
    · exact ho.read_isSome hopen hp now timer hfit
    · simp [step, hopen, ho.wakeable hp]
  · rw [hclosed] at hopen
    cases hopen

/-- A connection to which the request was just sent. -/
def freshConn : Connection :=
  { urlNum := 0, connState := .headers, headerState := .line1Protocol, didConnect := true
    didResponse := false, startedAt := 0, connectAt := 0, requestAt := 0, responseAt := 0
    idleTimer := some 0, wakeupTimer := none, contentLength := -1, bytes := 0, checksum := 0
    httpStatus := -1 }

/-- Five bytes are announced; the header comes in two reads and the body in two more, with a pause
between them. -/
def pausedReads : List Act :=
  [.read 1 7 (lit ['H', ' ', '2', '0']),
    .read 2 7 (lit ['0', '\r', '\n', 'C', 'o', 'n', 't', 'e', 'n', 't', '-', 'L', 'e', 'n', 'g',
      't', 'h', ':', ' ', '5', '\r', '\n', '\r', '\n', 'a']),
    .wakeup, .read 9 7 (lit ['b', 'c', 'd', 'e'])]

def throttled : Config := ⟨true, true, fun _ n => n = 1⟩

lemma freshConn_fresh : Fresh freshConn := ⟨rfl, rfl, rfl, rfl, rfl, rfl, rfl⟩

theorem answer_read_pausedReads :
    ∃ s, Runs.run (step throttled) ⟨freshConn, false⟩ pausedReads = some s ∧
      s.conn.httpStatus = 200 ∧ s.conn.contentLength = 5 ∧ s.conn.bytes = 5 ∧ s.closed = true ∧
      Counts throttled s.conn (received pausedReads) := by
  obtain ⟨s, hs⟩ : ∃ s, Runs.run (step throttled) ⟨freshConn, false⟩ pausedReads = some s :=
    Option.isSome_iff_exists.mp (by decide +kernel)
  have hall : (Runs.run (step throttled) ⟨freshConn, false⟩ pausedReads).map (fun s =>
      (s.conn.httpStatus, s.conn.contentLength, s.conn.bytes, s.closed)) =
        some (200, 5, 5, true) := by decide +kernel
  rw [hs] at hall
  simp only [Option.map_some, Option.some.injEq, Prod.mk.injEq] at hall
  obtain ⟨hst, hlen, hbytes, hclosed⟩ := hall
  exact ⟨s, hs, hst, hlen, hbytes, hclosed, (answer_read freshConn_fresh hs).1⟩

end WeatherQuery.LoadRead
