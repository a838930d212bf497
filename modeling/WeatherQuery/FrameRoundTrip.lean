import WeatherQuery.FrameModel

/-!
Messages come out as they went in.

When calls are interrupted or move only some of the bytes, the loops of `readn` and `writen` go
on until all are moved. So what `Server_send` writes for a message, `Server_rev` takes off the
stream again, no more and no less, and the messages after it stay in step.
-/

namespace WeatherQuery.FrameRoundTrip

open WeatherQuery.CText WeatherQuery.FrameModel

/-! ### Numbers -/

lemma asInt_of_range {z : ℤ} (hlo : -2 ^ 31 ≤ z) (hhi : z < 2 ^ 31) : asInt z = z := by
  rw [asInt, Int.bmod_def]
  omega

lemma asSize_natCast {n : ℕ} (h : n < 2 ^ 64) : asSize n = n := by
  rw [asSize]
  omega

lemma length_htonl (n : ℤ) : (htonl n).length = 4 := rfl

lemma toNat_byte (z : ℤ) : ((z % 256).toNat.toUInt8.toNat : ℤ) = z % 256 := by
  have hlt : (z % 256).toNat < 256 := by omega
  have hbyte : (z % 256).toNat.toUInt8.toNat = (z % 256).toNat := UInt8.toNat_ofNat_of_lt hlt
  rw [hbyte]
  omega

/-- The header of a message holds its length. -/
lemma ntohl_htonl {n : ℤ} (h0 : 0 ≤ n) (h : n < 2 ^ 31) : ntohl (htonl n) = n := by
  have hval : (htonl n).foldl (fun (n : ℤ) b => n * 256 + b.toNat) 0 = n := by
    simp only [htonl, List.foldl_cons, List.foldl_nil, toNat_byte]
    omega
  rw [ntohl, hval]
  exact asInt_of_range (by omega) h

/-! ### Calls that go well in the end -/

/-- `select` is interrupted or finds the descriptor ready. -/
def Calm (ss : List Sel) : Prop := ∀ s ∈ ss, s = .ready ∨ s = .failed eintr

/-- A `read` or `write` is interrupted or moves some bytes. -/
def Moves (xs : List Xfer) : Prop := ∀ e, .failed e ∈ xs → e = eintr

/-- No call on the connection times out or fails for good. -/
structure Smooth (c : Conn) : Prop where
  selects : Calm c.selects
  reads : Moves c.reads
  writes : Moves c.writes

lemma Calm.tail {s : Sel} {ss : List Sel} (h : Calm (s :: ss)) : Calm ss :=
  fun t ht => h t (List.mem_cons_of_mem s ht)

lemma Moves.tail {x : Xfer} {xs : List Xfer} (h : Moves (x :: xs)) : Moves xs :=
  fun e he => h e (List.mem_cons_of_mem x he)

lemma selectRetry_calm {ss : List Sel} (h : Calm ss) (errno : ℕ) :
    ∃ ss' errno', selectRetry ss errno = (1, ss', errno') ∧ Calm ss' := by
  induction ss generalizing errno with
  | nil => exact ⟨[], errno, rfl, h⟩
  | cons s ss ih =>
    rcases h s (by simp) with rfl | rfl
    · exact ⟨ss, errno, rfl, h.tail⟩
    · obtain ⟨ss', errno', hrun, hcalm⟩ := ih h.tail eintr
      exact ⟨ss', errno', by simpa [selectRetry] using hrun, hcalm⟩

lemma waitReady_calm {c : Conn} (h : Calm c.selects) (seconds : ℕ) :
    ∃ ss errno, waitReady c seconds = (0, { c with selects := ss, errno := errno }) ∧
      Calm ss := by
  unfold waitReady
  split_ifs with h0
  · exact ⟨c.selects, c.errno, rfl, h⟩
  · obtain ⟨ss, errno, hrun, hcalm⟩ := selectRetry_calm h c.errno
    rw [hrun]
    exact ⟨ss, errno, rfl, hcalm⟩

/-- **The loop of `writen`** writes everything. -/
theorem writeLoop_moves {ws : List Xfer} (h : Moves ws) (buf : Bytes) (errno : ℕ) :
    ∃ ws' errno', writeLoop ws buf errno = ⟨some 0, buf, ws', errno'⟩ ∧ Moves ws' := by
  induction ws generalizing buf errno with
  | nil =>
    rcases buf with _ | ⟨b, buf⟩
    · exact ⟨[], errno, rfl, h⟩
    · exact ⟨[], errno, rfl, h⟩
  | cons x ws ih =>
    rcases buf with _ | ⟨b, buf⟩
    · exact ⟨x :: ws, errno, rfl, h⟩
    · cases x with
      | failed e =>
        obtain rfl : e = eintr := h e (by simp)
        obtain ⟨ws', errno', hrun, hmoves⟩ := ih h.tail (b :: buf) eintr
        exact ⟨ws', errno', by rw [writeLoop, if_pos rfl, hrun]; simp, hmoves⟩
      | upTo k =>
        obtain ⟨ws', errno', hrun, hmoves⟩ :=
          ih h.tail ((b :: buf).drop (min k (b :: buf).length)) errno
        refine ⟨ws', errno', ?_, hmoves⟩
        rw [writeLoop, hrun]
        · simp only [List.take_append_drop]
        · simp

/-- **The loop of `readn`** reads as much as it is asked for, or all there is. -/
theorem readLoop_moves {rs : List Xfer} (h : Moves rs) (nleft : ℕ) (inp : Bytes)
    (hmax : nleft ≤ ssizeMax) (errno : ℕ) :
    ∃ rs' errno', readLoop rs nleft inp errno =
        ⟨some (nleft - inp.length), inp.take nleft, rs', errno'⟩ ∧ Moves rs' := by
  induction rs generalizing nleft inp errno with
  | nil =>
    rcases nleft with _ | nleft
    · exact ⟨[], errno, by simp [readLoop], h⟩
    · refine ⟨[], errno, ?_, h⟩
      rw [readLoop, if_neg (by omega)]
      simp
  | cons x rs ih =>
    rcases nleft with _ | nleft
    · exact ⟨x :: rs, errno, by simp [readLoop], h⟩
    · cases x with
      | failed e =>
        obtain rfl : e = eintr := h e (by simp)
        obtain ⟨rs', errno', hrun, hmoves⟩ := ih h.tail (nleft + 1) inp hmax eintr
        exact ⟨rs', errno', by rw [readLoop, if_pos rfl, hrun]; simp, hmoves⟩
      | upTo k =>
        by_cases hne : inp = []
        · refine ⟨rs, errno, ?_, h.tail⟩
          rw [readLoop, if_neg (by omega), if_pos hne, hne]
          · simp
          · simp
        · set n := min (k + 1) (min (nleft + 1) inp.length) with hn
          obtain ⟨rs', errno', hrun, hmoves⟩ :=
            ih h.tail (nleft + 1 - n) (inp.drop n) (by omega) errno
          refine ⟨rs', errno', ?_, hmoves⟩
          rw [readLoop, if_neg (by omega), if_neg hne]
          simp only [← hn, hrun, Ended.mk.injEq, and_true, List.length_drop, Option.some.injEq]
          have hsum : n + (nleft + 1 - n) = nleft + 1 := by omega
          refine ⟨by omega, ?_⟩
          rw [← List.take_add, hsum]
          simp

lemma writen_smooth {c : Conn} (h : Smooth c) (buf : Bytes) :
    ∃ c', writen c buf buf.length = ((buf.length : ℤ), c') ∧ Smooth c' ∧
      c'.out = c.out ++ buf := by
  obtain ⟨ws, errno, hrun, hmoves⟩ := writeLoop_moves h.writes buf c.errno
  refine ⟨{ c with out := c.out ++ buf, writes := ws, errno := errno }, ?_,
    ⟨h.selects, h.reads, hmoves⟩, rfl⟩
  rw [writen, List.take_length, hrun]

lemma readn_moves {c : Conn} (h : Moves c.reads) (count : ℕ) (hmax : count ≤ ssizeMax) :
    ∃ rs errno, readn c count = (((min count c.inp.length : ℕ) : ℤ), c.inp.take count,
        { c with inp := c.inp.drop count, reads := rs, errno := errno }) ∧ Moves rs := by
  obtain ⟨rs, errno, hrun, hmoves⟩ := readLoop_moves h count c.inp hmax c.errno
  refine ⟨rs, errno, ?_, hmoves⟩
  have hdrop : c.inp.drop (c.inp.take count).length = c.inp.drop count := by
    rw [List.length_take, ← List.drop_eq_drop_min]
  have hcount : (count : ℤ) - (count - c.inp.length : ℕ) = (min count c.inp.length : ℕ) := by
    omega
  rw [readn, hrun]
  dsimp only
  rw [hdrop, hcount]

/-! ### One message -/

/-- What a message is on the stream. -/
def frame (data : Bytes) : Bytes := htonl data.length ++ data

lemma length_frame (data : Bytes) : (frame data).length = data.length + 4 := by
  rw [frame, List.length_append, length_htonl, Nat.add_comm]

lemma serverSend_smooth {c : Conn} (h : Smooth c) {data : Bytes} (hd : data.length ≤ 2 ^ 31 - 5)
    (timeout : ℤ) :
    ∃ c', serverSend c data timeout true = (0, c') ∧ Smooth c' ∧ c'.out = c.out ++ frame data := by
  obtain ⟨ss, errno, hwait, hcalm⟩ := waitReady_calm h.selects (timeout % 2 ^ 32).toNat
  have hw : Smooth { c with selects := ss, errno := errno } := ⟨hcalm, h.reads, h.writes⟩
  obtain ⟨c', hrun, hc', hout⟩ := writen_smooth hw (frame data)
  rw [length_frame] at hrun
  have htotal : asInt (data.length + 4) = data.length + 4 := asInt_of_range (by omega) (by omega)
  have hsize : asSize (data.length + 4 : ℤ) = data.length + 4 :=
    asSize_natCast (n := data.length + 4) (by omega)
  refine ⟨c', ?_, hc', hout⟩
  have hframe : htonl data.length ++ data = frame data := rfl
  have hcast : ((data.length + 4 : ℕ) : ℤ) = data.length + 4 := by omega
  unfold serverSend writeTimeout
  rw [hwait]
  dsimp only
  rw [if_pos rfl, if_pos rfl, htotal, hsize, hframe, hrun, hcast, htotal, if_neg (lt_irrefl _)]

lemma receiveBody_moves {c : Conn} (h : Moves c.reads) {data rest : Bytes}
    (hd : data.length < 2 ^ 31) (hinp : c.inp = data ++ rest) (room : Bytes) (outlen : ℤ) :
    ∃ rs errno, receiveBody c data.length room outlen =
        ⟨0, some (data ++ room.drop data.length), some (data.length : ℤ),
          { c with inp := rest, reads := rs, errno := errno }⟩ ∧ Moves rs := by
  have hmax : data.length ≤ ssizeMax := by
    unfold ssizeMax
    omega
  obtain ⟨rs, errno, hrun, hmoves⟩ := readn_moves h data.length hmax
  have hlen : min data.length (data ++ rest).length = data.length := by
    rw [List.length_append]
    omega
  rw [hinp, List.take_left, List.drop_left, hlen] at hrun
  refine ⟨rs, errno, ?_, hmoves⟩
  have hsize : asSize data.length = data.length := asSize_natCast (by omega)
  have hint : asInt data.length = data.length := asInt_of_range (by omega) (by omega)
  unfold receiveBody
  dsimp only
  rw [hsize, hrun, hint, if_neg (by omega), if_neg (lt_irrefl _)]

/-- The header is read, and what is behind it is next. -/
lemma receiveFrame_head {c : Conn} (h : Moves c.reads) {head tail : Bytes} (hhead : head.length = 4)
    (hinp : c.inp = head ++ tail) (room : Bytes) (outlen : ℤ) :
    ∃ rs errno, receiveFrame c room outlen =
        receiveBody { c with inp := tail, reads := rs, errno := errno } (ntohl head) room outlen ∧
      Moves rs := by
  obtain ⟨rs, errno, hrun, hmoves⟩ := readn_moves h 4 (by decide)
  have hlen : min 4 (head ++ tail).length = 4 := by
    rw [List.length_append]
    omega
  rw [hinp, List.take_left' hhead, List.drop_left' hhead, hlen] at hrun
  refine ⟨rs, errno, ?_, hmoves⟩
  have h4 : asInt (4 : ℕ) = 4 := by decide
  unfold receiveFrame
  rw [hrun]
  dsimp only
  rw [h4, if_neg (by decide), if_neg (by decide)]

lemma serverRev_calm {c : Conn} (h : Calm c.selects) (room : Bytes) (outlen timeout : ℤ) :
    ∃ ss errno, serverRev c (some room) (some outlen) timeout =
        receiveFrame { c with selects := ss, errno := errno } room outlen ∧ Calm ss := by
  obtain ⟨ss, errno, hwait, hcalm⟩ := waitReady_calm h (timeout % 2 ^ 32).toNat
  refine ⟨ss, errno, ?_, hcalm⟩
  unfold serverRev readTimeout
  rw [hwait]
  dsimp only
  rw [if_neg (not_not.mpr rfl)]

lemma serverRev_moves {c : Conn} (hs : Calm c.selects) (h : Moves c.reads) {data rest : Bytes}
    (hd : data.length < 2 ^ 31) (hinp : c.inp = frame data ++ rest) (room : Bytes)
    (outlen timeout : ℤ) :
    ∃ ss rs errno, serverRev c (some room) (some outlen) timeout =
        ⟨0, some (data ++ room.drop data.length), some (data.length : ℤ),
          { c with inp := rest, selects := ss, reads := rs, errno := errno }⟩ ∧
      Calm ss ∧ Moves rs := by
  obtain ⟨ss, errno, hrev, hcalm⟩ := serverRev_calm hs room outlen timeout
  rw [frame, List.append_assoc] at hinp
  obtain ⟨rs, errno, hframe, hmoves⟩ :=
    receiveFrame_head (c := { c with selects := ss, errno := errno }) h (length_htonl _) hinp room
      outlen
  rw [ntohl_htonl (by omega) (by omega)] at hframe
  obtain ⟨rs, errno, hbody, hmoves⟩ :=
    receiveBody_moves
      (c := { c with inp := data ++ rest, selects := ss, reads := rs, errno := errno }) hmoves hd
      rfl room outlen
  exact ⟨ss, rs, errno, by rw [hrev, hframe, hbody], hcalm, hmoves⟩

/-! ### A list of messages -/

/-- A message, the buffer and the length it is received into, and the time-outs of both calls. -/
structure Transfer where
  data : Bytes
  room : Bytes
  outlen : ℤ
  sendTimeout : ℤ
  revTimeout : ℤ
  sized : data.length ≤ 2 ^ 31 - 5
  fits : data.length ≤ room.length

/-- The calls of `Server_send`, one after the other, and their results. -/
def sendAll : Conn → List Transfer → List ℤ × Conn
  | c, [] => ([], c)
  | c, m :: ms =>
    let r := serverSend c m.data m.sendTimeout true
    ((r.1 :: (sendAll r.2 ms).1), (sendAll r.2 ms).2)

/-- As many calls of `Server_rev`: the result of each, the length it gives and as many bytes of
its buffer. -/
def revAll : Conn → List Transfer → List (ℤ × Option ℤ × Option Bytes) × Conn
  | c, [] => ([], c)
  | c, m :: ms =>
    let r := serverRev c (some m.room) (some m.outlen) m.revTimeout
    ((r.ret, r.outlen, r.out.map (·.take (r.outlen.getD 0).toNat)) :: (revAll r.conn ms).1,
      (revAll r.conn ms).2)

lemma sendAll_smooth {c : Conn} (h : Smooth c) (ms : List Transfer) :
    (sendAll c ms).1 = ms.map (fun _ => 0) ∧
      (sendAll c ms).2.out = c.out ++ ms.flatMap fun m => frame m.data := by
  induction ms generalizing c with
  | nil => simp [sendAll]
  | cons m ms ih =>
    obtain ⟨c', hsend, hc', hout⟩ := serverSend_smooth h m.sized m.sendTimeout
    obtain ⟨hret, hrest⟩ := ih hc'
    rw [sendAll, hsend]
    exact ⟨by rw [hret]; rfl, by rw [hrest, hout]; simp⟩

lemma revAll_smooth {c : Conn} (h : Smooth c) (ms : List Transfer)
    (hinp : c.inp = ms.flatMap fun m => frame m.data) :
    (revAll c ms).1 = ms.map (fun m => (0, some (m.data.length : ℤ), some m.data)) ∧
      (revAll c ms).2.inp = [] := by
  induction ms generalizing c with
  | nil => exact ⟨rfl, hinp⟩
  | cons m ms ih =>
    rw [List.flatMap_cons] at hinp
    have hlt : m.data.length < 2 ^ 31 := by
      have := m.sized
      omega
    obtain ⟨ss, rs, errno, hrev, hcalm, hmoves⟩ :=
      serverRev_moves h.selects h.reads hlt hinp m.room m.outlen m.revTimeout
    obtain ⟨hall, hempty⟩ := ih (c := { c with
      inp := ms.flatMap fun m => frame m.data, selects := ss, reads := rs, errno := errno })
      ⟨hcalm, hmoves, h.writes⟩ rfl
    rw [revAll, hrev]
    refine ⟨?_, hempty⟩
    rw [hall]
    simp

/-- **The round trip.** Messages sent one after the other are received one after the other, as
they are and with their lengths, every call returns 0 and nothing is left on the stream, however
the transfers are split and interrupted. -/
theorem framing_round_trip (sender receiver : Conn) (hs : Smooth sender) (hr : Smooth receiver)
    (ms : List Transfer) (hout : sender.out = [])
    (hinp : receiver.inp = (sendAll sender ms).2.out) :
    (sendAll sender ms).1 = ms.map (fun _ => 0) ∧
      (revAll receiver ms).1 = ms.map (fun m => (0, some (m.data.length : ℤ), some m.data)) ∧
      (revAll receiver ms).2.inp = [] := by
  obtain ⟨hret, hstream⟩ := sendAll_smooth hs ms
  rw [hstream, hout, List.nil_append] at hinp
  exact ⟨hret, revAll_smooth hr ms hinp⟩

/-- The message `hi`, and an empty one. -/
def twoMessages : List Transfer :=
  [⟨lit ['h', 'i'], [0, 0, 0], 7, 5, 0, by decide, by decide⟩,
    ⟨[], [9], 7, 0, 5, by decide, by decide⟩]

/-- A sender whose calls are interrupted and move little. -/
def slowSender : Conn where
  inp := []
  out := []
  selects := [.failed eintr, .ready]
  reads := []
  writes := [.upTo 0, .upTo 3, .failed eintr, .upTo 1]
  errno := 0

/-- A receiver of the two messages, byte by byte at first. -/
def slowReceiver : Conn where
  inp := [0, 0, 0, 2, 104, 105, 0, 0, 0, 0]
  out := []
  selects := [.failed eintr]
  reads := [.upTo 0, .failed eintr, .upTo 0, .upTo 5]
  writes := []
  errno := 0

theorem framing_round_trip_twoMessages :
    (sendAll slowSender twoMessages).1 = [0, 0] ∧
      (revAll slowReceiver twoMessages).1 =
        [(0, some 2, some (lit ['h', 'i'])), (0, some 0, some [])] ∧
      (revAll slowReceiver twoMessages).2.inp = [] := by
  have hs : Smooth slowSender := by
    refine ⟨?_, ?_, ?_⟩ <;> simp [Calm, Moves, slowSender]
  have hr : Smooth slowReceiver := by
    refine ⟨?_, ?_, ?_⟩ <;> simp [Calm, Moves, slowReceiver]
  exact framing_round_trip slowSender slowReceiver hs hr twoMessages rfl (by decide)

end WeatherQuery.FrameRoundTrip
