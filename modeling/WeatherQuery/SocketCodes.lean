import WeatherQuery.FrameModel

/-!
What the functions of `commsocket.c` return when a call fails: `Server_accept`, with
`accept_timeout`, and the time-outs of `Server_send` and `Server_rev`.

`Server_accept` hands out an `errno`, or the number of an error of its own, where a caller looks
for a descriptor. `Server_rev` takes every failure of `select` for a time-out.
-/

namespace WeatherQuery.SocketCodes

open WeatherQuery.CText WeatherQuery.FrameModel

/-! ### Accepting -/

/-- The end of `accept_timeout`: its result and `errno`. `accepted` is what `accept` comes to, a
descriptor or an `errno`. -/
def acceptNow (accepted : Except ℕ ℕ) (errno : ℕ) : ℤ × ℕ :=
  match accepted with
  | .ok fd => (fd, errno)
  | .error e => (e, e)

def acceptTimeout (selects : List Sel) (accepted : Except ℕ ℕ) (errno waitSeconds : ℕ) : ℤ × ℕ :=
  if waitSeconds = 0 then acceptNow accepted errno
  else
    match selectRetry selects errno with
    | (ret, _, errno) =>
      if ret = -1 then (-1, errno)
      else if ret = 0 then (-1, etimedout)
      else acceptNow accepted errno

def serverAccept (listenfd timeout : ℤ) (selects : List Sel) (accepted : Except ℕ ℕ)
    (errno : ℕ) : ℤ :=
  if listenfd < 0 ∨ timeout < 0 then -1
  else
    let r := acceptTimeout selects accepted errno (timeout % 2 ^ 32).toNat
    if r.1 < 0 then
      if r.1 = -1 ∧ r.2 = etimedout then sckErrTimeOut else r.2
    else r.1

/-! ### Waiting -/

/-- The outcome of `select` that counts: the first that is not an interruption. -/
def settled : List Sel → Sel
  | [] => .ready
  | .failed e :: ss => if e = eintr then settled ss else .failed e
  | s :: _ => s

/-- How a wait ends. Without one the descriptor is taken to be ready. -/
def waited (timeout : ℤ) (selects : List Sel) : Sel :=
  if timeout = 0 then .ready else settled selects

/-- What `select` returns and leaves in `errno`, after all interruptions. -/
lemma selectRetry_settled (selects : List Sel) (errno : ℕ) :
    ∃ ss errno', selectRetry selects errno =
      match settled selects with
      | .ready => (1, ss, errno')
      | .timedOut => (0, ss, errno')
      | .failed e => (-1, ss, e) := by
  induction selects generalizing errno with
  | nil => exact ⟨[], errno, rfl⟩
  | cons s selects ih =>
    cases s with
    | ready => exact ⟨selects, errno, rfl⟩
    | timedOut => exact ⟨selects, errno, rfl⟩
    | failed e =>
      rw [selectRetry, settled]
      split_ifs with he
      · exact ih e
      · exact ⟨selects, e, rfl⟩

section Wait

variable {timeout : ℤ} (h0 : 0 ≤ timeout) (hlt : timeout < 2 ^ 31)
include h0 hlt

lemma seconds_eq_zero_iff : (timeout % 2 ^ 32).toNat = 0 ↔ timeout = 0 := by
  omega

/-- `read_timeout` and `write_timeout`. -/
lemma waitReady_waited (c : Conn) :
    ∃ ss errno, waitReady c (timeout % 2 ^ 32).toNat =
      match waited timeout c.selects with
      | .ready => (0, { c with selects := ss, errno := errno })
      | .timedOut => (-1, { c with selects := ss, errno := etimedout })
      | .failed e => (-1, { c with selects := ss, errno := e }) := by
  have hzero := seconds_eq_zero_iff h0 hlt
  unfold waitReady waited
  by_cases hz : timeout = 0
  · refine ⟨c.selects, c.errno, ?_⟩
    rw [if_pos (hzero.mpr hz), if_pos hz]
  · obtain ⟨ss, errno, hrun⟩ := selectRetry_settled c.selects c.errno
    refine ⟨ss, errno, ?_⟩
    rw [if_neg (mt hzero.mp hz), if_neg hz, hrun]
    rcases settled c.selects with _ | _ | e <;> rfl

lemma acceptTimeout_waited (selects : List Sel) (accepted : Except ℕ ℕ) (errno : ℕ) :
    ∃ errno', acceptTimeout selects accepted errno (timeout % 2 ^ 32).toNat =
      match waited timeout selects with
      | .ready => acceptNow accepted errno'
      | .timedOut => (-1, etimedout)
      | .failed e => (-1, e) := by
  have hzero := seconds_eq_zero_iff h0 hlt
  unfold acceptTimeout waited
  by_cases hz : timeout = 0
  · refine ⟨errno, ?_⟩
    rw [if_pos (hzero.mpr hz), if_pos hz]
  · obtain ⟨ss, errno', hrun⟩ := selectRetry_settled selects errno
    refine ⟨errno', ?_⟩
    rw [if_neg (mt hzero.mp hz), if_neg hz, hrun]
    rcases settled selects with _ | _ | e <;> rfl

end Wait

/-! ### Descriptors -/

/-- A number that can be a descriptor comes back only when `accept` was called and gave it. -/
def AcceptFaithful (listenfd timeout : ℤ) (selects : List Sel) (accepted : Except ℕ ℕ)
    (errno : ℕ) : Prop :=
  ∀ fd : ℕ, serverAccept listenfd timeout selects accepted errno = fd →
    waited timeout selects = .ready ∧ accepted = .ok fd

section Accept

variable {listenfd timeout : ℤ} (h0 : 0 ≤ timeout) (hlt : timeout < 2 ^ 31)
include h0 hlt

lemma serverAccept_waited (hfd : 0 ≤ listenfd) (selects : List Sel) (accepted : Except ℕ ℕ)
    (errno : ℕ) :
    serverAccept listenfd timeout selects accepted errno =
      match waited timeout selects, accepted with
      | .ready, .ok fd => (fd : ℤ)
      | .ready, .error e => (e : ℤ)
      | .timedOut, _ => sckErrTimeOut
      | .failed e, _ => if e = etimedout then sckErrTimeOut else (e : ℤ) := by
  obtain ⟨errno', hrun⟩ := acceptTimeout_waited h0 hlt selects accepted errno
  unfold serverAccept
  rw [if_neg (by omega), hrun]
  rcases waited timeout selects with _ | _ | e
  · rcases accepted with e | fd
    · exact if_neg (by simp [acceptNow])
    · exact if_neg (by simp [acceptNow])
  · rfl
  · simp

/-- When `accept` fails or is not reached, something comes back that could be a descriptor. -/
lemma serverAccept_error (hfd : 0 ≤ listenfd) {selects : List Sel} {accepted : Except ℕ ℕ}
    (errno : ℕ) (h : ¬ (waited timeout selects = .ready ∧ ∃ fd, accepted = .ok fd)) :
    ∃ n : ℕ, serverAccept listenfd timeout selects accepted errno = n := by
  rw [serverAccept_waited h0 hlt hfd]
  rcases hw : waited timeout selects with _ | _ | e
  · rcases accepted with e | fd
    · exact ⟨e, rfl⟩
    · exact absurd ⟨hw, fd, rfl⟩ h
  · exact ⟨3002, rfl⟩
  · dsimp only
    split_ifs
    · exact ⟨3002, rfl⟩
    · exact ⟨e, rfl⟩

lemma acceptFaithful_iff (selects : List Sel) (accepted : Except ℕ ℕ) (errno : ℕ) :
    AcceptFaithful listenfd timeout selects accepted errno ↔
      listenfd < 0 ∨ waited timeout selects = .ready ∧ ∃ fd, accepted = .ok fd := by
  rcases lt_or_ge listenfd 0 with hfd | hfd
  · refine iff_of_true (fun fd hret => ?_) (.inl hfd)
    rw [serverAccept, if_pos (.inl hfd)] at hret
    omega
  · rw [or_iff_right (by omega)]
    constructor
    · intro hall
      by_contra hno
      obtain ⟨n, hn⟩ := serverAccept_error h0 hlt hfd errno hno
      obtain ⟨hw, hok⟩ := hall n hn
      exact hno ⟨hw, n, hok⟩
    · rintro ⟨hw, fd, rfl⟩ fd' hret
      rw [serverAccept_waited h0 hlt hfd, hw] at hret
      exact ⟨hw, by rw [Int.ofNat.inj hret]⟩

end Accept

/-! ### Time-outs -/

def SendFaithful (c : Conn) (data : Bytes) (timeout : ℤ) (alloc : Bool) : Prop :=
  (serverSend c data timeout alloc).1 = sckErrTimeOut ↔ waited timeout c.selects = .timedOut

/-- `Server_rev` waits only when it is given both pointers. -/
def RevFaithful (c : Conn) (out : Option Bytes) (outlen : Option ℤ) (timeout : ℤ) : Prop :=
  (serverRev c out outlen timeout).ret = sckErrTimeOut ↔
    out ≠ none ∧ outlen ≠ none ∧ waited timeout c.selects = .timedOut

/-- A count, given back as an `int`. -/
lemma asInt_asSize (z : ℤ) : asInt (asSize (asInt z)) = asInt z := by
  simp only [asInt, asSize, Int.bmod_def]
  omega

lemma writen_ret (c : Conn) (buf : Bytes) (count : ℕ) :
    (writen c buf count).1 = count ∨ (writen c buf count).1 = -1 := by
  unfold writen
  dsimp only
  split
  · exact .inl rfl
  · exact .inr rfl

/-- Once the descriptor is ready, `Server_send` returns 0, -1 or `Sck_ErrMalloc`. -/
lemma serverSend_ready {c : Conn} {timeout : ℤ}
    (h : (waitReady c (timeout % 2 ^ 32).toNat).1 = 0) (data : Bytes) (alloc : Bool) :
    (serverSend c data timeout alloc).1 ≠ sckErrTimeOut := by
  unfold serverSend writeTimeout
  dsimp only
  rw [if_pos h]
  split_ifs with ha hshort
  · rcases writen_ret (waitReady c (timeout % 2 ^ 32).toNat).2 (htonl data.length ++ data)
      (asSize (asInt (data.length + 4))) with hret | hret
    · rw [hret, asInt_asSize] at hshort
      exact absurd hshort (lt_irrefl _)
    · rw [hret]
      show asInt (-1) ≠ sckErrTimeOut
      decide
  · show (0 : ℤ) ≠ sckErrTimeOut
    decide
  · show sckErrMalloc ≠ sckErrTimeOut
    decide

lemma sendFaithful_iff {timeout : ℤ} (h0 : 0 ≤ timeout) (hlt : timeout < 2 ^ 31) (c : Conn)
    (data : Bytes) (alloc : Bool) :
    SendFaithful c data timeout alloc ↔ waited timeout c.selects ≠ .failed etimedout := by
  obtain ⟨ss, errno, hrun⟩ := waitReady_waited h0 hlt c
  unfold SendFaithful
  rcases hw : waited timeout c.selects with _ | _ | e
  · rw [hw] at hrun
    have hsend := serverSend_ready (by rw [hrun]) data alloc
    exact iff_of_true (iff_of_false hsend (by simp)) (by simp)
  · rw [hw] at hrun
    have hsend : (serverSend c data timeout alloc).1 = sckErrTimeOut := by
      unfold serverSend writeTimeout
      rw [hrun]
      rfl
    exact iff_of_true (iff_of_true hsend rfl) (by simp)
  · rw [hw] at hrun
    have hsend : (serverSend c data timeout alloc).1 = sckErrTimeOut ↔ e = etimedout := by
      unfold serverSend writeTimeout
      rw [hrun]
      dsimp only
      rw [if_neg (by decide)]
      split_ifs with he
      · exact iff_of_true rfl he.2
      · have hne : (-1 : ℤ) ≠ sckErrTimeOut := by decide
        exact iff_of_false hne fun heq => he ⟨rfl, heq⟩
    have hnot : Sel.failed e ≠ .timedOut := by simp
    rw [hsend, iff_false_right hnot, ne_eq, Sel.failed.injEq]

/-- Once the descriptor is ready, `Server_rev` returns 0, -1 or `Sck_ErrPeerClosed`. -/
lemma receiveBody_ret (c : Conn) (n : ℤ) (out : Bytes) (outlen : ℤ) :
    (receiveBody c n out outlen).ret ≠ sckErrTimeOut := by
  unfold receiveBody
  dsimp only
  split_ifs
  · show (-1 : ℤ) ≠ sckErrTimeOut
    decide
  · show sckErrPeerClosed ≠ sckErrTimeOut
    decide
  · show (0 : ℤ) ≠ sckErrTimeOut
    decide

lemma receiveFrame_ret (c : Conn) (out : Bytes) (outlen : ℤ) :
    (receiveFrame c out outlen).ret ≠ sckErrTimeOut := by
  unfold receiveFrame
  dsimp only
  split_ifs
  · show (-1 : ℤ) ≠ sckErrTimeOut
    decide
  · show sckErrPeerClosed ≠ sckErrTimeOut
    decide
  · exact receiveBody_ret _ _ _ _

lemma serverRev_ready {c : Conn} {timeout : ℤ} (h : (waitReady c (timeout % 2 ^ 32).toNat).1 = 0)
    (out : Bytes) (outlen : ℤ) :
    (serverRev c (some out) (some outlen) timeout).ret ≠ sckErrTimeOut := by
  unfold serverRev readTimeout
  dsimp only
  rw [if_neg (not_not.mpr h)]
  exact receiveFrame_ret _ _ _

lemma serverRev_stopped {c : Conn} {timeout : ℤ}
    (h : (waitReady c (timeout % 2 ^ 32).toNat).1 = -1) (out : Bytes) (outlen : ℤ) :
    (serverRev c (some out) (some outlen) timeout).ret = sckErrTimeOut := by
  unfold serverRev readTimeout
  dsimp only
  rw [if_pos (by omega), if_pos (.inl h)]

lemma revFaithful_iff {timeout : ℤ} (h0 : 0 ≤ timeout) (hlt : timeout < 2 ^ 31) (c : Conn)
    (out : Option Bytes) (outlen : Option ℤ) :
    RevFaithful c out outlen timeout ↔
      out = none ∨ outlen = none ∨ ∀ e, waited timeout c.selects ≠ .failed e := by
  have hparam : sckErrParam ≠ sckErrTimeOut := by decide
  unfold RevFaithful
  rcases out with _ | out
  · exact iff_of_true (iff_of_false hparam fun h => h.1 rfl) (.inl rfl)
  · rcases outlen with _ | outlen
    · exact iff_of_true (iff_of_false hparam fun h => h.2.1 rfl) (.inr (.inl rfl))
    · rw [or_iff_right (by simp), or_iff_right (by simp), and_iff_right (by simp),
        and_iff_right (by simp)]
      obtain ⟨ss, errno, hrun⟩ := waitReady_waited h0 hlt c
      rcases hw : waited timeout c.selects with _ | _ | e
      · rw [hw] at hrun
        have hrev := serverRev_ready (by rw [hrun]) out outlen
        exact iff_of_true (iff_of_false hrev (by simp)) (by simp)
      · rw [hw] at hrun
        have hrev := serverRev_stopped (by rw [hrun]) out outlen
        exact iff_of_true (iff_of_true hrev rfl) (by simp)
      · rw [hw] at hrun
        have hrev := serverRev_stopped (by rw [hrun]) out outlen
        exact iff_of_false (fun h => absurd (h.mp hrev) (by simp)) fun h => h e rfl

/-- **The codes.** `Server_accept` gives out only descriptors of `accept` exactly when it is not
asked for any, or nothing goes wrong; `Server_send` reports a time-out exactly when there was one,
unless `select` fails with `ETIMEDOUT` itself; and `Server_rev` unless `select` fails at all. -/
theorem codes_faithful_iff (timeout : ℤ) (h0 : 0 ≤ timeout) (hlt : timeout < 2 ^ 31) :
    (∀ listenfd selects accepted errno, AcceptFaithful listenfd timeout selects accepted errno ↔
      listenfd < 0 ∨ waited timeout selects = .ready ∧ ∃ fd, accepted = .ok fd) ∧
    (∀ c data alloc, SendFaithful c data timeout alloc ↔
      waited timeout c.selects ≠ .failed etimedout) ∧
    (∀ c out outlen, RevFaithful c out outlen timeout ↔
      out = none ∨ outlen = none ∨ ∀ e, waited timeout c.selects ≠ .failed e) :=
  ⟨fun _ => acceptFaithful_iff h0 hlt, sendFaithful_iff h0 hlt, revFaithful_iff h0 hlt⟩

/-- An interrupted wait, and then a connection. -/
theorem codes_faithful_interrupted :
    AcceptFaithful 3 5 [.failed eintr, .ready] (.ok 7) 0 :=
  ((codes_faithful_iff 5 (by decide) (by decide)).1 3 _ _ 0).mpr (.inr ⟨rfl, 7, rfl⟩)

/-- `accept` fails for want of a descriptor, with `EMFILE`, and gives 24 as it does for the
connection of number 24. A `select` on a closed descriptor fails, and it is a time-out. -/
theorem not_faithful_emfile :
    (serverAccept 3 0 [] (.error 24) 0 = serverAccept 3 0 [] (.ok 24) 0 ∧
      ¬ AcceptFaithful 3 0 [] (.error 24) 0) ∧
    ¬ RevFaithful ⟨[], [], [.failed 9], [], [], 0⟩ (some []) (some 0) 5 := by
  refine ⟨⟨by decide, fun h => ?_⟩, fun h => ?_⟩
  · have hret := h 24 (by decide)
    cases hret.2
  · have hwait : waited 5 [.failed 9] = .timedOut := (h.mp (by decide)).2.2
    exact absurd hwait (by decide)

end WeatherQuery.SocketCodes
