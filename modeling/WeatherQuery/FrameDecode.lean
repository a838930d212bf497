import WeatherQuery.FrameRoundTrip

/-!
Whatever comes in on the stream, `Server_rev` takes a message off it when there is a whole one,
and says so when there is not.

A header is four bytes of the client's choice. As an `int` it may be negative; then `readn` is
asked for more than `read` allows, and fails.
-/

namespace WeatherQuery.FrameDecode

open WeatherQuery.CText WeatherQuery.FrameModel WeatherQuery.FrameRoundTrip

/-! ### Headers -/

/-- The number of a header, before it becomes an `int`. -/
def value (head : Bytes) : ℤ := head.foldl (fun n b => n * 256 + b.toNat) 0

lemma value_four (a b c d : UInt8) :
    value [a, b, c, d] = ((a.toNat * 256 + b.toNat) * 256 + c.toNat) * 256 + d.toNat := by
  simp [value]

lemma toUInt8_of_byte {z : ℤ} {b : UInt8} (h : z % 256 = b.toNat) :
    (z % 256).toNat.toUInt8 = b := by
  rw [h, Int.toNat_natCast]
  exact UInt8.ofNat_toNat

lemma exists_four {head : Bytes} (h : head.length = 4) : ∃ a b c d, head = [a, b, c, d] := by
  rcases head with _ | ⟨a, _ | ⟨b, _ | ⟨c, _ | ⟨d, _ | ⟨e, head⟩⟩⟩⟩⟩ <;> simp at h
  exact ⟨a, b, c, d, rfl⟩

/-- Every four bytes are the header of their number. -/
lemma htonl_value {head : Bytes} (h : head.length = 4) : htonl (value head) = head := by
  obtain ⟨a, b, c, d, rfl⟩ := exists_four h
  have ha := a.toNat_lt
  have hb := b.toNat_lt
  have hc := c.toNat_lt
  have hd := d.toNat_lt
  rw [htonl, value_four, toUInt8_of_byte (b := a) (by omega), toUInt8_of_byte (b := b) (by omega),
    toUInt8_of_byte (b := c) (by omega), toUInt8_of_byte (b := d) (by omega)]

lemma value_range {head : Bytes} (h : head.length = 4) : 0 ≤ value head ∧ value head < 2 ^ 32 := by
  obtain ⟨a, b, c, d, rfl⟩ := exists_four h
  have ha := a.toNat_lt
  have hb := b.toNat_lt
  have hc := c.toNat_lt
  have hd := d.toNat_lt
  rw [value_four]
  omega

lemma ntohl_eq (head : Bytes) : ntohl head = asInt (value head) := rfl

lemma ntohl_small {head : Bytes} (h : head.length = 4) (hlt : value head < 2 ^ 31) :
    ntohl head = value head := by
  obtain ⟨hlo, -⟩ := value_range h
  rw [ntohl_eq]
  exact asInt_of_range (by omega) hlt

lemma ntohl_large {head : Bytes} (h : head.length = 4) (hge : 2 ^ 31 ≤ value head) :
    ntohl head = value head - 2 ^ 32 := by
  obtain ⟨-, hhi⟩ := value_range h
  rw [ntohl_eq, asInt, Int.bmod_def]
  omega

/-! ### No whole message -/

/-- The stream begins with a message and `rest` is behind it. -/
def Begins (inp data rest : Bytes) : Prop := data.length < 2 ^ 31 ∧ inp = frame data ++ rest

/-- What `Server_rev` leaves when it gives up. -/
def GivesUp (outlen : ℤ) (r : Received) : Prop := r.ret ≠ 0 ∧ r.outlen = some outlen

lemma givesUp {ret outlen : ℤ} (h : ret ≠ 0) (out : Option Bytes) (conn : Conn) :
    GivesUp outlen ⟨ret, out, some outlen, conn⟩ := ⟨h, rfl⟩

/-- Asked for more than `read` allows, the loop of `readn` fails. -/
lemma readLoop_large {rs : List Xfer} (h : Moves rs) {nleft : ℕ} (inp : Bytes)
    (hmax : ssizeMax < nleft) (errno : ℕ) :
    (readLoop rs nleft inp errno).left = none := by
  obtain ⟨nleft, rfl⟩ := Nat.exists_eq_succ_of_ne_zero (by omega : nleft ≠ 0)
  induction rs generalizing errno with
  | nil => rw [readLoop, if_pos hmax]; simp
  | cons x rs ih =>
    cases x with
    | failed e =>
      obtain rfl : e = eintr := h e (by simp)
      rw [readLoop, if_pos rfl]
      · exact ih h.tail eintr
      · simp
    | upTo k => rw [readLoop, if_pos hmax]; simp

lemma receiveBody_negative {c : Conn} (h : Moves c.reads) {n : ℤ} (hlo : -2 ^ 31 ≤ n) (hn : n < 0)
    (room : Bytes) (outlen : ℤ) : GivesUp outlen (receiveBody c n room outlen) := by
  have hsize : ssizeMax < asSize n := by
    rw [asSize, ssizeMax]
    omega
  have hret : (readn c (asSize n)).1 = -1 := by
    unfold readn
    dsimp only
    rw [readLoop_large h c.inp hsize]
  unfold receiveBody
  dsimp only
  rw [hret, if_pos (by decide)]
  exact givesUp (by decide) _ _

lemma receiveBody_short {c : Conn} (h : Moves c.reads) {n : ℕ} (hn : n < 2 ^ 31)
    (hlt : c.inp.length < n) (room : Bytes) (outlen : ℤ) :
    GivesUp outlen (receiveBody c n room outlen) := by
  have hmax : n ≤ ssizeMax := by
    unfold ssizeMax
    omega
  obtain ⟨rs, errno, hrun, -⟩ := readn_moves h n hmax
  have hsize : asSize n = n := asSize_natCast (by omega)
  have hint : asInt (min n c.inp.length : ℕ) = c.inp.length := by
    rw [Nat.min_eq_right hlt.le]
    exact asInt_of_range (by omega) (by omega)
  unfold receiveBody
  dsimp only
  rw [hsize, hrun, hint, if_neg (by omega), if_pos (by omega)]
  exact givesUp (by decide) _ _

lemma receiveFrame_short {c : Conn} (h : Moves c.reads) (hshort : c.inp.length < 4) (room : Bytes)
    (outlen : ℤ) : GivesUp outlen (receiveFrame c room outlen) := by
  obtain ⟨rs, errno, hrun, -⟩ := readn_moves h 4 (by decide)
  have hint : asInt (min 4 c.inp.length : ℕ) = c.inp.length := by
    rw [Nat.min_eq_right hshort.le]
    exact asInt_of_range (by omega) (by omega)
  unfold receiveFrame
  rw [hrun]
  dsimp only
  rw [hint, if_neg (by omega), if_pos (by omega)]
  exact givesUp (by decide) _ _

/-- As many bytes as a header says, behind it, make a message. -/
lemma begins_of_enough {head tail : Bytes} (h : head.length = 4) {n : ℕ} (hval : value head = n)
    (hn : n < 2 ^ 31) (henough : n ≤ tail.length) :
    Begins (head ++ tail) (tail.take n) (tail.drop n) := by
  have htake : (tail.take n).length = n := by
    rw [List.length_take]
    omega
  refine ⟨by omega, ?_⟩
  rw [frame, htake, ← hval, htonl_value h, List.append_assoc, List.take_append_drop]

/-- A stream that does not begin with a message: the header is cut off, it is negative, or there
are fewer bytes behind it than it says. -/
lemma receiveFrame_givesUp {c : Conn} (h : Moves c.reads)
    (hno : ∀ data rest, ¬ Begins c.inp data rest) (room : Bytes) (outlen : ℤ) :
    GivesUp outlen (receiveFrame c room outlen) := by
  rcases Nat.lt_or_ge c.inp.length 4 with hshort | hlong
  · exact receiveFrame_short h hshort room outlen
  have hlen : (c.inp.take 4).length = 4 := by
    rw [List.length_take]
    omega
  have hinp : c.inp = c.inp.take 4 ++ c.inp.drop 4 := (List.take_append_drop 4 c.inp).symm
  obtain ⟨rs, errno, hframe, hmoves⟩ := receiveFrame_head h hlen hinp room outlen
  obtain ⟨hlo, hhi⟩ := value_range hlen
  rw [hframe]
  rcases lt_or_ge (value (c.inp.take 4)) (2 ^ 31) with hlt | hge
  · obtain ⟨n, hval⟩ := Int.eq_ofNat_of_zero_le hlo
    have hn : n < 2 ^ 31 := by omega
    rw [ntohl_small hlen hlt, hval]
    refine receiveBody_short hmoves hn ?_ room outlen
    by_contra henough
    have hbegins := begins_of_enough hlen hval hn (Nat.le_of_not_lt henough)
    rw [← hinp] at hbegins
    exact hno _ _ hbegins
  · rw [ntohl_large hlen hge]
    exact receiveBody_negative hmoves (by omega) (by omega) room outlen

/-! ### Every stream -/

/-- **Decoding.** However the reads are split and interrupted, `Server_rev` returns 0 exactly when
the stream begins with a message of fewer than `2 ^ 31` bytes. Then it gives its length and its
bytes and takes it off the stream; else it leaves the length alone. -/
theorem serverRev_decodes (c : Conn) (room : Bytes) (outlen timeout : ℤ) (hs : Calm c.selects)
    (hr : Moves c.reads) (hroom : 2 ^ 31 - 1 ≤ room.length) :
    ((serverRev c (some room) (some outlen) timeout).ret = 0 ↔
      ∃ data rest, Begins c.inp data rest) ∧
    (∀ data rest, Begins c.inp data rest →
      (serverRev c (some room) (some outlen) timeout).outlen = some (data.length : ℤ) ∧
      (∃ out, (serverRev c (some room) (some outlen) timeout).out = some out ∧
        out.take data.length = data ∧ out.length = room.length) ∧
      (serverRev c (some room) (some outlen) timeout).conn.inp = rest) ∧
    ((∀ data rest, ¬ Begins c.inp data rest) →
      (serverRev c (some room) (some outlen) timeout).ret ≠ 0 ∧
      (serverRev c (some room) (some outlen) timeout).outlen = some outlen) := by
  have hno (h : ∀ data rest, ¬ Begins c.inp data rest) :
      GivesUp outlen (serverRev c (some room) (some outlen) timeout) := by
    obtain ⟨ss, errno, hrev, -⟩ := serverRev_calm hs room outlen timeout
    rw [hrev]
    exact receiveFrame_givesUp (c := { c with selects := ss, errno := errno }) hr h room outlen
  refine ⟨⟨fun h0 => ?_, ?_⟩, ?_, hno⟩
  · by_contra hnone
    exact (hno fun data rest hb => hnone ⟨data, rest, hb⟩).1 h0
  · rintro ⟨data, rest, hd, hinp⟩
    obtain ⟨ss, rs, errno, hrev, -⟩ := serverRev_moves hs hr hd hinp room outlen timeout
    rw [hrev]
  · rintro data rest ⟨hd, hinp⟩
    obtain ⟨ss, rs, errno, hrev, -⟩ := serverRev_moves hs hr hd hinp room outlen timeout
    rw [hrev]
    refine ⟨rfl, ⟨_, rfl, List.take_left, ?_⟩, rfl⟩
    rw [List.length_append, List.length_drop]
    omega

/-- The message `hi`, one byte by one, and a buffer of the largest length an `int` can hold. -/
theorem serverRev_decodes_hi :
    (serverRev { slowReceiver with inp := [0, 0, 0, 2, 104, 105, 7] }
        (some (List.replicate (2 ^ 31 - 1) 0)) (some 9) 0).ret = 0 := by
  have hs : Calm slowReceiver.selects := by simp [Calm, slowReceiver]
  have hr : Moves slowReceiver.reads := by simp [Moves, slowReceiver]
  have h := serverRev_decodes { slowReceiver with inp := [0, 0, 0, 2, 104, 105, 7] }
    (List.replicate (2 ^ 31 - 1) 0) 9 0 hs hr (by rw [List.length_replicate])
  exact h.1.mpr ⟨lit ['h', 'i'], [7], by decide, rfl⟩

end WeatherQuery.FrameDecode
