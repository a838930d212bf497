import WeatherQuery.CText

/-!
Messages over a socket: `Server_send` and `Server_rev` of `commsocket.c`, with `readn`,
`writen` and the waits with a time-out.

What the calls of the kernel come to is given beforehand: whether `select` finds the descriptor
ready, and how many bytes each `read` and `write` moves or with which `errno` it fails. A `read`
moves at least one byte, a `write` may move none. When no more outcomes are given every call
succeeds and moves all it can.
-/

namespace WeatherQuery.FrameModel

open WeatherQuery.CText

/-! ### Numbers -/

def eintr : ℕ := 4
def einval : ℕ := 22
def etimedout : ℕ := 110

def sckErrParam : ℤ := 3001
def sckErrTimeOut : ℤ := 3002
def sckErrPeerClosed : ℤ := 3003
def sckErrMalloc : ℤ := 3004

/-- A value as an `int`. -/
def asInt (z : ℤ) : ℤ := z.bmod (2 ^ 32)

/-- A value as a `size_t`. -/
def asSize (z : ℤ) : ℕ := (z % 2 ^ 64).toNat

/-- `SSIZE_MAX`; a `read` of more fails. -/
def ssizeMax : ℕ := 2 ^ 63 - 1

/-- The bytes of `htonl(n)` in memory. -/
def htonl (n : ℤ) : Bytes :=
  [(n / 2 ^ 24 % 256).toNat.toUInt8, (n / 2 ^ 16 % 256).toNat.toUInt8,
    (n / 2 ^ 8 % 256).toNat.toUInt8, (n % 256).toNat.toUInt8]

/-- `ntohl` of bytes in memory, as an `int`. -/
def ntohl (bytes : Bytes) : ℤ := asInt (bytes.foldl (fun n b => n * 256 + b.toNat) 0)

/-! ### A connection -/

inductive Sel
  | ready
  | timedOut
  | failed (errno : ℕ)
  deriving DecidableEq

inductive Xfer
  /-- At most so many bytes, and one more when it is a `read`. -/
  | upTo (k : ℕ)
  | failed (errno : ℕ)
  deriving DecidableEq

structure Conn where
  /-- What is to be read before the end of the file. -/
  inp : Bytes
  /-- What has been written. -/
  out : Bytes
  selects : List Sel
  reads : List Xfer
  writes : List Xfer
  errno : ℕ
  deriving DecidableEq

/-! ### Waiting -/

/-- `select` again as long as it is interrupted: its result, the outcomes left and `errno`. -/
def selectRetry : List Sel → ℕ → ℤ × List Sel × ℕ
  | [], errno => (1, [], errno)
  | .ready :: ss, errno => (1, ss, errno)
  | .timedOut :: ss, errno => (0, ss, errno)
  | .failed e :: ss, _ => if e = eintr then selectRetry ss e else (-1, ss, e)

/-- The common body of `write_timeout` and `read_timeout`. -/
def waitReady (c : Conn) (waitSeconds : ℕ) : ℤ × Conn :=
  if waitSeconds = 0 then (0, c)
  else
    match selectRetry c.selects c.errno with
    | (ret, ss, errno) =>
      if ret = 0 then (-1, { c with selects := ss, errno := etimedout })
      else (if ret = 1 then 0 else ret, { c with selects := ss, errno := errno })

def writeTimeout (c : Conn) (waitSeconds : ℕ) : ℤ × Conn := waitReady c waitSeconds

def readTimeout (c : Conn) (waitSeconds : ℕ) : ℤ × Conn := waitReady c waitSeconds

/-! ### Moving bytes -/

/-- How a loop of `read` or `write` calls ends: with so many bytes not moved, or `none` when a
call failed; the bytes moved, the outcomes left and `errno`. -/
structure Ended where
  left : Option ℕ
  moved : Bytes
  script : List Xfer
  errno : ℕ

/-- The loop of `readn`, with `nleft` bytes to read of `inp`. -/
def readLoop : List Xfer → ℕ → Bytes → ℕ → Ended
  | rs, 0, _, errno => ⟨some 0, [], rs, errno⟩
  | [], nleft, inp, errno =>
    if ssizeMax < nleft then ⟨none, [], [], einval⟩
    else ⟨some (nleft - inp.length), inp.take nleft, [], errno⟩
  | .failed e :: rs, nleft, inp, _ =>
    if e = eintr then readLoop rs nleft inp e else ⟨none, [], rs, e⟩
  | .upTo k :: rs, nleft, inp, errno =>
    if ssizeMax < nleft then ⟨none, [], rs, einval⟩
    else if inp = [] then ⟨some nleft, [], rs, errno⟩
    else
      let n := min (k + 1) (min nleft inp.length)
      let r := readLoop rs (nleft - n) (inp.drop n) errno
      { r with moved := inp.take n ++ r.moved }

/-- The loop of `writen`, with `buf` to write. -/
def writeLoop : List Xfer → Bytes → ℕ → Ended
  | ws, [], errno => ⟨some 0, [], ws, errno⟩
  | [], buf, errno => ⟨some 0, buf, [], errno⟩
  | .failed e :: ws, buf, _ => if e = eintr then writeLoop ws buf e else ⟨none, [], ws, e⟩
  | .upTo k :: ws, buf, errno =>
    let n := min k buf.length
    let r := writeLoop ws (buf.drop n) errno
    { r with moved := buf.take n ++ r.moved }

/-- `readn`: its result, the bytes it stored and the connection. -/
def readn (c : Conn) (count : ℕ) : ℤ × Bytes × Conn :=
  let r := readLoop c.reads count c.inp c.errno
  (match r.left with
    | some nleft => (count : ℤ) - nleft
    | none => -1,
   r.moved, { c with inp := c.inp.drop r.moved.length, reads := r.script, errno := r.errno })

/-- `writen` of the first `count` bytes of a buffer. -/
def writen (c : Conn) (buf : Bytes) (count : ℕ) : ℤ × Conn :=
  let r := writeLoop c.writes (buf.take count) c.errno
  (match r.left with
    | some _ => (count : ℤ)
    | none => -1,
   { c with out := c.out ++ r.moved, writes := r.script, errno := r.errno })

/-! ### Messages -/

/-- `Server_send`, with the length of `data` as `datalen`. `alloc` is whether `malloc` gives the
buffer. -/
def serverSend (c : Conn) (data : Bytes) (timeout : ℤ) (alloc : Bool) : ℤ × Conn :=
  let w := writeTimeout c (timeout % 2 ^ 32).toNat
  if w.1 = 0 then
    if alloc then
      let total := asInt (data.length + 4)
      let r := writen w.2 (htonl data.length ++ data) (asSize total)
      if asInt r.1 < total then (asInt r.1, r.2) else (0, r.2)
    else (sckErrMalloc, w.2)
  else if w.1 = -1 ∧ w.2.errno = etimedout then (sckErrTimeOut, w.2)
  else w

/-- What `Server_rev` returns and leaves behind its two pointers, either of which may be NULL. -/
structure Received where
  ret : ℤ
  out : Option Bytes
  outlen : Option ℤ
  conn : Conn
  deriving DecidableEq

/-- `Server_rev` once the header is there. -/
def receiveBody (c : Conn) (n : ℤ) (out : Bytes) (outlen : ℤ) : Received :=
  let r := readn c (asSize n)
  let stored := r.2.1 ++ out.drop r.2.1.length
  if asInt r.1 = -1 then ⟨-1, some stored, some outlen, r.2.2⟩
  else if asInt r.1 < n then ⟨sckErrPeerClosed, some stored, some outlen, r.2.2⟩
  else ⟨0, some stored, some n, r.2.2⟩

/-- `Server_rev` once there is something to read. -/
def receiveFrame (c : Conn) (out : Bytes) (outlen : ℤ) : Received :=
  let r := readn c 4
  if asInt r.1 = -1 then ⟨-1, some out, some outlen, r.2.2⟩
  else if asInt r.1 < 4 then ⟨sckErrPeerClosed, some out, some outlen, r.2.2⟩
  else receiveBody r.2.2 (ntohl r.2.1) out outlen

def serverRev (c : Conn) (out : Option Bytes) (outlen : Option ℤ) (timeout : ℤ) : Received :=
  match out, outlen with
  | some o, some l =>
    let w := readTimeout c (timeout % 2 ^ 32).toNat
    if w.1 ≠ 0 then
      ⟨if w.1 = -1 ∨ w.2.errno = etimedout then sckErrTimeOut else w.1, out, outlen, w.2⟩
    else receiveFrame w.2 o l
  | _, _ => ⟨sckErrParam, out, outlen, c⟩

end WeatherQuery.FrameModel
