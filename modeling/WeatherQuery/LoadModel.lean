import WeatherQuery.CText

/-!
A connection of `http_load`, the load generator the server is measured with.

`handle_read` parses the answer of a server as it comes in: a state machine reads the header a
byte at a time and looks for the status and for `Content-Length`, and what is behind the header is
counted and summed up. Times are in microseconds. Two things are taken for granted here:
`tmr_create` gives a timer, as it does while memory lasts, and the count of bytes does not overflow.
-/

namespace WeatherQuery.LoadModel

open WeatherQuery.CText

/-- `conn_state`, the constants `CNST_`. -/
inductive ConnState
  | free | connecting | headers | reading | pausing
  deriving DecidableEq, Repr

/-- `header_state`, the constants `HDST_`. -/
inductive HeaderState
  | line1Protocol | line1Whitespace | line1Status
  | bol | text | lf | cr | crlf | crlfcr
  | c | co | con | cont | conte | conten | content | content_ | contentL | contentLe | contentLen
  | contentLeng | contentLengt | contentLength | contentLengthColon
  | contentLengthColonWhitespace | contentLengthColonWhitespaceNum
  deriving DecidableEq, Repr

/-- A `connection`, without the address and the descriptor of its socket. A timer is the number
`tmr_create` gave it, `none` for the pointer zero. -/
structure Connection where
  urlNum : ℕ
  connState : ConnState
  headerState : HeaderState
  didConnect : Bool
  didResponse : Bool
  startedAt : ℤ
  connectAt : ℤ
  requestAt : ℤ
  responseAt : ℤ
  idleTimer : Option ℕ
  wakeupTimer : Option ℕ
  contentLength : ℤ
  bytes : ℕ
  checksum : ℤ
  httpStatus : ℤ
  deriving DecidableEq, Repr

/-- The options `handle_read` looks at. `tooFast` is the test of the throttle, on the time since the
connection was started and the bytes so far; the program makes it with floats. -/
structure Config where
  doThrottle : Bool
  doChecksum : Bool
  tooFast : ℤ → ℕ → Bool

/-! ### The header -/

/-- The cases of an ordinary byte of a line: the line ends, or goes on as text. -/
def inLine (s : Connection) (b : UInt8) : Connection :=
  if b = '\n'.toUInt8 then { s with headerState := .lf }
  else if b = '\r'.toUInt8 then { s with headerState := .cr }
  else { s with headerState := .text }

/-- A state that waits for one of a few bytes. -/
def waitFor (keys : List Char) (next : HeaderState) (s : Connection) (b : UInt8) : Connection :=
  if b ∈ lit keys then { s with headerState := next } else inLine s b

/-- The cases of the first byte behind a line end; `none` is the end of the header. -/
def lineStart (onLf onCr : Option HeaderState) (s : Connection) (b : UInt8) : Connection :=
  let goTo (next : Option HeaderState) : Connection :=
    match next with
    | none => { s with connState := .reading }
    | some next => { s with headerState := next }
  if b = '\n'.toUInt8 then goTo onLf
  else if b = '\r'.toUInt8 then goTo onCr
  else if b = 'C'.toUInt8 ∨ b = 'c'.toUInt8 then goTo (some .c)
  else goTo (some .text)

def isBlank (b : UInt8) : Bool := b = ' '.toUInt8 || b = '\t'.toUInt8

def isDigit (b : UInt8) : Bool := '0'.toUInt8 ≤ b && b ≤ '9'.toUInt8

/-- `v * 10 + b - '0'`, in an integer of `w` bits. -/
def addDigit (w : ℕ) (v : ℤ) (b : UInt8) : ℤ := (v * 10 + promote b - 48).bmod (2 ^ w)

/-- The inner `switch`, on one byte of the header. -/
def headerByte (s : Connection) (b : UInt8) : Connection :=
  match s.headerState with
  | .line1Protocol =>
    if isBlank b then { s with headerState := .line1Whitespace }
    else if b = '\n'.toUInt8 then { s with headerState := .lf }
    else if b = '\r'.toUInt8 then { s with headerState := .cr }
    else s
  | .line1Whitespace =>
    if isBlank b then s
    else if isDigit b then { s with httpStatus := addDigit 32 0 b, headerState := .line1Status }
    else inLine s b
  | .line1Status =>
    if isDigit b then { s with httpStatus := addDigit 32 s.httpStatus b } else inLine s b
  | .bol => waitFor ['C', 'c'] .c s b
  | .text => inLine s b
  | .lf => lineStart none (some .cr) s b
  | .cr => lineStart (some .crlf) none s b
  | .crlf => lineStart none (some .crlfcr) s b
  | .crlfcr => lineStart none none s b
  | .c => waitFor ['O', 'o'] .co s b
  | .co => waitFor ['N', 'n'] .con s b
  | .con => waitFor ['T', 't'] .cont s b
  | .cont => waitFor ['E', 'e'] .conte s b
  | .conte => waitFor ['N', 'n'] .conten s b
  | .conten => waitFor ['T', 't'] .content s b
  | .content => waitFor ['-'] .content_ s b
  | .content_ => waitFor ['L', 'l'] .contentL s b
  | .contentL => waitFor ['E', 'e'] .contentLe s b
  | .contentLe => waitFor ['N', 'n'] .contentLen s b
  | .contentLen => waitFor ['G', 'g'] .contentLeng s b
  | .contentLeng => waitFor ['T', 't'] .contentLengt s b
  | .contentLengt => waitFor ['H', 'h'] .contentLength s b
  | .contentLength => waitFor [':'] .contentLengthColon s b
  | .contentLengthColon => waitFor [' ', '\t'] .contentLengthColonWhitespace s b
  | .contentLengthColonWhitespace =>
    if isBlank b then s
    else if isDigit b then
      { s with
        contentLength := addDigit 64 0 b, headerState := .contentLengthColonWhitespaceNum }
    else inLine s b
  | .contentLengthColonWhitespaceNum =>
    if isDigit b then { s with contentLength := addDigit 64 s.contentLength b } else inLine s b

/-- The inner `for`: bytes of the header, as long as it lasts, and the bytes that are left. -/
def headerLoop (s : Connection) : Bytes → Connection × Bytes
  | [] => (s, [])
  | b :: rest => if s.connState = .headers then headerLoop (headerByte s b) rest else (s, b :: rest)

/-! ### The body -/

/-- One turn of the checksum: rotate to the right by one bit of sixteen, add the byte, cut off. -/
def sumByte (checksum : ℤ) (b : UInt8) : ℤ :=
  let turned := if checksum % 2 = 1 then checksum / 2 + 0x8000 else checksum / 2
  (turned + promote b) % 0x10000

/-- The case `CNST_READING` up to its test of the length, on what is left of a read. `timer` is
what `tmr_create` answers. -/
def readBody (cfg : Config) (now : ℤ) (timer : ℕ) (s : Connection) (rest : Bytes) : Connection :=
  let s := { s with bytes := s.bytes + rest.length }
  let s := if cfg.doThrottle && cfg.tooFast (now - s.startedAt) s.bytes then
      { s with connState := .pausing, wakeupTimer := some timer }
    else s
  if cfg.doChecksum then { s with checksum := rest.foldl sumByte s.checksum } else s

/-- The test at the end of the case `CNST_READING`. -/
def complete (s : Connection) : Bool := s.contentLength ≠ -1 && s.contentLength ≤ s.bytes

/-- The outer `for`, for at most `fuel` turns; true where it ends in `close_connection`. A state
other than the two has no case, and the loop goes round without getting on. -/
def readLoop (cfg : Config) (now : ℤ) (timer : ℕ) :
    ℕ → Connection → Bytes → Option (Connection × Bool)
  | _, s, [] => some (s, false)
  | 0, _, _ :: _ => none
  | fuel + 1, s, b :: rest =>
    match s.connState with
    | .headers =>
      let (s, left) := headerLoop s (b :: rest)
      readLoop cfg now timer fuel s left
    | .reading =>
      let s := readBody cfg now timer s (b :: rest)
      if complete s then some (s, true) else readLoop cfg now timer fuel s []
    | _ => readLoop cfg now timer fuel s (b :: rest)

/-- The size of `buf`. A throttle of more than twice as much makes `bytes_to_read` larger. -/
def bufSize : ℕ := 30000

/-- `handle_read` on the bytes that `read` gave, none where it gave none or failed. More than `buf`
holds were written past its end, after which nothing is defined. -/
def handleRead (cfg : Config) (now : ℤ) (timer : ℕ) (s : Connection) (bytesRead : Bytes) :
    Option (Connection × Bool) :=
  let s := if s.didResponse then s else { s with didResponse := true, responseAt := now }
  if bytesRead = [] then some (s, true)
  else if bufSize < bytesRead.length then none
  else readLoop cfg now timer 2 s bytesRead

/-- `wakeup_connection`. -/
def wakeupConnection (s : Connection) : Connection :=
  { s with wakeupTimer := none, connState := .reading }

end WeatherQuery.LoadModel
