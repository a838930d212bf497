import WeatherQuery.CText
import WeatherQuery.Traced

/-!
One request: `accept_request` of `httpd.c` and what it calls, on a client socket that does not
block.

The client's bytes arrive in their own time: before every `recv` some of them do. `recv`
answers -1 while none is there and 0 once the peer has closed; the source never tells the two
apart, and both are `none` here. `send` and `sendfile` take as much as the socket lets them.
`get_line` returns 1 whatever happens, so the tests of its result are not here. It stores less
than `max_len` bytes; the other texts are built in buffers of a fixed size and are as long here
as they come out.
-/

namespace WeatherQuery.HttpModel

open WeatherQuery.CText WeatherQuery.Traced

/-- The client's end of a connection. -/
structure World where
  /-- Arrived and not read. -/
  avail : Bytes
  later : Bytes
  /-- How many bytes arrive before each `recv` to come; after the last, all of them. -/
  sched : List ℕ
  /-- How much the socket takes of each `send` to come, `none` when it fails; after the last,
  everything. -/
  takes : List (Option ℕ)
  /-- How many bytes have been read. -/
  pos : ℕ
  deriving DecidableEq

/-- The child of `exe_cgi` as it calls `execl`. `query` is the variable `QUERY_STRING`, `none`
where its `%s` was given an `int`. -/
structure Child where
  path : Bytes
  method : Bytes
  query : Option Bytes
  deriving DecidableEq

/-- What a request does, call by call, and the values it obtains on the way. -/
inductive Event
  | recv (peek : Bool) (got : Option UInt8)
  | send (asked : Bytes) (taken : Option ℕ)
  | close
  | stat (path : Bytes)
  | openFile (path : Bytes)
  | execl (child : Child)
  /-- A byte to the CGI's stdin. -/
  | write (c : UInt8)
  | scanned (method url : Bytes)
  | cut (url : Bytes) (queryString : Option Bytes)
  /-- The end of the header loop, after so many bytes. -/
  | headerEnd (pos : ℕ)
  | contentLength (n : ℤ)
  deriving DecidableEq

abbrev Io := Prog World Event

/-- What `stat` tells of a file. -/
structure Stat where
  isDir : Bool
  ixusr : Bool
  ixgrp : Bool
  ixoth : Bool
  size : ℕ

/-- The file system, the calls of `exe_cgi` that can fail, and what a CGI writes. -/
structure Host where
  stat : Bytes → Option Stat
  openFile : Bytes → Option Bytes
  pipeInput : Bool
  pipeOutput : Bool
  fork : Bool
  cgi : Child → Bytes → Bytes

/-! ### The socket -/

def World.arrive (w : World) : World :=
  match w.sched with
  | [] => { w with avail := w.avail ++ w.later, later := [] }
  | n :: ns =>
    { w with avail := w.avail ++ w.later.take n, later := w.later.drop n, sched := ns }

/-- `recv` of one byte, with `MSG_PEEK` or without. -/
def recv (peek : Bool) : Io (Option UInt8) := fun w =>
  match w.arrive.avail with
  | [] => ⟨some none, w.arrive, [.recv peek none]⟩
  | c :: r =>
    ⟨some (some c), if peek then w.arrive else { w.arrive with avail := r, pos := w.pos + 1 },
      [.recv peek (some c)]⟩

/-- `send`, and what `sendfile` does with the bytes it moves. -/
def send (asked : Bytes) : Io Unit := fun w =>
  match w.takes with
  | [] => ⟨some (), w, [.send asked (some asked.length)]⟩
  | n :: ns => ⟨some (), { w with takes := ns }, [.send asked (n.map (min asked.length))]⟩

/-- The most that one `sendfile` moves. -/
def sendfileMax : ℕ := 0x7ffff000

def sendfile (content : Bytes) (count : ℕ) : Io Unit :=
  send (content.take (min count sendfileMax))

/-! ### Lines -/

def cr : UInt8 := 13
def lf : UInt8 := 10

/-- The loop of `get_line` with `room` bytes left. -/
def fillLine : ℕ → Io Bytes
  | 0 => pure []
  | room + 1 => do
    match ← recv false with
    | none => pure []
    | some c =>
      if c = cr then do
        let next ← recv true
        if next = some lf then do
          let _ ← recv false
          pure [lf]
        else pure [lf]
      else if c = lf then pure [lf]
      else do
        let line ← fillLine room
        pure (c :: line)

/-- `get_line`: the bytes it stores before the NUL. -/
def getLine (maxLen : ℕ) : Io Bytes := fillLine (maxLen - 1)

def bufSize : ℕ := 1024

/-- `strcmp(buf,"\n") == 0`. -/
def blank (line : Bytes) : Bool := cstr line = [lf]

def headerEnd : Io Unit := fun w => ⟨some (), w, [.headerEnd w.pos]⟩

def clearHeader (fuel : ℕ) : Io Unit := do
  loop (fun _ : Unit => do
    let line ← getLine bufSize
    pure (if blank line then .inr () else .inl ())) fuel ()
  headerEnd

/-- `Content-Length:`. -/
def contentLengthName : Bytes :=
  lit ['C', 'o', 'n', 't', 'e', 'n', 't', '-', 'L', 'e', 'n', 'g', 't', 'h', ':']

/-- What a header line makes of `content_length`. -/
def headerLine (line : Bytes) (contentLength : ℤ) : ℤ :=
  if strncasecmp (cstr line) contentLengthName 15 = 0 then atoi (cstr (line.drop 16))
  else contentLength

/-- The header loop of `exe_cgi` for POST. -/
def postHeader (fuel : ℕ) : Io ℤ := do
  let n ← loop (fun contentLength : ℤ => do
    let line ← getLine bufSize
    let contentLength := headerLine line contentLength
    pure (if blank line then .inr contentLength else .inl contentLength)) fuel 0
  headerEnd
  pure n

/-! ### Answers -/

def get : Bytes := lit ['G', 'E', 'T']
def post : Bytes := lit ['P', 'O', 'S', 'T']

/-- `SERVICE_VERSION " 200 OK\r\n"` and the content type. -/
def okHeader : Bytes :=
  lit ['H', 'T', 'T', 'P', '/', '1', '.', '1', ' ', '2', '0', '0', ' ', 'O', 'K', '\r', '\n',
    'c', 'o', 'n', 't', 'e', 'n', 't', '-', 'T', 'y', 'p', 'e', ':', 't', 'e', 'x', 't', '/',
    'h', 't', 'm', 'l', ';', 'C', 'h', 'a', 'r', 's', 'e', 't', '=', 'u', 't', 'f', '-', '8',
    '\r', '\n', '\r', '\n']

/-- `echo_html`. `file_size` is an `unsigned int`. -/
def echoHtml (host : Host) (path : Bytes) (fileSize : ℕ) : Io Unit := do
  say (.openFile path)
  match host.openFile path with
  | none => pure ()
  | some content => do
    send okHeader
    sendfile content (fileSize % 2 ^ 32)

/-- The body, byte by byte, to the CGI's stdin. The result of `recv` is not looked at, so a byte
that is not there yet is replaced by the one before it. -/
def relayBody : ℕ → UInt8 → Io Bytes
  | 0, _ => pure []
  | n + 1, c => do
    let got ← recv false
    say (.write (got.getD c))
    let body ← relayBody n (got.getD c)
    pure (got.getD c :: body)

/-- The CGI's output, byte by byte, to the client. -/
def relayOutput : Bytes → Io Unit
  | [] => pure ()
  | c :: output => do
    send [c]
    relayOutput output

/-- `REQUEST_METHOD=` and `QUERY_STRING=`, as `exe_cgi` leaves them for the child. -/
def childOf (path method : Bytes) (queryString : Option Bytes) : Child where
  path := path
  method := method
  query := if strcasecmp get method = 0 then queryString else none

/-- The headers, as `exe_cgi` reads them for a method: the value of `content_length` after them. -/
def readHeader (fuel : ℕ) (method : Bytes) : Io ℤ :=
  if strcasecmp method get = 0 then do
    clearHeader fuel
    pure 0
  else if strcasecmp method post = 0 then postHeader fuel
  else pure 0

/-- The father's side of the two pipes. -/
def relay (host : Host) (child : Child) (n : ℤ) : Io Unit := do
  let body ← relayBody (if strcasecmp post child.method = 0 then n.toNat else 0) 0
  relayOutput (host.cgi child body)

def exeCgi (host : Host) (fuel : ℕ) (path method : Bytes) (queryString : Option Bytes) :
    Io Unit := do
  let n ← readHeader fuel method
  say (.contentLength n)
  if n = -1 then pure ()
  else do
    send okHeader
    if host.pipeInput && host.pipeOutput && host.fork then do
      say (.execl (childOf path method queryString))
      relay host (childOf path method queryString) n
    else pure ()

/-! ### The request line -/

/-- `while(!isspace(buf[j]) && i<room && j<sizeof(buf))`, with `room` counted down. -/
def scanWord (buf : Bytes) : ℕ → ℕ → Bytes × ℕ
  | 0, j => ([], j)
  | room + 1, j =>
    if !isspace (buf.getD j 0) && j < buf.length then
      let r := scanWord buf room (j + 1)
      (buf.getD j 0 :: r.1, r.2)
    else ([], j)

/-- `while(isspace(buf[j]) && j < sizeof(buf))`. -/
def skipSpace (buf : Bytes) : ℕ → ℕ → ℕ
  | 0, j => j
  | fuel + 1, j =>
    if isspace (buf.getD j 0) && j < buf.length then skipSpace buf fuel (j + 1) else j

/-- The line in its buffer, the rest of which is zero. -/
def inBuf (line : Bytes) : Bytes := line ++ List.replicate (bufSize - line.length) 0

/-- The method and the url of a line, as the strings `accept_request` scans out of `buf`. -/
def scanLine (line : Bytes) : Bytes × Bytes :=
  let buf := inBuf line
  let m := scanWord buf (bufSize / 10 - 1) 0
  let j := skipSpace buf bufSize m.2
  (cstr m.1, cstr (scanWord buf (bufSize - 1) j).1)

/-- The methods that `accept_request` refuses. -/
def refused (method : Bytes) : Bool := strcasecmp method get < 0 && strcasecmp method post < 0

/-- The url, the query string and `cgi` after the two tests of the method. -/
structure Target where
  url : Bytes
  queryString : Option Bytes
  cgi : Bool
  deriving DecidableEq

def cutQuery (method url : Bytes) : Target :=
  if strcasecmp method get = 0 then
    match url.dropWhile (· ≠ '?'.toUInt8) with
    | [] => ⟨url, some [], strcasecmp method post = 0⟩
    | _ :: query => ⟨url.takeWhile (· ≠ '?'.toUInt8), some query, true⟩
  else ⟨url, none, strcasecmp method post = 0⟩

/-! ### The path -/

def htdocs : Bytes := lit ['h', 't', 'd', 'o', 'c', 's']
def mainPage : Bytes := lit ['i', 'n', 'd', 'e', 'x', '.', 'h', 't', 'm', 'l']

/-- `sprintf(path,"htdocs%s",url)`, and the main page after a last `/`. -/
def docPath (url : Bytes) : Bytes :=
  if (htdocs ++ url).getLast? = some '/'.toUInt8 then htdocs ++ url ++ mainPage else htdocs ++ url

/-- The path of the answer, once `stat` has found the file. -/
def servePath (st : Stat) (path : Bytes) : Bytes :=
  if st.isDir then path ++ '/'.toUInt8 :: mainPage else path

/-- `cgi` after the mode bits. -/
def serveCgi (st : Stat) (cgi : Bool) : Bool :=
  cgi || (!st.isDir && (st.ixusr || st.ixgrp || st.ixoth))

/-- The answer for a file that is there. -/
def serve (host : Host) (fuel : ℕ) (st : Stat) (method path : Bytes) (t : Target) : Io Unit :=
  if serveCgi st t.cgi then exeCgi host fuel (servePath st path) method t.queryString
  else do
    clearHeader fuel
    echoHtml host (servePath st path) st.size

/-- `accept_request`, once it knows method and url. -/
def answer (host : Host) (fuel : ℕ) (method : Bytes) (t : Target) : Io Unit := do
  say (.cut t.url t.queryString)
  say (.stat (docPath t.url))
  match host.stat (docPath t.url) with
  | none => clearHeader fuel
  | some st => do
    serve host fuel st method (docPath t.url) t
    say .close

/-- `accept_request`. A refused method and a file that is not there leave the socket open. -/
def acceptRequest (host : Host) (fuel : ℕ) : Io Unit := do
  let line ← getLine bufSize
  say (.scanned (scanLine line).1 (scanLine line).2)
  if refused (scanLine line).1 then pure ()
  else answer host fuel (scanLine line).1 (cutQuery (scanLine line).1 (scanLine line).2)

end WeatherQuery.HttpModel
