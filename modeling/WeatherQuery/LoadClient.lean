import WeatherQuery.ClientRequest
import WeatherQuery.LoadRead

/-!
A fetch of `http_load` from the server.

`read_url_file` takes a line of the url file apart and `handle_connect` makes a request of the
parts. The two programs agree on the request, and what the load generator then counts is what the
server had to send.
-/

namespace WeatherQuery.LoadClient

open WeatherQuery.CText WeatherQuery.HttpModel WeatherQuery.HttpCalls WeatherQuery.HttpAnswer
open WeatherQuery.HttpArrival (Word Inline crlf)
open WeatherQuery.ClientRequest WeatherQuery.Delivery
open WeatherQuery.HttpPath (flatHost)
open WeatherQuery.HttpHeaders (Still)
open WeatherQuery.LoadModel WeatherQuery.LoadHeader WeatherQuery.LoadRead

/-- A `url`, without the address of its host and what earlier fetches left in it. -/
structure Url where
  hostname : Bytes
  port : ℕ
  filename : Bytes
  deriving DecidableEq

def http : Bytes := lit ['h', 't', 't', 'p', ':', '/', '/']

def slash : UInt8 := '/'.toUInt8
def colon : UInt8 := ':'.toUInt8

/-- The body of the loop of `read_url_file`, on a line without its newline; `none` is the exit for
an unknown protocol. The port is an `unsigned short`. -/
def parseUrl (line : Bytes) : Option Url :=
  if http.isPrefixOf line then
    let rest := line.drop http.length
    let hostname := rest.takeWhile fun c => c ≠ colon && c ≠ slash
    let cp := rest.dropWhile fun c => c ≠ colon && c ≠ slash
    let port := if cp.head? = some colon then (atoi cp.tail % 2 ^ 16).toNat else 80
    let cp := if cp.head? = some colon then cp.tail.dropWhile (· ≠ slash) else cp
    some ⟨hostname, port, if cp = [] then [slash] else cp⟩
  else none

/-- The header lines of `handle_connect`. -/
def hostLine (hostname : Bytes) : Bytes := lit ['H', 'o', 's', 't', ':', ' '] ++ hostname

def agentLine : Bytes :=
  lit ['U', 's', 'e', 'r', '-', 'A', 'g', 'e', 'n', 't', ':', ' ', 'h', 't', 't', 'p', '_', 'l',
    'o', 'a', 'd', ' ', '0', '9', 'M', 'a', 'r', '2', '0', '1', '6']

def version : Bytes := lit ['H', 'T', 'T', 'P', '/', '1', '.', '0']

/-- The request `handle_connect` formats without a proxy. `none` where it does not fit the 600 bytes
of `buf`, and the sizes given to `snprintf` go wrong. -/
def request (u : Url) : Option Bytes :=
  let text := lit ['G', 'E', 'T', ' '] ++ u.filename.take 500 ++ lit [' '] ++ version ++
    lit ['\r', '\n'] ++ hostLine u.hostname ++ lit ['\r', '\n'] ++ agentLine ++
    lit ['\r', '\n'] ++ lit ['\r', '\n']
  if text.length < 600 then some text else none

/-! ### Urls -/

/-- The parts of a line of the url file. -/
structure UrlParts where
  hostname : Bytes
  port : Option ℕ
  path : Bytes
  query : Option Bytes

def UrlParts.file (v : UrlParts) : Bytes := v.path ++ v.query.elim [] ('?'.toUInt8 :: ·)

def UrlParts.line (v : UrlParts) : Bytes :=
  http ++ (v.hostname ++ (v.port.elim [] (fun n => colon :: decimal n) ++ v.file))

/-- A url that fits the buffers of both programs. -/
structure PlainUrl extends UrlParts where
  host_char : ∀ c ∈ hostname, c ≠ colon ∧ c ≠ slash ∧ Inline c
  port_lt : ∀ n ∈ port, n < 2 ^ 16
  path_slash : path.head? = some slash
  path_word : ∀ c ∈ path, Word c ∧ c ≠ '?'.toUInt8
  query_word : ∀ q ∈ query, ∀ c ∈ q, Word c
  query_short : ∀ q ∈ query, q.length ≤ 88
  file_short : toUrlParts.file.length ≤ 500
  fits : toUrlParts.file.length + hostname.length < 542

def PlainUrl.url (v : PlainUrl) : Url := ⟨v.hostname, v.port.getD 80, v.file⟩

lemma inline_of_notMem {l : Bytes} (hcr : cr ∉ l) (hlf : lf ∉ l) : ∀ c ∈ l, Inline c := by
  refine fun c hc => ⟨?_, ?_⟩
  · rintro rfl
    exact hcr hc
  · rintro rfl
    exact hlf hc

lemma PlainUrl.hostLine_inline (v : PlainUrl) : ∀ c ∈ hostLine v.hostname, Inline c := by
  have hname : ∀ c ∈ lit ['H', 'o', 's', 't', ':', ' '], Inline c :=
    inline_of_notMem (by decide) (by decide)
  intro c hc
  rcases List.mem_append.mp hc with hc | hc
  · exact hname c hc
  · exact (v.host_char c hc).2.2

lemma PlainUrl.hostLine_length (v : PlainUrl) :
    0 < (hostLine v.hostname).length ∧ (hostLine v.hostname).length < 1023 := by
  have hfits := v.fits
  simp only [hostLine, List.length_append, lit, List.length_map, List.length_cons, List.length_nil]
  omega

/-- The request, as the server sees it. -/
def PlainUrl.getParts (v : PlainUrl) : GetParts where
  path := v.path
  query := v.query
  version := version
  headers := [hostLine v.hostname, agentLine]

lemma PlainUrl.path_ne (v : PlainUrl) : v.path ≠ [] := by
  intro h
  have hslash := v.path_slash
  simp [h] at hslash

lemma version_inline : ∀ c ∈ version, Inline c ∧ c ≠ 0 := by
  simp [version, lit, Inline, cr, lf]; decide

lemma PlainUrl.headers_inline (v : PlainUrl) :
    ∀ h ∈ v.getParts.headers, h ≠ [] ∧ ∀ c ∈ h, Inline c := by
  have hagent : ∀ c ∈ agentLine, Inline c := inline_of_notMem (by decide) (by decide)
  intro h hh
  rcases List.mem_pair.mp hh with rfl | rfl
  · exact ⟨List.ne_nil_of_length_pos v.hostLine_length.1, v.hostLine_inline⟩
  · exact ⟨by decide, hagent⟩

lemma PlainUrl.headers_read (v : PlainUrl) : ∀ h ∈ v.getParts.headers, ¬ 1023 ∣ h.length := by
  intro h hh
  rcases List.mem_pair.mp hh with rfl | rfl
  · exact Nat.not_dvd_of_pos_of_lt v.hostLine_length.1 v.hostLine_length.2
  · decide

lemma PlainUrl.head_short (v : PlainUrl) : v.getParts.head.length < 1023 := by
  have hfile := v.file_short
  have hget : HttpModel.get.length = 3 := rfl
  have hversion : version.length = 8 := rfl
  simp only [UrlParts.file, List.length_append] at hfile
  simp only [GetParts.head, PlainUrl.getParts, List.length_append, List.length_singleton, hget,
    hversion]
  omega

lemma PlainUrl.path_short (v : PlainUrl) :
    v.path.length + (if v.path.getLast? = some slash then 10 else 0) ≤ 1006 := by
  have hfile := v.file_short
  simp only [UrlParts.file, List.length_append] at hfile
  split_ifs <;> omega

def PlainUrl.get (v : PlainUrl) : Get where
  toGetParts := v.getParts
  path_ne := v.path_ne
  path_word := v.path_word
  query_word := v.query_word
  version_inline := version_inline
  headers_inline := v.headers_inline
  headers_read := v.headers_read
  fits := v.head_short
  path_fits := v.path_short
  query_fits := v.query_short

/-! ### Both sides of the request -/

/-- `atoi` on a number and a text behind it. -/
lemma atoi_decimal {n : ℕ} (hn : n < 2 ^ 31) {t : Bytes} (ht : ∀ c ∈ t.head?, ¬ IsDigit c) :
    atoi (decimal n ++ t) = n := by
  have hstop : digits t n = n := by
    rcases t with _ | ⟨c, t⟩
    · rfl
    · exact if_neg (ht c rfl)
  have hval : digits (decimal n ++ t) 0 = n := by
    rw [digits_append (decimal_isDigit n), digits_decimal, hstop]
  rcases hd : decimal n with _ | ⟨c, r⟩
  · exact absurd hd (decimal_ne_nil n)
  · have hc : IsDigit c := decimal_isDigit n c (by rw [hd]; exact List.mem_cons_self)
    have hword : ¬ isspace c = true := by
      rw [hc.not_space]
      decide
    rw [hd] at hval
    unfold atoi
    rw [List.cons_append, List.dropWhile_cons_of_neg hword]
    simp only [if_neg hc.not_sign.1, if_neg hc.not_sign.2]
    rw [← List.cons_append, hval, min_eq_right (by omega), Int.bmod_eq_of_le (by omega) (by omega)]

lemma PlainUrl.file_head (v : PlainUrl) : v.file.head? = some slash := by
  have hslash := v.path_slash
  rcases hp : v.path with _ | ⟨c, p⟩
  · simp [hp] at hslash
  · simpa [UrlParts.file, hp] using hslash

/-- **Round trip.** `read_url_file` finds the parts a url was made of. -/
lemma PlainUrl.parseUrl_line (v : PlainUrl) : parseUrl v.line = some v.url := by
  obtain ⟨f, hfile⟩ : ∃ f, v.file = slash :: f := by
    have hhead := v.file_head
    rcases hf : v.file with _ | ⟨c, f⟩
    · simp [hf] at hhead
    · obtain rfl : c = slash := by simpa [hf] using hhead
      exact ⟨f, rfl⟩
  have hhost : ∀ c ∈ v.hostname, (c ≠ colon && c ≠ slash) = true := by
    intro c hc
    simp [(v.host_char c hc).1, (v.host_char c hc).2.1]
  have hpre : http.isPrefixOf v.line = true := by simp [UrlParts.line]
  have hdrop : v.line.drop http.length =
      v.hostname ++ (v.port.elim [] (fun n => colon :: decimal n) ++ v.file) := by
    simp [UrlParts.line]
  unfold parseUrl
  rw [if_pos hpre, hdrop]
  simp only [List.takeWhile_append_of_pos hhost, List.dropWhile_append_of_pos hhost, hfile]
  rcases hport : v.port with _ | n
  · have hne : slash ≠ colon := by decide
    simp [PlainUrl.url, hport, hfile, hne]
  · have hn := v.port_lt n hport
    have hdigit : ∀ c ∈ (slash :: f).head?, ¬ IsDigit c := by
      rintro c hc
      obtain rfl : slash = c := by simpa using hc
      exact fun h => absurd h.1 (by decide)
    have hskip : ∀ c ∈ decimal n, (c ≠ slash : Bool) = true := by
      intro c hc
      have hne : c ≠ slash := by
        rintro rfl
        exact absurd (decimal_isDigit n _ hc).1 (by decide)
      simpa using hne
    have hatoi : (atoi (decimal n ++ slash :: f) % 2 ^ 16).toNat = n := by
      rw [atoi_decimal (by omega) hdigit]
      omega
    have hcut : (decimal n ++ slash :: f).dropWhile (fun c => decide (c ≠ slash)) = slash :: f := by
      rw [List.dropWhile_append_of_pos hskip]
      simp
    have hstop : (colon ≠ colon && colon ≠ slash) = false := by decide
    simp only [Option.elim_some, List.cons_append, List.takeWhile_cons, List.dropWhile_cons, hstop,
      Bool.false_eq_true, if_false, List.append_nil, List.head?_cons, List.tail_cons, if_true,
      hatoi, hcut, PlainUrl.url, hport, hfile, Option.getD_some, reduceCtorEq]

/-- What `handle_connect` writes is the request the server understands. -/
lemma PlainUrl.request_url (v : PlainUrl) : request v.url = some v.get.bytes := by
  have htake : v.url.filename.take 500 = v.file := List.take_of_length_le v.file_short
  have htext : lit ['G', 'E', 'T', ' '] ++ v.file ++ lit [' '] ++ version ++ lit ['\r', '\n'] ++
      hostLine v.hostname ++ lit ['\r', '\n'] ++ agentLine ++ lit ['\r', '\n'] ++
      lit ['\r', '\n'] = v.get.bytes := by
    have hget : lit ['G', 'E', 'T', ' '] = HttpModel.get ++ [32] := rfl
    have hgap : lit [' '] = [32] := rfl
    have hcrlf : lit ['\r', '\n'] = crlf := rfl
    rw [hget, hgap, hcrlf]
    simp [GetParts.bytes, GetParts.head, PlainUrl.get, PlainUrl.getParts, UrlParts.file]
  have hlen : v.get.bytes.length < 600 := by
    have hfits := v.fits
    have hcrlf : (lit ['\r', '\n']).length = 2 := rfl
    have hget : (lit ['G', 'E', 'T', ' ']).length = 4 := rfl
    have hgap : (lit [' ']).length = 1 := rfl
    have hversion : version.length = 8 := rfl
    have hagent : agentLine.length = 31 := rfl
    have hhost : (lit ['H', 'o', 's', 't', ':', ' ']).length = 6 := rfl
    rw [← htext]
    simp only [List.length_append, hostLine, hcrlf, hget, hgap, hversion, hagent, hhost]
    omega
  unfold request
  rw [htake]
  simp only [PlainUrl.url, htext, if_pos hlen]

/-! ### The answer -/

lemma okHeader_firstEnd : FirstEnd okHeader := by
  have hall : ∀ n < okHeader.length, ends (okHeader.take n) = false := by decide +kernel
  refine ⟨by decide +kernel, fun p hp hne => ?_⟩
  have hlt : p.length < okHeader.length :=
    lt_of_le_of_ne hp.length_le fun h => hne (hp.eq_of_length h)
  rw [List.prefix_iff_eq_take.mp hp]
  exact hall p.length hlt

/-- The header of the server says 200 and no length, whatever is behind it. -/
lemma counts_ok {cfg : Config} {c : Connection} {body : Bytes}
    (h : Counts cfg c (okHeader ++ body)) :
    c.httpStatus = 200 ∧ c.contentLength = -1 ∧ c.bytes = body.length ∧
      c.checksum = sumOf cfg body := by
  obtain ⟨hhead, hbody⟩ := cut_firstEnd okHeader_firstEnd body
  obtain ⟨hst, hlen, hbytes, hsum⟩ := h
  rw [hhead] at hst hlen
  rw [hbody] at hbytes hsum
  refine ⟨hst.trans ?_, hlen.trans ?_, hbytes, hsum⟩
  · decide +kernel
  · decide +kernel

/-- An answer of the server is read to its end: without a length, only the end of the stream closes
the connection. -/
lemma not_reached_ok (body : Bytes) : ¬ Reached (okHeader ++ body) := by
  rintro ⟨-, hlen, -⟩
  rw [(cut_firstEnd okHeader_firstEnd body).1] at hlen
  exact hlen (by decide +kernel)

/-- The request has arrived at the server. -/
lemma PlainUrl.sent (v : PlainUrl) {w : World} (hstill : Still w)
    (harrived : (parseUrl v.line).bind request = some w.avail) : Sent v.get w := by
  rw [v.parseUrl_line, Option.bind_some, v.request_url, Option.some.injEq] at harrived
  exact ⟨hstill, [], by rw [← harrived, List.append_nil]⟩

/-- `http://b:8080/a`. -/
def shortParts : UrlParts :=
  { hostname := lit ['b'], port := some 8080, path := lit ['/', 'a'], query := none }

lemma shortParts_chars : (∀ c ∈ shortParts.hostname, c ≠ colon ∧ c ≠ slash ∧ Inline c) ∧
    (∀ c ∈ shortParts.path, Word c ∧ c ≠ '?'.toUInt8) := by
  constructor
  · simp [shortParts, lit, Inline, cr, lf]; decide
  · simp [shortParts, lit, Word, isspace]; decide

lemma shortParts_options :
    (∀ n ∈ shortParts.port, n < 2 ^ 16) ∧ (∀ q ∈ shortParts.query, ∀ c ∈ q, Word c) ∧
      ∀ q ∈ shortParts.query, q.length ≤ 88 := by
  simp [shortParts]

lemma shortParts_file : shortParts.path.head? = some slash ∧ shortParts.file.length ≤ 500 ∧
    shortParts.file.length + shortParts.hostname.length < 542 := by decide

def shortUrl : PlainUrl where
  toUrlParts := shortParts
  host_char := shortParts_chars.1
  port_lt := shortParts_options.1
  path_slash := shortParts_file.1
  path_word := shortParts_chars.2
  query_word := shortParts_options.2.1
  query_short := shortParts_options.2.2
  file_short := shortParts_file.2.1
  fits := shortParts_file.2.2

/-- The answer in two reads, and the end. -/
def answerReads : List Act := [.read 1 0 okHeader, .read 2 0 [0], .read 3 0 []]

def quietConfig : Config := ⟨false, false, fun _ _ => false⟩

end WeatherQuery.LoadClient
