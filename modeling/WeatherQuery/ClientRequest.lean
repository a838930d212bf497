import WeatherQuery.RequestBounds

/-!
A GET as a client writes it, and all that comes of it.

The request is given as the bytes on the wire: a line, headers, and an empty line, each with a
CRLF, all of which have arrived. Its path and its query are short enough for the buffers they go
through. What the client gets is then settled by the file its path names.
-/

namespace WeatherQuery.ClientRequest

open WeatherQuery.CText WeatherQuery.Traced WeatherQuery.HttpModel WeatherQuery.HttpCalls
open WeatherQuery.HttpArrival (Word Inline crlf)
open WeatherQuery.HttpHeaders WeatherQuery.Newlines WeatherQuery.RequestLine
open WeatherQuery.CgiProtocol WeatherQuery.Delivery WeatherQuery.HttpAnswer
open WeatherQuery.RequestBounds
open WeatherQuery.HttpPath (flatHost)

/-- The parts of a GET. -/
structure GetParts where
  path : Bytes
  query : Option Bytes
  version : Bytes
  headers : List Bytes

/-- The request line without its end. -/
def GetParts.head (q : GetParts) : Bytes :=
  get ++ ([32] ++ (q.path ++ q.query.elim [] ('?'.toUInt8 :: ·) ++ ([32] ++ q.version)))

/-- The request on the wire. -/
def GetParts.bytes (q : GetParts) : Bytes := (q.head :: q.headers).flatMap (· ++ crlf) ++ crlf

/-- A GET that `get_line` reads as it was written: the request line fits its buffer, and no
header line has a length at which `get_line` loses track of the lines. The path fits `path`, with
the main page behind it and that of a directory, and the query fits `query_env`. -/
structure Get extends GetParts where
  path_ne : path ≠ []
  path_word : ∀ c ∈ path, Word c ∧ c ≠ '?'.toUInt8
  query_word : ∀ q ∈ query, ∀ c ∈ q, Word c
  version_inline : ∀ c ∈ version, Inline c ∧ c ≠ 0
  headers_inline : ∀ h ∈ headers, h ≠ [] ∧ ∀ c ∈ h, Inline c
  headers_read : ∀ h ∈ headers, ¬ 1023 ∣ h.length
  fits : toGetParts.head.length < 1023
  path_fits : path.length + (if path.getLast? = some '/'.toUInt8 then 10 else 0) ≤ 1006
  query_fits : ∀ q ∈ query, q.length ≤ 88

/-- The client has sent the request and takes what it is given. -/
structure Sent (q : Get) (w : World) : Prop where
  still : Still w
  arrived : ∃ rest, w.avail = q.bytes ++ rest

/-! ### The request line -/

def Get.parts (q : Get) : Parts where
  method := get
  gap := [32]
  path := q.path
  query := q.query
  gap' := [32]
  rest := q.version ++ [lf]

lemma Get.line_eq (q : Get) : q.parts.line = q.head ++ [lf] := by
  simp only [Parts.line, Parts.asked, Get.parts, GetParts.head, List.append_assoc]

lemma Get.head_nulFree (q : Get) : NulFree q.head := by
  have hget : NulFree get := by decide
  have hgap : NulFree [32] := by decide
  have hpath : NulFree q.path := fun c hc => (q.path_word c hc).1.2
  have hversion : NulFree q.version := fun c hc => (q.version_inline c hc).2
  have hquery : NulFree (q.query.elim [] ('?'.toUInt8 :: ·)) := by
    rcases hq : q.query with _ | t
    · exact fun c hc => by cases hc
    · intro c hc
      rcases List.mem_cons.mp hc with rfl | hc
      · decide
      · exact (q.query_word t hq c hc).2
  exact hget.append (hgap.append ((hpath.append hquery).append (hgap.append hversion)))

lemma Get.line_nulFree (q : Get) : NulFree q.parts.line := by
  rw [q.line_eq]
  exact q.head_nulFree.append (by decide)

lemma Get.line_fits (q : Get) : q.parts.line.length ≤ 1023 := by
  have hfits := q.fits
  rw [q.line_eq, List.length_append, List.length_singleton]
  omega

lemma gap_ne_nil : ([32] : Bytes) ≠ [] := List.cons_ne_nil _ _

lemma Get.method_eq (q : Get) : IsMethod q.parts.method := .inl rfl

lemma Get.path_start (q : Get) : ∀ c ∈ q.path, isspace c = false ∧ c ≠ '?'.toUInt8 :=
  fun c hc => ⟨(q.path_word c hc).1.1, (q.path_word c hc).2⟩

lemma Get.query_text (q : Get) : ∀ t ∈ q.query, ∀ c ∈ t, isspace c = false :=
  fun t ht c hc => (q.query_word t ht c hc).1

def Get.whole (q : Get) : WholeLine where
  toParts := q.parts
  isMethod := q.method_eq
  gap_ne := gap_ne_nil
  gap_space := isspace_gap
  path_ne := q.path_ne
  path_word := q.path_start
  query_word := q.query_text
  gap'_ne := gap_ne_nil
  gap'_space := isspace_gap
  fits := q.line_fits
  nulFree := q.line_nulFree

lemma inline_word {c : UInt8} (h : Word c) : Inline c := HttpArrival.Word.inline h

lemma Get.head_inline (q : Get) : ∀ c ∈ q.head, Inline c := by
  have hget : ∀ c ∈ get, Inline c := by simp [HttpModel.get, lit, Inline, cr, lf]; decide
  have hgap : ∀ c ∈ [(32 : UInt8)], Inline c := by simp [Inline, cr, lf]
  intro c hc
  simp only [GetParts.head, List.mem_append] at hc
  rcases hc with hc | hc | (hc | hc) | hc | hc
  · exact hget c hc
  · exact hgap c hc
  · exact inline_word (q.path_word c hc).1
  · rcases hq : q.query with _ | t
    · simp [hq] at hc
    · rw [hq] at hc
      rcases List.mem_cons.mp hc with rfl | hc
      · exact ⟨by decide, by decide⟩
      · exact inline_word (q.query_word t hq c hc)
  · exact hgap c hc
  · exact (q.version_inline c hc).1

/-! ### The stream -/

lemma notMem_inline {l : Bytes} (h : ∀ c ∈ l, Inline c) : cr ∉ l ∧ lf ∉ l :=
  ⟨fun hc => (h cr hc).1 rfl, fun hc => (h lf hc).2 rfl⟩

lemma Get.normalise_bytes (q : Get) (rest : Bytes) :
    normalise cr lf (q.bytes ++ rest) =
      q.head ++ lf :: (block lf q.headers ++ lf :: normalise cr lf rest) := by
  have hlines : ∀ l ∈ q.head :: q.headers, cr ∉ l := by
    refine List.forall_mem_cons.mpr ⟨(notMem_inline q.head_inline).1, fun h hh => ?_⟩
    exact (notMem_inline (q.headers_inline h hh).2).1
  have hend : normalise cr lf (crlf ++ rest) = lf :: normalise cr lf rest :=
    normalise_line List.not_mem_nil rest
  rw [GetParts.bytes, List.append_assoc, crlf, normalise_block hlines, ← crlf, hend, block_cons,
    List.append_assoc, List.cons_append]

section Stream

variable {q : Get} {w : World} (h : Sent q w)
include h

lemma Sent.normalise_eq :
    ∃ rest, normalise cr lf w.avail = q.head ++ lf :: (block lf q.headers ++ lf :: rest) := by
  obtain ⟨rest, havail⟩ := h.arrived
  exact ⟨normalise cr lf rest, by rw [havail, q.normalise_bytes]⟩

lemma Sent.nextPiece_eq : nextPiece (bufSize - 1) w = q.head ++ [lf] := by
  obtain ⟨rest, hs⟩ := h.normalise_eq
  rw [nextPiece, hs]
  exact piece_line (notMem_inline q.head_inline).2 q.fits _

lemma Sent.firstLine_eq : firstLine w = q.whole.line := by
  have hval := (fillLine_still (bufSize - 1) h.still).1
  rw [h.nextPiece_eq] at hval
  rw [firstLine, getLine, hval, Option.getD_some]
  exact q.line_eq.symm

/-- What is left after the request line. -/
lemma Sent.afterLine_stream :
    Still (getLine bufSize w).st ∧
      (getLine bufSize w).st.avail.length ≤ w.avail.length ∧
      ∃ rest, normalise cr lf (getLine bufSize w).st.avail =
        block lf q.headers ++ lf :: rest := by
  obtain ⟨rest, hs⟩ := h.normalise_eq
  have hst := (fillLine_still (bufSize - 1) h.still).2
  rw [h.nextPiece_eq] at hst
  rw [getLine, hst]
  refine ⟨h.still.skip _, ?_, rest, ?_⟩
  · rw [skip, List.length_drop]
    omega
  · have hline : q.head ++ lf :: (block lf q.headers ++ lf :: rest) =
        (q.head ++ [lf]) ++ (block lf q.headers ++ lf :: rest) := by simp
    change normalise cr lf (w.avail.drop _) = _
    rw [normalise_drop_span, hs, hline, List.drop_left]

lemma Sent.clearHeader_returns {fuel : ℕ} (hfuel : w.avail.length ≤ fuel) :
    (clearHeader fuel (getLine bufSize w).st).val = some () := by
  obtain ⟨hstill, hlen, rest, hs⟩ := h.afterLine_stream
  have hlines : ∀ l ∈ q.headers, l ≠ [] ∧ lf ∉ l := fun l hl =>
    ⟨(q.headers_inline l hl).1, (notMem_inline (q.headers_inline l hl).2).2⟩
  have hreads := (reads_readLines_iff (fun _ _ => ()) () hstill hlines hs
    (hlen.trans hfuel)).mpr q.headers_read
  have hsome := ((reads_clearHeader_iff fuel _ _).mpr hreads).1
  obtain ⟨⟨⟩, hval⟩ := Option.isSome_iff_exists.mp hsome
  exact hval

lemma Sent.methodOf_eq : methodOf w = get := by
  rw [methodOf, h.firstLine_eq, q.whole.scanLine_eq]
  rfl

lemma Sent.targetOf_eq : targetOf w = ⟨q.path, some (q.query.getD []), q.query.isSome⟩ := by
  rw [targetOf, methodOf, h.firstLine_eq, q.whole.cutQuery_get rfl]
  rfl

lemma Sent.not_refused : refused (methodOf w) = false := by
  rw [h.methodOf_eq]
  decide

/-! ### The buffers -/

lemma Sent.inBounds : InBounds (firstLine w) := by
  refine (inBounds_iff (length_firstLine w)).mpr ⟨32, ?_, by decide⟩
  rw [h.firstLine_eq, q.whole.restOf_eq]
  exact List.mem_append_right _ List.mem_cons_self

lemma Sent.urlText_eq : urlText (firstLine w) = q.path := by
  rw [← targetOf_url, h.targetOf_eq]

lemma Sent.queryText_eq : queryText (firstLine w) = q.query.getD [] := by
  have hget : strcasecmp (methodText (firstLine w)) get = 0 := by
    rw [← methodOf_text, h.methodOf_eq]
    decide
  have hquery := (targetOf_get hget).2.1
  rw [h.targetOf_eq] at hquery
  exact (Option.some.inj hquery).symm

/-- What is built of the request fits its buffers. -/
lemma Sent.textsFit (host : Host) : TextsFit host w := by
  have hpath : (urlText (firstLine w)).length + pageBytes host (urlText (firstLine w)) ≤ 1017 := by
    have hdir : (if (host.stat (docPath q.path)).any (·.isDir) then 11 else 0) ≤ 11 := by
      split_ifs <;> omega
    have hfits := q.path_fits
    rw [h.urlText_eq, pageBytes]
    omega
  have hquery : (queryText (firstLine w)).length ≤ 88 := by
    rw [h.queryText_eq]
    rcases hq : q.query with _ | t
    · exact Nat.zero_le _
    · exact q.query_fits t hq
  intro fuel b hb
  rcases List.mem_append.mp hb with hb | hb
  · exact (pathTexts_fit_iff h.not_refused).mpr hpath b hb
  · exact (childTexts_request_iff h.not_refused).mpr (fun _ => hquery) fuel b hb

end Stream

/-! ### The answer -/

/-- What a GET is answered with, send by send; `none` where the file is missing, and the client
is left with an open socket and no answer. -/
def chunks (host : Host) (q : GetParts) : Option (List Bytes) :=
  (host.stat (docPath q.path)).map fun st =>
    if serveCgi st q.query.isSome then
      okHeader ::
        if host.pipeInput && host.pipeOutput && host.fork then
          (host.cgi ⟨servePath st (docPath q.path), get, some (q.query.getD [])⟩ []).map ([·])
        else []
    else
      (host.openFile (servePath st (docPath q.path))).elim [] fun content =>
        [okHeader, content.take (min (st.size % 2 ^ 32) sendfileMax)]

lemma returns_relayOutput (output : Bytes) : Returns _ (relayOutput output) := by
  induction output with
  | nil => exact modular_returns.pure _
  | cons c output ih =>
    exact modular_returns.bind (fun w => ⟨(), send_returns _ w⟩) fun _ => ih

lemma returns_relay (host : Host) (child : Child) (n : ℤ) : Returns _ (relay host child n) := by
  intro w
  obtain ⟨body, hbody, -⟩ :=
    relayBody_wrote (if strcasecmp post child.method = 0 then n.toNat else 0) 0 w
  rw [relay, bind_run_some hbody]
  exact returns_relayOutput _ _

lemma exeCgi_returns (host : Host) {fuel : ℕ} (path : Bytes) {method : Bytes}
    (query : Option Bytes) {w : World} {n : ℤ} (hn : (readHeader fuel method w).val = some n) :
    (exeCgi host fuel path method query w).val = some () := by
  unfold exeCgi
  rw [bind_run_some hn]
  simp only [say_bind_run]
  split_ifs with hne hhost
  · rfl
  · rw [bind_run_some (send_returns _ _)]
    obtain ⟨⟨⟩, hval⟩ := returns_relay host (childOf path method query) n (atBody fuel method w)
    exact hval
  · rw [bind_run_some (send_returns _ _)]
    rfl

section Answer

variable {q : Get} {w : World} (h : Sent q w) {fuel : ℕ} (hfuel : w.avail.length ≤ fuel)
  (host : Host)
include h hfuel

lemma Sent.readHeader_val : (readHeader fuel get (getLine bufSize w).st).val = some 0 := by
  rw [readHeader, if_pos (by decide), bind_run_some (h.clearHeader_returns hfuel)]
  rfl

/-- A GET has no body to hand on. -/
lemma Sent.stdin_eq (hhost : (host.pipeInput && host.pipeOutput && host.fork) = true)
    (path : Bytes) (query : Option Bytes) :
    stdinOf (exeCgi host fuel path get query (getLine bufSize w).st).log = [] := by
  rw [stdinOf_exeCgi host _ _ (h.readHeader_val hfuel) (by decide) hhost]
  obtain ⟨body, hbody, hwrote⟩ := stdinOf_relay host (childOf path get query) 0
    (atBody fuel get (getLine bufSize w).st)
  have hnone : (if strcasecmp post (childOf path get query).method = 0 then (0 : ℤ).toNat
      else 0) = 0 := by
    split_ifs <;> rfl
  rw [hnone] at hbody
  rw [hwrote]
  exact (Option.some.inj hbody).symm

lemma Sent.exeCgi_offers (path query : Bytes) :
    Offers (exeCgi host fuel path get (some query)) (getLine bufSize w).st
      (okHeader :: if host.pipeInput && host.pipeOutput && host.fork then
        (host.cgi ⟨path, get, some query⟩ []).map ([·]) else []) := by
  have hread := h.readHeader_val hfuel
  by_cases hhost : (host.pipeInput && host.pipeOutput && host.fork) = true
  · have hoffers := offers_exeCgi hhost path (some query) hread (by decide)
    rw [h.stdin_eq hfuel host hhost] at hoffers
    rw [if_pos hhost]
    exact hoffers
  · rw [if_neg hhost]
    unfold exeCgi
    refine offers_quiet_bind hread (quiet_readHeader fuel get) ?_
    refine offers_say (by simp) ?_
    rw [if_neg (by decide), if_neg hhost]
    exact offers_send_bind (quiet_pure () _)

omit h hfuel in
lemma echoHtml_offers (path : Bytes) (size : ℕ) (w : World) :
    Offers (echoHtml host path size) w
      ((host.openFile path).elim [] fun content =>
        [okHeader, content.take (min (size % 2 ^ 32) sendfileMax)]) := by
  rcases hopen : host.openFile path with _ | content
  · unfold echoHtml
    refine offers_say (by simp) ?_
    rw [hopen]
    exact quiet_pure () _
  · exact offers_echoHtml hopen _ _

/-- The answer for a file that is there. -/
lemma Sent.serve_offers {st : Stat} (hst : host.stat (docPath q.path) = some st) :
    (serve host fuel st get (docPath q.path) (targetOf w) (getLine bufSize w).st).val = some () ∧
      Offers (serve host fuel st get (docPath q.path) (targetOf w)) (getLine bufSize w).st
        ((chunks host q.toGetParts).getD []) := by
  have hclear := h.clearHeader_returns hfuel
  rw [h.targetOf_eq, chunks, hst, Option.map_some, Option.getD_some, serve]
  by_cases hcgi : serveCgi st q.query.isSome = true
  · rw [if_pos hcgi, if_pos hcgi]
    exact ⟨exeCgi_returns host _ _ (h.readHeader_val hfuel), h.exeCgi_offers hfuel host _ _⟩
  · rw [if_neg hcgi, if_neg hcgi]
    refine ⟨?_, offers_quiet_bind hclear (quiet_clearHeader fuel) (echoHtml_offers host _ _ _)⟩
    rw [bind_run_some hclear]
    exact echoHtml_returns _ _ _

lemma Sent.accept_returns : (acceptRequest host fuel w).val = some () := by
  have hclear := h.clearHeader_returns hfuel
  rw [acceptRequest_run, afterLine, h.not_refused, h.methodOf_eq, h.targetOf_eq]
  rcases hst : host.stat (docPath q.path) with _ | st
  · simp [answer, hst, hclear]
  · have hval := (h.serve_offers hfuel host hst).1
    rw [h.targetOf_eq] at hval
    simp [answer, hst, bind_run_some hval]

omit hfuel in
/-- Without a file nothing is sent. -/
lemma Sent.offers_missing (hst : host.stat (docPath q.path) = none) :
    Offers (acceptRequest host fuel) w [] := by
  obtain ⟨line, hline⟩ := getLine_returns w
  have hfirst : firstLine w = line := by simp [firstLine, hline]
  have hmethod : (scanLine line).1 = methodOf w := by rw [methodOf, hfirst]
  have htarget : cutQuery (methodOf w) (scanLine line).2 = targetOf w := by rw [targetOf, hfirst]
  unfold acceptRequest
  refine offers_quiet_bind hline (quiet_getLine _) ?_
  refine offers_say (by simp) ?_
  rw [hmethod, htarget, h.not_refused, h.targetOf_eq]
  refine offers_say (by simp) (offers_say (by simp) ?_)
  rw [hst]
  exact quiet_clearHeader fuel _

lemma Sent.sent_eq :
    sentOf (acceptRequest host fuel w).log =
      accepted w.takes ((chunks host q.toGetParts).getD []) := by
  have hurl : (targetOf w).url = q.path := by rw [h.targetOf_eq]
  rcases hst : host.stat (docPath q.path) with _ | st
  · rw [(h.offers_missing host hst).1, chunks, hst]
    rfl
  · have hserve := (h.serve_offers hfuel host hst).2
    rw [← h.methodOf_eq, ← hurl] at hserve
    exact (offers_acceptRequest h.not_refused (by rw [hurl]; exact hst)
      (by rw [h.accept_returns hfuel]; rfl) hserve).1

lemma Sent.closes_iff :
    Event.close ∈ (acceptRequest host fuel w).log ↔ (chunks host q.toGetParts).isSome = true := by
  obtain ⟨es, hes, hlog⟩ := acceptRequest_closes host fuel w
  have hserved : Served host w = (chunks host q.toGetParts).isSome := by
    rw [Served, h.not_refused, h.targetOf_eq, chunks, Option.isSome_map]
    rfl
  rw [hlog, h.accept_returns hfuel host, hserved]
  by_cases hsome : (chunks host q.toGetParts).isSome = true
  · simp [hsome]
  · simp only [hsome, Option.isSome_some, Bool.and_false, Bool.false_eq_true, if_false,
      List.append_nil, iff_false]
    exact fun hmem => hes _ hmem rfl

end Answer

/-- **The answer to a GET.** Its line is scanned and its path and environment are built within
their buffers; `accept_request` returns; what the socket accepts is a matter of the chunks that the
host has for the path; and the socket is closed unless the file is missing. -/
theorem get_answered (q : Get) (host : Host) (fuel : ℕ) (w : World) (h : Sent q w)
    (hfuel : w.avail.length ≤ fuel) :
    (InBounds (firstLine w) ∧ TextsFit host w) ∧
      (acceptRequest host fuel w).val = some () ∧
      sentOf (acceptRequest host fuel w).log =
        accepted w.takes ((chunks host q.toGetParts).getD []) ∧
      (Event.close ∈ (acceptRequest host fuel w).log ↔
        (chunks host q.toGetParts).isSome = true) :=
  ⟨⟨h.inBounds, h.textsFit host⟩, h.accept_returns hfuel host, h.sent_eq hfuel host,
    h.closes_iff hfuel host⟩

/-- `GET /a HTTP/1.0` with a header. -/
def plainQuery : Get where
  path := lit ['/', 'a']
  query := none
  version := lit ['H', 'T', 'T', 'P', '/', '1', '.', '0']
  headers := [lit ['H', 'o', 's', 't', ':', ' ', 'b']]
  path_ne := by decide
  path_word := by simp [lit, Word, isspace]; decide
  query_word := by simp
  version_inline := by simp [lit, Inline, cr, lf]; decide
  headers_inline := by simp [lit, Inline, cr, lf]; decide
  headers_read := by simp [lit]
  fits := by decide
  path_fits := by decide
  query_fits := by simp

/-- The request, and a client that takes so much of each send. -/
def arrived (q : GetParts) (takes : List (Option ℕ)) : World where
  avail := q.bytes
  later := []
  sched := []
  takes := takes
  pos := 0

lemma sent_arrived (q : Get) (takes : List (Option ℕ)) : Sent q (arrived q.toGetParts takes) :=
  ⟨⟨rfl, rfl⟩, [], (List.append_nil _).symm⟩

theorem get_answered_plainQuery :
    Sent plainQuery (arrived plainQuery.toGetParts []) ∧
      sentOf (acceptRequest flatHost 31 (arrived plainQuery.toGetParts [])).log =
        okHeader ++ [0] ∧
      Event.close ∈ (acceptRequest flatHost 31 (arrived plainQuery.toGetParts [])).log := by
  have hlen : (arrived plainQuery.toGetParts []).avail.length ≤ 31 := by decide
  have hchunks : chunks flatHost plainQuery.toGetParts = some [okHeader, [0]] := by decide
  obtain ⟨-, -, hsent, hclose⟩ := get_answered plainQuery flatHost 31 _ (sent_arrived _ []) hlen
  refine ⟨sent_arrived _ [], ?_, hclose.mpr (by rw [hchunks]; rfl)⟩
  rw [hsent, hchunks]
  rfl

end WeatherQuery.ClientRequest
