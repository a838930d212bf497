import WeatherQuery.HttpAnswer
import WeatherQuery.HttpLines
import WeatherQuery.MethodGate

/-!
The buffers of a request.

The three loops of `accept_request` look at `buf[j]` before they look at `j`, and a NUL does not
stop them. What they copy always fits; what is built of it afterwards goes into buffers of other
sizes without a test.
-/

namespace WeatherQuery.RequestBounds

open WeatherQuery.CText WeatherQuery.Traced WeatherQuery.HttpModel WeatherQuery.HttpCalls
open WeatherQuery.HttpAnswer WeatherQuery.HttpHeaders WeatherQuery.HttpLines
open WeatherQuery.RequestLine WeatherQuery.CgiProtocol WeatherQuery.HttpPath

/-! ### The indices of the loops -/

/-- The indices at which `scanWord` reads the buffer. The condition reads before it tests `i`
and `j`; the body reads the same byte again. -/
def wordReads (buf : Bytes) : ℕ → ℕ → List ℕ
  | 0, j => [j]
  | room + 1, j =>
    if !isspace (buf.getD j 0) && j < buf.length then j :: wordReads buf room (j + 1) else [j]

/-- The indices at which `scanWord` writes the word, from `i` on. -/
def wordWrites (buf : Bytes) : ℕ → ℕ → ℕ → List ℕ
  | 0, _, _ => []
  | room + 1, i, j =>
    if !isspace (buf.getD j 0) && j < buf.length then i :: wordWrites buf room (i + 1) (j + 1)
    else []

/-- The indices at which `skipSpace` reads the buffer. -/
def spaceReads (buf : Bytes) : ℕ → ℕ → List ℕ
  | 0, j => [j]
  | fuel + 1, j =>
    if isspace (buf.getD j 0) && j < buf.length then j :: spaceReads buf fuel (j + 1) else [j]

/-- Every index at which the three loops read `buf`. -/
def lineReads (line : Bytes) : List ℕ :=
  wordReads (inBuf line) (bufSize / 10 - 1) 0 ++
    spaceReads (inBuf line) bufSize (methodScan line).2 ++
    wordReads (inBuf line) (bufSize - 1) (urlStart line)

def methodWrites (line : Bytes) : List ℕ := wordWrites (inBuf line) (bufSize / 10 - 1) 0 0

def urlWrites (line : Bytes) : List ℕ :=
  wordWrites (inBuf line) (bufSize - 1) 0 (urlStart line)

/-- The scan of a line keeps to its three buffers, with a byte left for the NUL of the two it
writes. -/
def InBounds (line : Bytes) : Prop :=
  (∀ j ∈ lineReads line, j < bufSize) ∧ (∀ i ∈ methodWrites line, i < bufSize / 10 - 1) ∧
    ∀ i ∈ urlWrites line, i < bufSize - 1

lemma wordReads_eq (buf : Bytes) (room j : ℕ) :
    wordReads buf room j = List.range' j ((scanWord buf room j).1.length + 1) := by
  induction room generalizing j with
  | zero => rfl
  | succ room ih =>
    unfold wordReads scanWord
    split_ifs
    · rw [ih]
      rfl
    · rfl

lemma wordWrites_eq (buf : Bytes) (room i j : ℕ) :
    wordWrites buf room i j = List.range' i (scanWord buf room j).1.length := by
  induction room generalizing i j with
  | zero => rfl
  | succ room ih =>
    unfold wordWrites scanWord
    split_ifs
    · rw [ih]
      rfl
    · rfl

lemma spaceReads_eq (buf : Bytes) (fuel j : ℕ) :
    spaceReads buf fuel j = List.range' j (skipSpace buf fuel j - j + 1) := by
  induction fuel generalizing j with
  | zero => simp [spaceReads, skipSpace]
  | succ fuel ih =>
    unfold spaceReads skipSpace
    split_ifs
    · have hle := HttpArrival.le_skipSpace buf fuel (j + 1)
      have hcount : skipSpace buf fuel (j + 1) - j + 1 =
          skipSpace buf fuel (j + 1) - (j + 1) + 1 + 1 := by omega
      rw [ih, hcount]
      rfl
    · simp

lemma length_scanWord_le (buf : Bytes) (room j : ℕ) : (scanWord buf room j).1.length ≤ room := by
  rw [scanWord_eq]
  exact List.length_take_le _ _

/-- What the loops write always fits. -/
lemma wordWrites_lt (buf : Bytes) (room j : ℕ) : ∀ i ∈ wordWrites buf room 0 j, i < room := by
  intro i hi
  rw [wordWrites_eq, List.mem_range'_1] at hi
  have hle := length_scanWord_le buf room j
  omega

/-- The indices that are read go up to the one the third loop leaves. -/
lemma mem_lineReads_iff (line : Bytes) (j : ℕ) : j ∈ lineReads line ↔ j ≤ (urlScan line).2 := by
  have hmethod : (methodScan line).2 = (methodScan line).1.length := by
    rw [methodScan, scanWord_eq, Nat.zero_add]
  have hurl : (urlScan line).2 = urlStart line + (urlScan line).1.length := by
    rw [urlScan, scanWord_eq]
  have hle : (methodScan line).2 ≤ urlStart line := HttpArrival.le_skipSpace _ _ _
  rw [lineReads, wordReads_eq, spaceReads_eq, wordReads_eq, List.mem_append, List.mem_append,
    List.mem_range'_1, List.mem_range'_1, List.mem_range'_1]
  change (0 ≤ j ∧ j < 0 + ((methodScan line).1.length + 1) ∨
    (methodScan line).2 ≤ j ∧ j < (methodScan line).2 + (urlStart line - (methodScan line).2 + 1)) ∨
    urlStart line ≤ j ∧ j < urlStart line + ((urlScan line).1.length + 1) ↔ _
  omega

lemma lineReads_lt_iff (line : Bytes) (n : ℕ) :
    (∀ j ∈ lineReads line, j < n) ↔ (urlScan line).2 < n := by
  simp only [mem_lineReads_iff]
  exact ⟨fun h => h _ le_rfl, fun h j hj => hj.trans_lt h⟩

lemma urlStart_pos (line : Bytes) : 0 < urlStart line := by
  have hbuf : 0 < (inBuf line).length := by
    rw [inBuf_eq, zeros, List.length_append, List.length_replicate]
    have : bufSize = 1024 := rfl
    omega
  rcases hc : isspace ((inBuf line).getD 0 0) with _ | _
  · have hmethod : 1 ≤ (methodScan line).2 := by
      rw [methodScan, show bufSize / 10 - 1 = 100 + 1 from rfl, HttpArrival.scanWord_go hc hbuf]
      exact HttpArrival.le_scanWord _ _ _
    exact hmethod.trans (HttpArrival.le_skipSpace _ _ _)
  · have hmethod : (methodScan line).2 = 0 := by
      rw [methodScan, HttpArrival.scanWord_stop hc]
    rw [urlStart, hmethod, show bufSize = 1023 + 1 from rfl, skipSpace,
      if_pos (by rw [hc, decide_eq_true hbuf]; rfl)]
    exact HttpArrival.le_skipSpace _ _ _

section Url

variable {line : Bytes} (hlen : line.length < bufSize)
include hlen

/-- A space after the url ends the third loop inside the buffer. -/
lemma urlScan_lt (h : ∃ c ∈ restOf line, isspace c = true) : (urlScan line).2 < bufSize := by
  obtain ⟨k, hdrop⟩ := drop_urlStart hlen
  have hcount := congrArg List.length hdrop
  rw [List.length_drop, length_inBuf hlen, List.length_append] at hcount
  obtain ⟨i, hscan, hall⟩ := urlScan_eq hlen
  have hne : secondWord line ≠ restOf line := by
    intro heq
    obtain ⟨c, hc, hs⟩ := h
    have hno : nonspace c = true := List.mem_takeWhile_imp (heq ▸ hc)
    rw [nonspace, hs] at hno
    cases hno
  have hi : i = 0 := by
    by_contra hi
    exact hne (hall hi)
  have hpre : secondWord line <+: restOf line := List.takeWhile_prefix _
  have hlt : (secondWord line).length < (restOf line).length :=
    lt_of_le_of_ne hpre.length_le fun h => hne (hpre.eq_of_length h)
  rw [hscan, hi]
  dsimp only
  omega

/-- Without one it runs to the end of the buffer. -/
lemma le_urlScan (h : ∀ c ∈ restOf line, isspace c = false) : bufSize ≤ (urlScan line).2 := by
  obtain ⟨k, hdrop⟩ := drop_urlStart hlen
  have hpos := urlStart_pos line
  have hcount := congrArg List.length hdrop
  rw [List.length_drop, length_inBuf hlen] at hcount
  have hword : ((inBuf line).drop (urlStart line)).takeWhile nonspace = restOf line ++ zeros k := by
    rw [hdrop, List.takeWhile_eq_self_iff]
    intro c hc
    rcases List.mem_append.mp hc with hc | hc
    · rw [nonspace, h c hc]
      rfl
    · obtain rfl := List.eq_of_mem_replicate hc
      rfl
  have hbuf : bufSize = 1024 := rfl
  rw [urlScan, scanWord_eq, hword, List.length_take, ← hcount]
  dsimp only
  omega

lemma urlScan_lt_iff : (urlScan line).2 < bufSize ↔ ∃ c ∈ restOf line, isspace c = true := by
  refine ⟨fun hlt => ?_, urlScan_lt hlen⟩
  by_contra hno
  have hle := le_urlScan hlen fun c hc => Bool.eq_false_iff.mpr fun hs => hno ⟨c, hc, hs⟩
  omega

end Url

lemma inBounds_iff {line : Bytes} (hlen : line.length < bufSize) :
    InBounds line ↔ ∃ c ∈ restOf line, isspace c = true := by
  rw [InBounds, lineReads_lt_iff, urlScan_lt_iff hlen]
  exact ⟨And.left, fun h => ⟨h, wordWrites_lt _ _ _, wordWrites_lt _ _ _⟩⟩

/-- **The scan and its buffers.** On what `get_line` leaves, the loops keep to `buf`, `method`
and `url` exactly when some space follows the url, or what stands in its place. -/
theorem scan_inBounds_iff (w : World) :
    InBounds (firstLine w) ↔ ∃ c ∈ restOf (firstLine w), isspace c = true :=
  inBounds_iff (length_firstLine w)

/-- `GET` and nothing else. -/
def bareGet : World where
  avail := lit ['G', 'E', 'T', '\r', '\n']
  later := []
  sched := []
  takes := []
  pos := 0

/-- The third loop finds no space and reads `buf[1024]`. -/
theorem not_inBounds_bareGet :
    1024 ∈ lineReads (firstLine bareGet) ∧ ¬ ∀ w : World, InBounds (firstLine w) := by
  have hline : firstLine bareGet = lit ['G', 'E', 'T', '\n'] := by decide +kernel
  have hread : bufSize ∈ lineReads (firstLine bareGet) := by
    rw [mem_lineReads_iff, ← not_lt, urlScan_lt_iff (length_firstLine _), hline]
    decide
  exact ⟨hread, fun h => absurd ((h bareGet).1 _ hread) (lt_irrefl _)⟩

/-! ### The strings that are built -/

/-- The environment texts of a child of `exe_cgi`, each with the size of its buffer. -/
def childTexts (child : Child) : List (ℕ × Bytes) :=
  (bufSize, requestMethod ++ '='.toUInt8 :: child.method) ::
    (child.query.map fun q => (bufSize / 10, queryStringName ++ '='.toUInt8 :: q)).toList

/-- The path of a request, as it grows, each time with the size of its buffer. -/
def pathTexts (host : Host) (w : World) : List (ℕ × Bytes) :=
  if refused (methodOf w) then []
  else (bufSize, docPath (targetOf w).url) ::
    ((host.stat (docPath (targetOf w).url)).map fun st =>
      (bufSize, servePath st (docPath (targetOf w).url))).toList

/-- All that a request builds: its path, and what its child builds, where it makes one. -/
def texts (host : Host) (fuel : ℕ) (w : World) : List (ℕ × Bytes) :=
  pathTexts host w ++ (childOfLog (acceptRequest host fuel w).log).elim [] childTexts

/-- Every string that is built fits its buffer with its NUL, however far the request gets. -/
def TextsFit (host : Host) (w : World) : Prop :=
  ∀ fuel, ∀ b ∈ texts host fuel w, b.2.length + 1 ≤ b.1

/-! ### The child of a request -/

lemma aside_readHeader (fuel : ℕ) (method : Bytes) : Emits Aside (readHeader fuel method) :=
  (silent_readHeader fuel method).mono fun e he => by cases e <;> trivial

lemma aside_clearHeader (fuel : ℕ) : Emits Aside (clearHeader fuel) := by
  have hrecv (peek : Bool) : Emits Aside (recv peek) :=
    (emits_recv peek).mono fun e he => by cases e <;> trivial
  exact modular_clearHeader modular_emits hrecv (fun _ => emits_out)
    (emits_headerEnd fun _ => trivial) fuel

lemma aside_echoHtml (host : Host) (path : Bytes) (size : ℕ) :
    Emits Aside (echoHtml host path size) := by
  have hsend (asked : Bytes) : Emits Aside (send asked) := emits_send fun _ => trivial
  refine emits_bind (emits_say trivial) fun _ => ?_
  cases host.openFile path with
  | none => exact emits_pure _
  | some content => exact emits_bind (hsend _) fun _ => hsend _

lemma aside_opening (w : World) : ∀ e ∈ opening w, Aside e := by
  intro e he
  rcases List.mem_append.mp he with he | he
  · have hrecv := emits_getLine bufSize w e he
    cases e <;> trivial
  · obtain rfl := List.mem_singleton.mp he
    trivial

section Child

variable {host : Host} {fuel : ℕ} {w : World}

lemma childOfLog_refused (hm : refused (methodOf w) = true) :
    childOfLog (acceptRequest host fuel w).log = none := by
  refine childOfLog_aside fun e he => ?_
  cases acceptRequest_course host fuel w with
  | refused _ _ hlog => exact aside_opening w e (hlog ▸ he)
  | missing hm' => simp [hm'] at hm
  | served hm' => simp [hm'] at hm

lemma childOfLog_missing (hm : refused (methodOf w) = false)
    (hst : host.stat (docPath (targetOf w).url) = none) :
    childOfLog (acceptRequest host fuel w).log = none := by
  refine childOfLog_aside fun e he => ?_
  rw [acceptRequest_run, afterLine, hm] at he
  simp only [Bool.false_eq_true, if_false, answer_missing hst, List.mem_append,
    List.mem_cons] at he
  rcases he with he | rfl | rfl | he
  · exact aside_opening w e he
  · trivial
  · trivial
  · exact aside_clearHeader fuel _ e he

variable {st : Stat} (hm : refused (methodOf w) = false)
  (hst : host.stat (docPath (targetOf w).url) = some st)
include hm hst

lemma childOfLog_static (hcgi : serveCgi st (targetOf w).cgi = false) :
    childOfLog (acceptRequest host fuel w).log = none := by
  rw [childOfLog_acceptRequest hm hst]
  refine childOfLog_aside fun e he => ?_
  rw [serve, if_neg (by simp [hcgi])] at he
  exact emits_bind (aside_clearHeader fuel) (fun _ => aside_echoHtml host _ _) _ e he

/-- A request for a program has a child when its headers were read, their length does not stop it,
and neither a pipe nor the fork fails. -/
lemma childOfLog_cgi (hcgi : serveCgi st (targetOf w).cgi = true) :
    childOfLog (acceptRequest host fuel w).log =
      (readHeader fuel (methodOf w) (getLine bufSize w).st).val.bind fun n =>
        if n ≠ -1 ∧ (host.pipeInput && host.pipeOutput && host.fork) = true then
          some (childOf (servePath st (docPath (targetOf w).url)) (methodOf w)
            (targetOf w).queryString)
        else none := by
  rw [childOfLog_acceptRequest hm hst, serve, if_pos hcgi]
  rcases hn : (readHeader fuel (methodOf w) (getLine bufSize w).st).val with _ | n
  · rw [exeCgi, bind_run_none hn]
    exact childOfLog_aside (aside_readHeader fuel (methodOf w) _)
  · exact childOfLog_exeCgi host _ _ hn

end Child

/-! ### The url and the query of a line -/

/-- The method and the url of a line, and what a GET has before and behind its first `?`. -/
def methodText (line : Bytes) : Bytes := cstr (firstWord line)

def urlText (line : Bytes) : Bytes :=
  if strcasecmp (methodText line) get = 0 then (cstr (secondWord line)).takeWhile (· ≠ '?'.toUInt8)
  else cstr (secondWord line)

def queryText (line : Bytes) : Bytes := ((cstr (secondWord line)).dropWhile (· ≠ '?'.toUInt8)).tail

/-- The bytes that the main page adds to a path. -/
def pageBytes (host : Host) (url : Bytes) : ℕ :=
  (if url.getLast? = some '/'.toUInt8 then 10 else 0) +
    if (host.stat (docPath url)).any (·.isDir) then 11 else 0

/-- A GET that finds its file and whose headers end, on a host where the pipes and the fork
succeed. -/
structure GetForks (host : Host) (w : World) : Prop where
  isGet : strcasecmp (methodText (firstLine w)) get = 0
  found : (host.stat (docPath (urlText (firstLine w)))).isSome = true
  ends : Ends clearHeader (getLine bufSize w).st
  forks : (host.pipeInput && host.pipeOutput && host.fork) = true

/-- The method is refused, or the url is short enough, and the query where it gets to a child. -/
def Short (host : Host) (w : World) : Prop :=
  strcasecmp (methodText (firstLine w)) get < 0 ∨
    (urlText (firstLine w)).length + pageBytes host (urlText (firstLine w)) ≤ 1017 ∧
      (GetForks host w → (queryText (firstLine w)).length ≤ 88)

lemma methodOf_text (w : World) : methodOf w = methodText (firstLine w) := MethodGate.methodOf_eq w

lemma targetOf_text (w : World) :
    targetOf w = cutQuery (methodText (firstLine w)) (cstr (secondWord (firstLine w))) := by
  rw [targetOf, methodOf_text, scanLine_words (length_firstLine w)]

lemma targetOf_get {w : World} (h : strcasecmp (methodText (firstLine w)) get = 0) :
    (targetOf w).url = urlText (firstLine w) ∧
      (targetOf w).queryString = some (queryText (firstLine w)) ∧
      ((targetOf w).cgi = false → queryText (firstLine w) = []) := by
  rw [targetOf_text, cutQuery, if_pos h, urlText, if_pos h, queryText]
  rcases hq : (cstr (secondWord (firstLine w))).dropWhile (· ≠ '?'.toUInt8) with _ | ⟨c, q⟩
  · have hall := List.takeWhile_append_dropWhile (p := fun c => decide (c ≠ '?'.toUInt8))
      (l := cstr (secondWord (firstLine w)))
    rw [hq, List.append_nil] at hall
    exact ⟨hall.symm, rfl, fun _ => rfl⟩
  · exact ⟨rfl, rfl, fun h => absurd h (by simp)⟩

lemma targetOf_other {w : World} (h : ¬ strcasecmp (methodText (firstLine w)) get = 0) :
    (targetOf w).url = urlText (firstLine w) ∧ (targetOf w).queryString = none := by
  rw [targetOf_text, cutQuery, if_neg h, urlText, if_neg h]
  exact ⟨rfl, rfl⟩

/-! ### The lengths -/

lemma length_docPath (url : Bytes) :
    (docPath url).length =
      url.length + (if url.getLast? = some '/'.toUInt8 then 10 else 0) + 6 := by
  have hdoc : htdocs.length = 6 := rfl
  have hpage : mainPage.length = 10 := rfl
  unfold docPath
  by_cases h : url.getLast? = some '/'.toUInt8
  · rw [if_pos ((last_htdocs_iff url).mpr h), if_pos h, List.length_append, List.length_append]
    omega
  · rw [if_neg fun h' => h ((last_htdocs_iff url).mp h'), if_neg h, List.length_append]
    omega

lemma length_servePath (st : Stat) (path : Bytes) :
    (servePath st path).length = path.length + if st.isDir then 11 else 0 := by
  unfold servePath
  split_ifs
  · rw [List.length_append]
    rfl
  · rfl

lemma length_methodText_le (line : Bytes) : (methodText line).length ≤ 101 :=
  (List.takeWhile_prefix _).length_le.trans (List.length_take_le _ _)

/-- The method always fits its buffer, the query up to 88 bytes. -/
lemma childTexts_fit_iff {child : Child} (hm : child.method.length ≤ 101) :
    (∀ b ∈ childTexts child, b.2.length + 1 ≤ b.1) ↔ ∀ q ∈ child.query, q.length ≤ 88 := by
  have hmethod : requestMethod.length = 14 := rfl
  have hname : queryStringName.length = 12 := rfl
  have hbuf : bufSize = 1024 := rfl
  rw [childTexts, List.forall_mem_cons]
  have hfit : (requestMethod ++ '='.toUInt8 :: child.method).length + 1 ≤ bufSize := by
    rw [List.length_append, List.length_cons]
    omega
  rw [and_iff_right hfit]
  rcases child.query with _ | q
  · simp
  · simp only [Option.map_some, Option.toList_some, List.mem_singleton, forall_eq,
      Option.mem_def, Option.some.injEq, forall_eq', List.length_append, List.length_cons]
    omega

section Request

variable {host : Host} {w : World}

lemma targetOf_url (w : World) : (targetOf w).url = urlText (firstLine w) := by
  by_cases hget : strcasecmp (methodText (firstLine w)) get = 0
  · exact (targetOf_get hget).1
  · exact (targetOf_other hget).1

lemma pathTexts_fit_iff (hm : refused (methodOf w) = false) :
    (∀ b ∈ pathTexts host w, b.2.length + 1 ≤ b.1) ↔
      (urlText (firstLine w)).length + pageBytes host (urlText (firstLine w)) ≤ 1017 := by
  have hbuf : bufSize = 1024 := rfl
  have hdoc := length_docPath (urlText (firstLine w))
  simp only [pathTexts, hm, Bool.false_eq_true, if_false, targetOf_url, List.forall_mem_cons,
    pageBytes]
  rcases hst : host.stat (docPath (urlText (firstLine w))) with _ | st
  · simp only [Option.map_none, Option.toList_none, List.not_mem_nil, false_implies, implies_true,
      and_true, Option.any_none, Bool.false_eq_true, if_false]
    omega
  · have hserve := length_servePath st (docPath (urlText (firstLine w)))
    have hdir : (some st).any (·.isDir) = st.isDir := rfl
    simp only [Option.map_some, Option.toList_some, List.mem_singleton, forall_eq, hdir]
    omega

lemma length_methodOf_le (w : World) : (methodOf w).length ≤ 101 :=
  methodOf_text w ▸ length_methodText_le _

/-- The two comparisons of the method agree. -/
lemma both_get_iff (w : World) :
    strcasecmp get (methodOf w) = 0 ↔ strcasecmp (methodText (firstLine w)) get = 0 := by
  rw [methodOf_text]
  exact strcasecmp_comm (by decide) (nulFree_cstr _)

/-- The child of a GET. -/
lemma childOfLog_get (hm : refused (methodOf w) = false)
    (hget : strcasecmp (methodText (firstLine w)) get = 0) {st : Stat}
    (hst : host.stat (docPath (targetOf w).url) = some st)
    (hcgi : serveCgi st (targetOf w).cgi = true) (fuel : ℕ) :
    childOfLog (acceptRequest host fuel w).log =
      if (clearHeader fuel (getLine bufSize w).st).val.isSome = true ∧
          (host.pipeInput && host.pipeOutput && host.fork) = true then
        some ⟨servePath st (docPath (targetOf w).url), methodOf w, some (queryText (firstLine w))⟩
      else none := by
  have hchild : childOf (servePath st (docPath (targetOf w).url)) (methodOf w)
      (targetOf w).queryString =
        ⟨servePath st (docPath (targetOf w).url), methodOf w, some (queryText (firstLine w))⟩ := by
    rw [childOf, if_pos ((both_get_iff w).mpr hget), (targetOf_get hget).2.1]
  rw [childOfLog_cgi hm hst hcgi, hchild, readHeader, if_pos (methodOf_text w ▸ hget)]
  rcases hclear : (clearHeader fuel (getLine bufSize w).st).val with _ | ⟨⟩
  · rw [bind_run_none hclear]
    simp
  · rw [bind_run_some hclear]
    simp

/-- Only the query of a GET can be too long for a child. -/
lemma childTexts_request_iff (hm : refused (methodOf w) = false) :
    (∀ fuel, ∀ b ∈ (childOfLog (acceptRequest host fuel w).log).elim [] childTexts,
        b.2.length + 1 ≤ b.1) ↔
      (GetForks host w → (queryText (firstLine w)).length ≤ 88) := by
  rcases hst : host.stat (docPath (targetOf w).url) with _ | st
  · refine iff_of_true (fun fuel => ?_) fun h => ?_
    · rw [childOfLog_missing hm hst]
      simp
    · have hfound := h.found
      rw [← targetOf_url, hst] at hfound
      cases hfound
  by_cases hget : strcasecmp (methodText (firstLine w)) get = 0
  · rcases hcgi : serveCgi st (targetOf w).cgi with _ | _
    · refine iff_of_true (fun fuel => ?_) fun _ => ?_
      · rw [childOfLog_static hm hst hcgi]
        simp
      · have hnone : (targetOf w).cgi = false :=
          Bool.eq_false_iff.mpr fun h => by simp [serveCgi, h] at hcgi
        rw [(targetOf_get hget).2.2 hnone]
        simp
    · simp only [childOfLog_get hm hget hst hcgi]
      constructor
      · intro hfit h
        obtain ⟨fuel, hends⟩ := h.ends
        have hfit := hfit fuel
        rw [if_pos ⟨hends, h.forks⟩, Option.elim_some,
          childTexts_fit_iff (length_methodOf_le w)] at hfit
        exact hfit _ rfl
      · intro hshort fuel
        split_ifs with hmade
        · rw [Option.elim_some, childTexts_fit_iff (length_methodOf_le w)]
          rintro q hq
          obtain rfl := Option.some.inj hq
          have hfound : (host.stat (docPath (urlText (firstLine w)))).isSome = true := by
            rw [← targetOf_url, hst]
            rfl
          exact hshort ⟨hget, hfound, ⟨fuel, hmade.1⟩, hmade.2⟩
        · simp
  · refine iff_of_true (fun fuel b hb => ?_) fun h => absurd h.isGet hget
    rcases hchild : childOfLog (acceptRequest host fuel w).log with _ | child
    · simp [hchild] at hb
    · rw [hchild, Option.elim_some] at hb
      have hcgi : serveCgi st (targetOf w).cgi = true := by
        by_contra hno
        rw [childOfLog_static hm hst (Bool.eq_false_iff.mpr hno)] at hchild
        cases hchild
      rw [childOfLog_cgi hm hst hcgi] at hchild
      obtain ⟨n, -, hn⟩ := Option.bind_eq_some_iff.mp hchild
      split_ifs at hn
      obtain rfl := Option.some.inj hn
      refine (childTexts_fit_iff (length_methodOf_le w)).mpr (fun q hq => ?_) b hb
      simp [childOf, both_get_iff, hget] at hq

end Request

/-- **Buffers behind the scan.** Every path and environment text of a request fits its buffer
exactly when its method is refused or its url and query are short: with what the main page adds,
at most 1017 bytes of url, and 88 bytes of query where a GET makes a child. -/
theorem textsFit_iff (host : Host) (w : World) : TextsFit host w ↔ Short host w := by
  have hrefused : refused (methodOf w) = true ↔ strcasecmp (methodText (firstLine w)) get < 0 := by
    rw [methodOf_text, MethodGate.refused_iff]
  unfold TextsFit texts Short
  rw [← hrefused]
  rcases hm : refused (methodOf w) with _ | _
  · simp only [List.forall_mem_append, forall_and, forall_const, pathTexts_fit_iff hm,
      childTexts_request_iff hm, Bool.false_eq_true, false_or]
  · simp [pathTexts, hm, childOfLog_refused hm]

/-- `GET /?` and a query of 89 bytes. -/
def longQuery : World where
  avail := lit ['G', 'E', 'T', ' ', '/', '?'] ++ List.replicate 89 'a'.toUInt8 ++
    lit [' ', '\r', '\n', '\r', '\n']
  later := []
  sched := []
  takes := []
  pos := 0

/-- Every path is a program, and a child of it can be made. -/
def programHost : Host := { readyHost with stat := fun _ => some ⟨false, true, true, true, 0⟩ }

/-- The query overruns `query_env` in the child of this request. -/
theorem not_textsFit_longQuery :
    childOfLog (acceptRequest programHost 2 longQuery).log =
        some ⟨lit ['h', 't', 'd', 'o', 'c', 's', '/', 'i', 'n', 'd', 'e', 'x', '.', 'h', 't', 'm',
          'l'], HttpModel.get, some (List.replicate 89 'a'.toUInt8)⟩ ∧
      ¬ ∀ (host : Host) (w : World), TextsFit host w := by
  have hchild : childOfLog (acceptRequest programHost 2 longQuery).log =
      some ⟨lit ['h', 't', 'd', 'o', 'c', 's', '/', 'i', 'n', 'd', 'e', 'x', '.', 'h', 't', 'm',
        'l'], HttpModel.get, some (List.replicate 89 'a'.toUInt8)⟩ := by decide +kernel
  refine ⟨hchild, fun h => ?_⟩
  have hfit := h programHost longQuery 2 (102, queryStringName ++ '='.toUInt8 ::
    List.replicate 89 'a'.toUInt8) (by rw [texts, hchild]; simp [childTexts, bufSize])
  have hname : queryStringName.length = 12 := rfl
  rw [List.length_append, List.length_cons, List.length_replicate] at hfit
  omega

end WeatherQuery.RequestBounds
