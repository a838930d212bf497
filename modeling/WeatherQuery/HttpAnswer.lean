import WeatherQuery.CgiProtocol
import WeatherQuery.Delivery
import WeatherQuery.HttpPath
import WeatherQuery.RequestLine

/-!
What the client gets.

`echo_html` and `exe_cgi` send each part of an answer once and do not look at how much of it was
taken. For a directory without a `/` at its end, the number of bytes handed to `sendfile` is the
size of the directory, not that of its main page.
-/

namespace WeatherQuery.HttpAnswer

open WeatherQuery.CText WeatherQuery.Traced WeatherQuery.HttpModel WeatherQuery.HttpCalls
open WeatherQuery.CgiProtocol WeatherQuery.Delivery WeatherQuery.RequestLine
open WeatherQuery.HttpPath (flatHost)

/-- The bytes the socket accepted. -/
def sentOf (log : List Event) : Bytes :=
  log.flatMap fun
    | .send asked taken => asked.take (taken.getD 0)
    | _ => []

/-! ### The chunks that a program offers -/

/-- The program offers these chunks to the socket. -/
def Offers {α : Type} (p : Io α) (w : World) (chunks : List Bytes) : Prop :=
  sentOf (p w).log = accepted w.takes chunks ∧ (p w).st.takes = w.takes.drop chunks.length

lemma sentOf_append (l l' : List Event) : sentOf (l ++ l') = sentOf l ++ sentOf l' :=
  List.flatMap_append

lemma offers_bind {α β : Type} {p : Io α} {f : α → Io β} {w : World} {a : α}
    {cs ds : List Bytes} (hval : (p w).val = some a) (hp : Offers p w cs)
    (hf : Offers (f a) (p w).st ds) : Offers (p >>= f) w (cs ++ ds) := by
  obtain ⟨hsent, htakes⟩ := hp
  obtain ⟨hsent', htakes'⟩ := hf
  rw [htakes] at hsent' htakes'
  unfold Offers
  rw [bind_run_some hval]
  refine ⟨?_, ?_⟩
  · rw [sentOf_append, hsent, hsent', accepted_append]
  · rw [htakes', List.drop_drop, List.length_append]

lemma offers_send (asked : Bytes) (w : World) : Offers (send asked) w [asked] := by
  rcases ht : w.takes with _ | ⟨t, ts⟩
  · simp [Offers, send, ht, sentOf, accepted]
  · rcases t with _ | n
    · simp [Offers, send, ht, sentOf, accepted]
    · have htake : asked.take (min asked.length n) = asked.take n := by
        rw [List.take_eq_take_iff, min_assoc, min_comm n, ← min_assoc, min_self]
      simp [Offers, send, ht, sentOf, accepted, htake]

lemma offers_send_bind {α : Type} {f : Unit → Io α} {asked : Bytes} {w : World} {ds : List Bytes}
    (hf : Offers (f ()) (send asked w).st ds) : Offers (send asked >>= f) w (asked :: ds) :=
  offers_bind (send_returns asked w) (offers_send asked w) hf

/-! ### Programs that send nothing -/

/-- The program offers nothing, whatever it finds. -/
def Quiet {α : Type} (p : Io α) : Prop := ∀ w, Offers p w []

lemma quiet_pure {α : Type} (a : α) : Quiet (pure a : Io α) := fun w => by simp [Offers, sentOf]

lemma quiet_bind {α β : Type} {p : Io α} {f : α → Io β} (hp : Quiet p) (hf : ∀ a, Quiet (f a)) :
    Quiet (p >>= f) := by
  intro w
  rcases hval : (p w).val with _ | a
  · have hp := hp w
    unfold Offers at hp ⊢
    rwa [bind_run_none hval]
  · exact offers_bind hval (hp w) (hf a _)

lemma offers_quiet_bind {α β : Type} {p : Io α} {f : α → Io β} {w : World} {a : α}
    {ds : List Bytes} (hval : (p w).val = some a) (hp : Quiet p) (hf : Offers (f a) (p w).st ds) :
    Offers (p >>= f) w ds := offers_bind hval (hp w) hf

lemma modular_quiet : Modular fun _ => Quiet := ⟨quiet_pure, quiet_bind⟩

lemma quiet_out (α : Type) : Quiet (fun w => ⟨none, w, []⟩ : Io α) :=
  fun w => by simp [Offers, sentOf]

lemma quiet_recv (peek : Bool) : Quiet (recv peek) := by
  intro w
  rcases ha : w.arrive.avail with _ | ⟨c, r⟩
  · simp [Offers, recv, ha, sentOf, HttpArrival.arrive_takes]
  · cases peek <;> simp [Offers, recv, ha, sentOf, HttpArrival.arrive_takes]

lemma quiet_headerEnd : Quiet headerEnd := fun w => by simp [Offers, headerEnd, sentOf]

lemma quiet_getLine (maxLen : ℕ) : Quiet (getLine maxLen) :=
  modular_fillLine modular_quiet quiet_recv _

lemma quiet_clearHeader (fuel : ℕ) : Quiet (clearHeader fuel) :=
  modular_clearHeader modular_quiet quiet_recv quiet_out quiet_headerEnd fuel

lemma quiet_readHeader (fuel : ℕ) (method : Bytes) : Quiet (readHeader fuel method) :=
  modular_readHeader modular_quiet quiet_recv quiet_out quiet_headerEnd fuel method

lemma quiet_relayBody (n : ℕ) (c : UInt8) : Quiet (relayBody n c) := by
  induction n generalizing c with
  | zero => exact quiet_pure _
  | succ n ih =>
    refine quiet_bind (quiet_recv false) fun got => ?_
    refine quiet_bind (fun w => by simp [Offers, sentOf]) fun _ => ?_
    exact quiet_bind (ih _) fun _ => quiet_pure _

/-! ### The two kinds of answer -/

/-- An entry that is no `send` changes nothing. -/
lemma offers_say {α : Type} {e : Event} (he : ∀ asked taken, e ≠ .send asked taken)
    {f : Unit → Io α} {w : World} {cs : List Bytes} (hf : Offers (f ()) w cs) :
    Offers (say e >>= f) w cs := by
  have hquiet : sentOf [e] = [] := by
    cases e with
    | send asked taken => exact absurd rfl (he asked taken)
    | _ => rfl
  have hsay : Quiet (say e) := fun w => ⟨by simp [hquiet], rfl⟩
  exact offers_quiet_bind rfl hsay hf

lemma offers_relayOutput (output : Bytes) (w : World) :
    Offers (relayOutput output) w (output.map ([·])) := by
  induction output generalizing w with
  | nil => exact quiet_pure _ w
  | cons c output ih => exact offers_send_bind (ih _)

lemma offers_echoHtml {host : Host} {path content : Bytes}
    (hopen : host.openFile path = some content) (size : ℕ) (w : World) :
    Offers (echoHtml host path size) w
      [okHeader, content.take (min (size % 2 ^ 32) sendfileMax)] := by
  unfold echoHtml
  refine offers_say (by simp) ?_
  rw [hopen]
  exact offers_send_bind (offers_send _ _)

/-- The CGI's answer: the header, and its output byte by byte. -/
lemma offers_exeCgi {host : Host}
    (hhost : (host.pipeInput && host.pipeOutput && host.fork) = true) {fuel : ℕ} (path : Bytes)
    {method : Bytes} (query : Option Bytes) {w : World} {n : ℤ}
    (hn : (readHeader fuel method w).val = some n) (hne : n ≠ -1) :
    Offers (exeCgi host fuel path method query) w
      (okHeader :: (host.cgi (childOf path method query)
        (stdinOf (exeCgi host fuel path method query w).log)).map ([·])) := by
  obtain ⟨body, hbody, hwrote⟩ :=
    stdinOf_relay host (childOf path method query) n (atBody fuel method w)
  rw [stdinOf_exeCgi host path query hn hne hhost, hwrote]
  unfold exeCgi
  refine offers_quiet_bind hn (quiet_readHeader fuel method) ?_
  refine offers_say (by simp) ?_
  rw [if_neg hne, hhost]
  refine offers_send_bind ?_
  refine offers_say (by simp) ?_
  exact offers_quiet_bind hbody (quiet_relayBody _ _) (offers_relayOutput _ _)

/-! ### The whole request -/

/-- An entry of no child. -/
def Aside : Event → Prop
  | .write _ | .execl _ => False
  | _ => True

lemma childOfLog_aside {l : List Event} (hl : ∀ e ∈ l, Aside e) : childOfLog l = none := by
  refine List.findSome?_eq_none_iff.mpr fun e he => ?_
  have haside := hl e he
  cases e <;> first | rfl | exact absurd haside id

lemma stdinOf_aside {l : List Event} (hl : ∀ e ∈ l, Aside e) : stdinOf l = [] := by
  refine List.filterMap_eq_nil_iff.mpr fun e he => ?_
  have haside := hl e he
  cases e <;> first | rfl | exact absurd haside id

section Served

variable {host : Host} {fuel : ℕ} {w : World} {st : Stat}
  (hm : refused (methodOf w) = false) (hst : host.stat (docPath (targetOf w).url) = some st)
include hm hst

/-- A request that returned has served its file. -/
lemma serve_returns (hret : (acceptRequest host fuel w).val.isSome = true) :
    (serve host fuel st (methodOf w) (docPath (targetOf w).url) (targetOf w)
      (getLine bufSize w).st).val = some () := by
  rw [acceptRequest_run, afterLine, hm] at hret
  rcases hval : (serve host fuel st (methodOf w) (docPath (targetOf w).url) (targetOf w)
    (getLine bufSize w).st).val with _ | ⟨⟩
  · simp [answer, hst, bind_run_none hval] at hret
  · rfl

lemma offers_acceptRequest (hret : (acceptRequest host fuel w).val.isSome = true)
    {cs : List Bytes}
    (hserve : Offers (serve host fuel st (methodOf w) (docPath (targetOf w).url) (targetOf w))
      (getLine bufSize w).st cs) : Offers (acceptRequest host fuel) w cs := by
  obtain ⟨line, hline⟩ := getLine_returns w
  have hfirst : firstLine w = line := by simp [firstLine, hline]
  have hval := serve_returns hm hst hret
  unfold acceptRequest
  refine offers_quiet_bind hline (quiet_getLine _) ?_
  refine offers_say (by simp) ?_
  have hmethod : (scanLine line).1 = methodOf w := by rw [methodOf, hfirst]
  have htarget : cutQuery (methodOf w) (scanLine line).2 = targetOf w := by rw [targetOf, hfirst]
  rw [hmethod, htarget, hm]
  unfold answer
  refine offers_say (by simp) (offers_say (by simp) ?_)
  rw [hst]
  have hclose : Offers (say Event.close : Io Unit)
      (serve host fuel st (methodOf w) (docPath (targetOf w).url) (targetOf w)
        (getLine bufSize w).st).st [] := by simp [Offers, sentOf]
  simpa using offers_bind (f := fun _ => say Event.close) hval hserve hclose

variable (fuel) in
/-- Before and after the answer, the request has nothing to do with a CGI. -/
lemma acceptRequest_log :
    ∃ before after, (∀ e ∈ before, Aside e) ∧ (∀ e ∈ after, Aside e) ∧
      (acceptRequest host fuel w).log =
        before ++ (serve host fuel st (methodOf w) (docPath (targetOf w).url) (targetOf w)
          (getLine bufSize w).st).log ++ after := by
  refine ⟨opening w ++ [.cut (targetOf w).url (targetOf w).queryString,
    .stat (docPath (targetOf w).url)],
    if (answer host fuel (methodOf w) (targetOf w) (getLine bufSize w).st).val.isSome then
      [.close] else [], ?_, ?_, ?_⟩
  · intro e he
    simp only [opening, List.mem_append, List.mem_cons, List.not_mem_nil, or_false] at he
    rcases he with (he | rfl) | rfl | rfl
    · have hrecv := emits_getLine bufSize w e he
      cases e with
      | recv peek got => trivial
      | _ => exact absurd hrecv id
    all_goals trivial
  · intro e he
    split_ifs at he
    · obtain rfl := List.mem_singleton.mp he
      trivial
    · cases he
  · rw [acceptRequest_run, afterLine, hm]
    refine (congrArg (opening w ++ ·) (answer_served hst fuel (methodOf w) _)).trans ?_
    simp

lemma childOfLog_acceptRequest :
    childOfLog (acceptRequest host fuel w).log =
      childOfLog (serve host fuel st (methodOf w) (docPath (targetOf w).url) (targetOf w)
        (getLine bufSize w).st).log := by
  obtain ⟨before, after, hbefore, hafter, hlog⟩ := acceptRequest_log fuel hm hst
  have hnone := childOfLog_aside hbefore
  have hnone' := childOfLog_aside hafter
  unfold childOfLog at hnone hnone' ⊢
  rw [hlog, List.findSome?_append, List.findSome?_append, hnone, hnone', Option.none_or,
    Option.or_none]

lemma stdinOf_acceptRequest :
    stdinOf (acceptRequest host fuel w).log =
      stdinOf (serve host fuel st (methodOf w) (docPath (targetOf w).url) (targetOf w)
        (getLine bufSize w).st).log := by
  obtain ⟨before, after, hbefore, hafter, hlog⟩ := acceptRequest_log fuel hm hst
  rw [hlog, stdinOf_append, stdinOf_append, stdinOf_aside hbefore, stdinOf_aside hafter,
    List.nil_append, List.append_nil]

/-! ### Static files -/

/-- A file goes out in two parts: the header, and as much of it as `sendfile` was told. -/
lemma sentOf_static (hret : (acceptRequest host fuel w).val.isSome = true)
    (hcgi : serveCgi st (targetOf w).cgi = false) {content : Bytes}
    (hopen : host.openFile (servePath st (docPath (targetOf w).url)) = some content) :
    sentOf (acceptRequest host fuel w).log =
      accepted w.takes [okHeader, content.take (min (st.size % 2 ^ 32) sendfileMax)] := by
  have hval := serve_returns hm hst hret
  have hserve : serve host fuel st (methodOf w) (docPath (targetOf w).url) (targetOf w) =
      clearHeader fuel >>= fun _ =>
        echoHtml host (servePath st (docPath (targetOf w).url)) st.size :=
    if_neg (by simp [hcgi])
  rw [hserve] at hval
  rcases hclear : (clearHeader fuel (getLine bufSize w).st).val with _ | ⟨⟩
  · rw [bind_run_none hclear] at hval
    cases hval
  · refine (offers_acceptRequest hm hst hret ?_).1
    rw [hserve]
    exact offers_quiet_bind hclear (quiet_clearHeader fuel) (offers_echoHtml hopen _ _)

omit hm hst in
lemma echoHtml_returns (path : Bytes) (size : ℕ) (w : World) :
    (echoHtml host path size w).val = some () := by
  unfold echoHtml
  rw [say_bind_run]
  rcases host.openFile path with _ | content
  · rfl
  · dsimp only
    rw [bind_run_some (send_returns _ _)]
    exact send_returns _ _

/-- A file is served once the headers are read. -/
lemma static_returns (hcgi : serveCgi st (targetOf w).cgi = false)
    (hclear : (clearHeader fuel (getLine bufSize w).st).val = some ()) :
    (acceptRequest host fuel w).val.isSome = true := by
  have hval : (serve host fuel st (methodOf w) (docPath (targetOf w).url) (targetOf w)
      (getLine bufSize w).st).val = some () := by
    rw [serve, if_neg (by simp [hcgi]), bind_run_some hclear]
    exact echoHtml_returns _ _ _
  rw [acceptRequest_run, afterLine, hm]
  simp [answer, hst, bind_run_some hval]

/-! ### CGI programs -/

/-- The output of a CGI goes out byte by byte behind the header. -/
lemma sentOf_cgi (hret : (acceptRequest host fuel w).val.isSome = true)
    (hcgi : serveCgi st (targetOf w).cgi = true) {child : Child}
    (hchild : childOfLog (acceptRequest host fuel w).log = some child) :
    sentOf (acceptRequest host fuel w).log =
      accepted w.takes (okHeader ::
        (host.cgi child (stdinOf (acceptRequest host fuel w).log)).map ([·])) := by
  have hval := serve_returns hm hst hret
  have hserve : serve host fuel st (methodOf w) (docPath (targetOf w).url) (targetOf w) =
      exeCgi host fuel (servePath st (docPath (targetOf w).url)) (methodOf w)
        (targetOf w).queryString := if_pos hcgi
  rw [childOfLog_acceptRequest hm hst, hserve] at hchild
  rw [stdinOf_acceptRequest hm hst, hserve]
  rw [hserve] at hval
  rcases hn : (readHeader fuel (methodOf w) (getLine bufSize w).st).val with _ | n
  · rw [exeCgi, bind_run_none hn] at hval
    cases hval
  · rw [childOfLog_exeCgi host _ _ hn] at hchild
    split_ifs at hchild with hrun
    obtain rfl := Option.some.inj hchild
    refine (offers_acceptRequest hm hst hret ?_).1
    rw [hserve]
    exact offers_exeCgi hrun.2 _ _ hn hrun.1

end Served

/-! ### Delivery -/

/-- A request that closes its socket has returned and found its file. -/
lemma of_close {host : Host} {fuel : ℕ} {w : World}
    (hclose : Event.close ∈ (acceptRequest host fuel w).log) :
    (acceptRequest host fuel w).val.isSome = true ∧ refused (methodOf w) = false := by
  obtain ⟨es, hes, hlog⟩ := acceptRequest_closes host fuel w
  have hend : ((acceptRequest host fuel w).val.isSome && Served host w) = true := by
    by_contra hno
    rw [hlog, if_neg hno, List.append_nil] at hclose
    exact hes _ hclose rfl
  obtain ⟨hval, hserved⟩ := Bool.and_eq_true_iff.mp hend
  have hm := (Bool.and_eq_true_iff.mp hserved).1
  exact ⟨hval, by simpa using hm⟩

section Deliver

variable (host : Host) (fuel : ℕ) (w : World)

/-- The request answers with this file. -/
structure Answers (st : Stat) (content : Bytes) : Prop where
  found : host.stat (docPath (targetOf w).url) = some st
  plain : serveCgi st (targetOf w).cgi = false
  opened : host.openFile (servePath st (docPath (targetOf w).url)) = some content

/-- The request answers with the output of this CGI. -/
structure Runs (st : Stat) (child : Child) : Prop where
  found : host.stat (docPath (targetOf w).url) = some st
  cgi : serveCgi st (targetOf w).cgi = true
  ran : childOfLog (acceptRequest host fuel w).log = some child

/-- What the CGI wrote, for the body it was given. -/
def outputOf (child : Child) : Bytes := host.cgi child (stdinOf (acceptRequest host fuel w).log)

/-- The socket accepted the header and the whole file or output, and nothing else. -/
def Delivered : Prop :=
  (∀ st content, Answers host w st content →
      sentOf (acceptRequest host fuel w).log = okHeader ++ content) ∧
    ∀ st child, Runs host fuel w st child →
      sentOf (acceptRequest host fuel w).log = okHeader ++ outputOf host fuel w child

/-- **Delivery of an answer.** When a request closes its socket, a file was delivered exactly
when the socket took the header and the file in one call each, and the size that was handed over
covers the file; and the output of a CGI exactly when every one of its sends was taken. -/
theorem delivered_iff (hclose : Event.close ∈ (acceptRequest host fuel w).log) :
    (∀ st content, Answers host w st content →
        (sentOf (acceptRequest host fuel w).log = okHeader ++ content ↔
          TakesAll w.takes [okHeader, content] ∧
            content.length ≤ min (st.size % 2 ^ 32) sendfileMax)) ∧
      ∀ st child, Runs host fuel w st child →
        (sentOf (acceptRequest host fuel w).log = okHeader ++ outputOf host fuel w child ↔
          TakesAll w.takes (okHeader :: (outputOf host fuel w child).map ([·]))) := by
  obtain ⟨hret, hm⟩ := of_close hclose
  constructor
  · rintro st content ⟨hst, hcgi, hopen⟩
    rw [sentOf_static hm hst hret hcgi hopen, accepted_cut_iff]
  · rintro st child ⟨hst, hcgi, hchild⟩
    have hflat : okHeader ++ outputOf host fuel w child =
        (okHeader :: (outputOf host fuel w child).map ([·])).flatten := by
      rw [List.flatten_cons, ← List.flatMap_def, List.flatMap_singleton']
    rw [sentOf_cgi hm hst hret hcgi hchild, hflat, ← accepted_eq_iff]
    rfl

end Deliver

/-- `GET /a`, and a socket that takes so much of each send. -/
def getFile (takes : List (Option ℕ)) : World where
  avail := lit ['G', 'E', 'T', ' ', '/', 'a', ' ', '\r', '\n', '\r', '\n']
  later := []
  sched := []
  takes := takes
  pos := 0

lemma answers_getFile (takes : List (Option ℕ))
    (htarget : targetOf (getFile takes) = ⟨lit ['/', 'a'], some [], false⟩) :
    Answers flatHost (getFile takes) ⟨false, false, false, false, 1⟩ [0] :=
  ⟨rfl, by rw [htarget]; rfl, rfl⟩

theorem delivered_iff_getFile :
    sentOf (acceptRequest flatHost 1 (getFile [some 100])).log = okHeader ++ [0] :=
  ((delivered_iff flatHost 1 (getFile [some 100]) (by decide +kernel)).1 _ _
    (answers_getFile _ (by decide +kernel))).mpr ⟨⟨by decide, trivial⟩, by decide⟩

/-- Five bytes of the header are taken, and the file follows them. -/
theorem not_delivered_getFile :
    sentOf (acceptRequest flatHost 1 (getFile [some 5])).log = okHeader.take 5 ++ [0] ∧
      ¬ ∀ (host : Host) (fuel : ℕ) (w : World),
        Event.close ∈ (acceptRequest host fuel w).log → Delivered host fuel w := by
  have hsent : sentOf (acceptRequest flatHost 1 (getFile [some 5])).log =
      okHeader.take 5 ++ [0] := by decide +kernel
  refine ⟨hsent, fun h => ?_⟩
  have hanswers := answers_getFile [some 5] (by decide +kernel)
  have hall := (h flatHost 1 (getFile [some 5]) (by decide +kernel)).1 _ _ hanswers
  rw [hsent] at hall
  exact absurd hall (by decide)

/-! ### Directories

The paths here have no bound. A url of more than 1006 bytes makes one that is too long for `path`,
and what is said of it below the program does not do; which urls fit is the subject of
`RequestBounds`.
-/

/-- A directory with a main page that is a plain file. -/
structure Directory (host : Host) where
  url : Bytes
  dir : Stat
  page : Stat
  content : Bytes
  url_last : url.getLast? ≠ some '/'.toUInt8
  dir_stat : host.stat (htdocs ++ url) = some dir
  dir_isDir : dir.isDir = true
  page_stat : host.stat (htdocs ++ url ++ '/'.toUInt8 :: mainPage) = some page
  page_isFile : page.isDir = false
  page_plain : page.ixusr = false ∧ page.ixgrp = false ∧ page.ixoth = false
  page_open : host.openFile (htdocs ++ url ++ '/'.toUInt8 :: mainPage) = some content
  page_size : page.size = content.length

/-- A GET for a url without a query, with headers that end, from a client that takes all. -/
structure GetFor (fuel : ℕ) (w : World) (url : Bytes) where
  r : WholeLine
  isGet : r.method.map tolower = get.map tolower
  path_eq : r.path = url
  query_eq : r.query = none
  line_eq : firstLine w = r.line
  header : (clearHeader fuel (getLine bufSize w).st).val = some ()
  takes_eq : w.takes = []

section Directories

variable {fuel : ℕ} {w : World} {url : Bytes} (q : GetFor fuel w url)
include q

lemma GetFor.targetOf_eq : targetOf w = ⟨url, some [], false⟩ := by
  rw [targetOf, methodOf, q.line_eq, q.r.cutQuery_get q.isGet, q.path_eq, q.query_eq]
  rfl

lemma GetFor.not_refused : refused (methodOf w) = false := by
  have hcmp : strcasecmp q.r.method get = 0 := (q.r.strcasecmp_iff (by decide)).mpr q.isGet
  rw [methodOf, q.line_eq, q.r.scanLine_eq]
  simp [refused, hcmp]

/-- The file of a plain path goes out as far as the size that `stat` gave. -/
lemma GetFor.sentOf_eq {host : Host} {st : Stat} {content : Bytes}
    (hst : host.stat (docPath url) = some st) (hcgi : serveCgi st false = false)
    (hopen : host.openFile (servePath st (docPath url)) = some content) :
    sentOf (acceptRequest host fuel w).log =
      okHeader ++ content.take (min (st.size % 2 ^ 32) sendfileMax) := by
  have htarget := q.targetOf_eq
  have hurl : (targetOf w).url = url := by rw [htarget]
  have hcgi : serveCgi st (targetOf w).cgi = false := by rw [htarget, hcgi]
  rw [← hurl] at hst hopen
  have hret := static_returns q.not_refused hst hcgi q.header
  rw [sentOf_static q.not_refused hst hret hcgi hopen, q.takes_eq, accepted_all]
  simp

end Directories

lemma docPath_dir {url : Bytes} (h : url.getLast? ≠ some '/'.toUInt8) :
    docPath url = htdocs ++ url :=
  if_neg fun hlast => h ((HttpPath.last_htdocs_iff url).mp hlast)

lemma docPath_slash (url : Bytes) :
    docPath (url ++ ['/'.toUInt8]) = htdocs ++ url ++ '/'.toUInt8 :: mainPage := by
  rw [docPath, if_pos (by simp)]
  simp

section Urls

variable {host : Host} (d : Directory host) {fuel : ℕ} {w : World}

/-- Without a `/` the page goes out up to the size of the directory. -/
lemma Directory.sentOf_bare (q : GetFor fuel w d.url) :
    sentOf (acceptRequest host fuel w).log =
      okHeader ++ d.content.take (min (d.dir.size % 2 ^ 32) sendfileMax) := by
  have hpath : servePath d.dir (docPath d.url) = htdocs ++ d.url ++ '/'.toUInt8 :: mainPage := by
    rw [servePath, if_pos d.dir_isDir, docPath_dir d.url_last]
  exact q.sentOf_eq (by rw [docPath_dir d.url_last]; exact d.dir_stat)
    (by simp [serveCgi, d.dir_isDir]) (by rw [hpath]; exact d.page_open)

/-- With a `/` it goes out up to its own size. -/
lemma Directory.sentOf_slash (q : GetFor fuel w (d.url ++ ['/'.toUInt8])) :
    sentOf (acceptRequest host fuel w).log =
      okHeader ++ d.content.take (min (d.page.size % 2 ^ 32) sendfileMax) := by
  have hpath : servePath d.page (docPath (d.url ++ ['/'.toUInt8])) =
      htdocs ++ d.url ++ '/'.toUInt8 :: mainPage := by
    rw [servePath, if_neg (by simp [d.page_isFile]), docPath_slash]
  obtain ⟨husr, hgrp, hoth⟩ := d.page_plain
  exact q.sentOf_eq (by rw [docPath_slash]; exact d.page_stat)
    (by simp [serveCgi, d.page_isFile, husr, hgrp, hoth]) (by rw [hpath]; exact d.page_open)

end Urls

/-- **Directories.** The two urls of a directory bring the header and the whole main page exactly
when the page is no longer than the size of the directory, as an `unsigned int`, and than one
`sendfile` moves. -/
theorem directory_iff (host : Host) (d : Directory host) (fuel : ℕ) (w w' : World)
    (q : GetFor fuel w d.url) (q' : GetFor fuel w' (d.url ++ ['/'.toUInt8])) :
    (sentOf (acceptRequest host fuel w).log = okHeader ++ d.content ∧
        sentOf (acceptRequest host fuel w').log = okHeader ++ d.content) ↔
      d.content.length ≤ d.dir.size % 2 ^ 32 ∧ d.content.length ≤ 0x7ffff000 := by
  have hmax : sendfileMax = 0x7ffff000 := rfl
  rw [d.sentOf_bare q, d.sentOf_slash q', List.append_cancel_left_eq, List.append_cancel_left_eq,
    List.take_eq_self_iff, List.take_eq_self_iff, d.page_size]
  omega

/-- A directory `d` of that size, with that main page. -/
def pageHost (size : ℕ) (content : Bytes) : Host where
  stat := fun path =>
    if path = htdocs ++ lit ['/', 'd'] then some ⟨true, true, true, true, size⟩
    else some ⟨false, false, false, false, content.length⟩
  openFile := fun _ => some content
  pipeInput := false
  pipeOutput := false
  fork := false
  cgi := fun _ _ => []

def pageDir (size : ℕ) (content : Bytes) : Directory (pageHost size content) where
  url := lit ['/', 'd']
  dir := ⟨true, true, true, true, size⟩
  page := ⟨false, false, false, false, content.length⟩
  content := content
  url_last := by decide
  dir_stat := by simp only [pageHost, if_pos]
  dir_isDir := rfl
  page_stat := by
    have hne : htdocs ++ lit ['/', 'd'] ++ '/'.toUInt8 :: mainPage ≠ htdocs ++ lit ['/', 'd'] := by
      decide
    simp only [pageHost, if_neg hne]
  page_isFile := rfl
  page_plain := ⟨rfl, rfl, rfl⟩
  page_open := rfl
  page_size := rfl

/-- `GET url `, and no headers. -/
def plainGet (url : Bytes) : World where
  avail := get ++ 32 :: url ++ lit [' ', '\r', '\n', '\r', '\n']
  later := []
  sched := []
  takes := []
  pos := 0

/-- Its line. -/
def plainParts (url : Bytes) : Parts where
  method := get
  gap := [32]
  path := url
  query := none
  gap' := [32]
  rest := [lf]

lemma length_plainParts {url : Bytes} (hlen : url.length ≤ 1000) :
    (plainParts url).line.length ≤ 1023 := by
  simp only [plainParts, Parts.line, Parts.asked, HttpModel.get, lit, List.length_append,
    List.length_map, List.length_cons, List.length_nil, Option.elim_none]
  omega

lemma nulFree_plainParts {url : Bytes} (hnul : NulFree url) : NulFree (plainParts url).line := by
  have hget : NulFree get := by decide
  have hgap : NulFree [32] := by decide
  have hnone : NulFree [] := by decide
  have hend : NulFree [lf] := by decide
  exact hget.append (hgap.append ((hnul.append hnone).append (hgap.append hend)))

lemma isspace_gap : ∀ c ∈ [(32 : UInt8)], isspace c = true := List.all_eq_true.mp (by decide)

def plainLine (url : Bytes) (hne : url ≠ []) (hlen : url.length ≤ 1000)
    (hword : ∀ c ∈ url, isspace c = false ∧ c ≠ '?'.toUInt8) (hnul : NulFree url) :
    WholeLine where
  toParts := plainParts url
  isMethod := .inl rfl
  gap_ne := List.cons_ne_nil _ _
  gap_space := isspace_gap
  path_ne := hne
  path_word := hword
  query_word := fun _ hq => absurd hq (Option.not_mem_none _)
  gap'_ne := List.cons_ne_nil _ _
  gap'_space := isspace_gap
  fits := length_plainParts hlen
  nulFree := nulFree_plainParts hnul

def bareLine : WholeLine :=
  plainLine (lit ['/', 'd']) (by decide) (by decide) (by simp [lit, isspace]; decide)
    (by decide)

def slashLine : WholeLine :=
  plainLine (lit ['/', 'd', '/']) (by decide) (by decide) (by simp [lit, isspace]; decide)
    (by decide)

def bareGet : GetFor 1 (plainGet (lit ['/', 'd'])) (lit ['/', 'd']) where
  r := bareLine
  isGet := rfl
  path_eq := rfl
  query_eq := rfl
  line_eq := by decide +kernel
  header := by decide +kernel
  takes_eq := rfl

def slashGet : GetFor 1 (plainGet (lit ['/', 'd', '/'])) (lit ['/', 'd', '/']) where
  r := slashLine
  isGet := rfl
  path_eq := rfl
  query_eq := rfl
  line_eq := by decide +kernel
  header := by decide +kernel
  takes_eq := rfl

/-- A page of two bytes in a directory of 4096. -/
theorem directory_iff_small :
    sentOf (acceptRequest (pageHost 4096 [72, 105]) 1 (plainGet (lit ['/', 'd']))).log =
        okHeader ++ [72, 105] ∧
      sentOf (acceptRequest (pageHost 4096 [72, 105]) 1 (plainGet (lit ['/', 'd', '/']))).log =
        okHeader ++ [72, 105] :=
  (directory_iff _ (pageDir 4096 [72, 105]) 1 _ _ bareGet slashGet).mpr ⟨by decide, by decide⟩

/-- A page of 4097 bytes. -/
def longPage : Bytes := List.replicate 4097 'a'.toUInt8

/-- The last byte of the page is not sent for the url without a `/`. -/
theorem not_directory_longPage :
    ¬ ∀ (host : Host) (d : Directory host) (fuel : ℕ) (w w' : World),
      GetFor fuel w d.url → GetFor fuel w' (d.url ++ ['/'.toUInt8]) →
        sentOf (acceptRequest host fuel w).log = okHeader ++ d.content ∧
          sentOf (acceptRequest host fuel w').log = okHeader ++ d.content := by
  intro h
  have hall := (h _ (pageDir 4096 longPage) 1 _ _ bareGet slashGet).1
  have hcut := (pageDir 4096 longPage).sentOf_bare bareGet
  have hpage : (pageDir 4096 longPage).content.length = 4097 := List.length_replicate
  have hsize : (pageDir 4096 longPage).dir.size = 4096 := rfl
  have hmax : sendfileMax = 0x7ffff000 := rfl
  rw [hall, List.append_cancel_left_eq, eq_comm, List.take_eq_self_iff, hpage, hsize, hmax] at hcut
  omega

end WeatherQuery.HttpAnswer
