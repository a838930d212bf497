import WeatherQuery.HttpCalls

/-!
When the bytes of a request arrive.

`get_line` takes a byte that is not there yet for the end of the line, and the relay of the
body does not look at what `recv` answers. So a request that arrives in two parts can be another
request. As long as every `recv` finds its byte, the arrival makes no difference.
-/

namespace WeatherQuery.HttpArrival

open WeatherQuery.CText WeatherQuery.Traced WeatherQuery.HttpModel
open WeatherQuery.HttpCalls

/-- A byte of a word: no space and no NUL. -/
def Word (c : UInt8) : Prop := isspace c = false ∧ c ≠ 0

/-- A byte of a line. -/
def Inline (c : UInt8) : Prop := c ≠ cr ∧ c ≠ lf

def crlf : Bytes := [cr, lf]

/-- A complete request. -/
structure Request where
  method : Bytes
  target : Bytes
  version : Bytes
  headers : List Bytes
  body : Bytes
  method_ne : method ≠ []
  method_word : ∀ c ∈ method, Word c
  target_ne : target ≠ []
  target_word : ∀ c ∈ target, Word c
  version_inline : ∀ c ∈ version, Inline c
  headers_ne : ∀ h ∈ headers, h ≠ []
  headers_inline : ∀ h ∈ headers, ∀ c ∈ h, Inline c

/-- The stream of a request. -/
def Request.bytes (q : Request) : Bytes :=
  q.method ++ 32 :: q.target ++ 32 :: q.version ++ crlf ++
    q.headers.flatMap (· ++ crlf) ++ crlf ++ q.body

/-- How a stream arrives: so many bytes before the worker starts, then so many before each
`recv`. -/
structure Schedule where
  first : ℕ
  first_pos : 1 ≤ first
  sched : List ℕ

/-- The client's end as the worker starts. -/
def Schedule.world (s : Schedule) (bytes : Bytes) (takes : List (Option ℕ)) : World where
  avail := bytes.take s.first
  later := bytes.drop s.first
  sched := s.sched
  takes := takes
  pos := 0

/-- The entries of the trace that tell what a request obtained. -/
def obtained : Event → Bool
  | .scanned _ _ | .cut _ _ | .headerEnd _ | .contentLength _ | .write _ => true
  | .recv _ _ | .send _ _ | .close | .stat _ | .openFile _ | .execl _ => false

/-- The method, url, query string, content length, the end of the headers and the bytes written
to the CGI's stdin, as far as the request got. -/
def outcome (r : Ran World Event Unit) : List Event := r.log.filter obtained

/-- The entry is no `recv` on an empty socket. -/
def NotDry (e : Event) : Prop := ∀ peek, e ≠ .recv peek none

instance (e : Event) : Decidable (NotDry e) :=
  inferInstanceAs (Decidable (∀ peek, e ≠ .recv peek none))

/-! ### Without a dry `recv` -/

/-- Two ends that differ only in how much has arrived. -/
structure SameStream (w w' : World) : Prop where
  bytes : w.avail ++ w.later = w'.avail ++ w'.later
  takes : w.takes = w'.takes
  pos : w.pos = w'.pos

lemma arrive_bytes (w : World) : w.arrive.avail ++ w.arrive.later = w.avail ++ w.later := by
  rcases hs : w.sched with _ | ⟨n, ns⟩ <;> simp [World.arrive, hs]

lemma arrive_takes (w : World) : w.arrive.takes = w.takes := by
  rcases hs : w.sched with _ | ⟨n, ns⟩ <;> simp [World.arrive, hs]

lemma arrive_pos (w : World) : w.arrive.pos = w.pos := by
  rcases hs : w.sched with _ | ⟨n, ns⟩ <;> simp [World.arrive, hs]

lemma agrees_recv (peek : Bool) : Agrees SameStream NotDry (recv peek) := by
  intro w w' hw hdry hdry'
  have hb : w.arrive.avail ++ w.arrive.later = w'.arrive.avail ++ w'.arrive.later := by
    rw [arrive_bytes, arrive_bytes, hw.bytes]
  have ht : w.arrive.takes = w'.arrive.takes := by rw [arrive_takes, arrive_takes, hw.takes]
  have hp : w.arrive.pos = w'.arrive.pos := by rw [arrive_pos, arrive_pos, hw.pos]
  rcases ha : w.arrive.avail with _ | ⟨c, r⟩
  · simp [recv, ha, NotDry] at hdry
  · rcases ha' : w'.arrive.avail with _ | ⟨c', r'⟩
    · simp [recv, ha', NotDry] at hdry'
    · rw [ha, ha'] at hb
      obtain ⟨rfl, hr⟩ : c = c' ∧ r ++ w.arrive.later = r' ++ w'.arrive.later := by simpa using hb
      cases peek with
      | true =>
        simp only [recv, ha, ha', if_true]
        exact ⟨trivial, trivial, ⟨by rw [ha, ha']; simp [hr], ht, hp⟩⟩
      | false =>
        simp only [recv, ha, ha', Bool.false_eq_true, if_false]
        exact ⟨trivial, trivial, ⟨hr, ht, by simp [hw.pos]⟩⟩

lemma agrees_send (asked : Bytes) : Agrees SameStream NotDry (send asked) := by
  intro w w' hw _ _
  have ht := hw.takes
  rcases hn : w.takes with _ | ⟨n, ns⟩
  · rw [hn] at ht
    simp only [send, hn, ← ht]
    exact ⟨trivial, trivial, hw⟩
  · rw [hn] at ht
    simp only [send, hn, ← ht]
    exact ⟨trivial, trivial, ⟨hw.bytes, rfl, hw.pos⟩⟩

lemma agrees_headerEnd : Agrees SameStream NotDry headerEnd :=
  fun _ _ hw _ _ => ⟨rfl, by simp [headerEnd, hw.pos], hw⟩

lemma agrees_fillLine (room : ℕ) : Agrees SameStream NotDry (fillLine room) :=
  modular_fillLine modular_agrees agrees_recv room

lemma agrees_clearHeader (fuel : ℕ) : Agrees SameStream NotDry (clearHeader fuel) :=
  modular_clearHeader modular_agrees agrees_recv (fun _ => agrees_out) agrees_headerEnd fuel

lemma agrees_readHeader (fuel : ℕ) (method : Bytes) :
    Agrees SameStream NotDry (readHeader fuel method) :=
  modular_readHeader modular_agrees agrees_recv (fun _ => agrees_out) agrees_headerEnd fuel method

lemma agrees_relayBody (n : ℕ) (c : UInt8) : Agrees SameStream NotDry (relayBody n c) := by
  induction n generalizing c with
  | zero => exact agrees_pure _
  | succ n ih =>
    exact agrees_bind (agrees_recv false) fun got =>
      agrees_bind (agrees_say _) fun _ => agrees_bind (ih _) fun _ => agrees_pure _

lemma agrees_relayOutput (output : Bytes) : Agrees SameStream NotDry (relayOutput output) := by
  induction output with
  | nil => exact agrees_pure _
  | cons c output ih => exact agrees_bind (agrees_send _) fun _ => ih

lemma agrees_echoHtml (host : Host) (path : Bytes) (size : ℕ) :
    Agrees SameStream NotDry (echoHtml host path size) := by
  refine agrees_bind (agrees_say _) fun _ => ?_
  cases host.openFile path with
  | none => exact agrees_pure _
  | some content => exact agrees_bind (agrees_send _) fun _ => agrees_send _

lemma agrees_exeCgi (host : Host) (fuel : ℕ) (path method : Bytes) (q : Option Bytes) :
    Agrees SameStream NotDry (exeCgi host fuel path method q) := by
  refine agrees_bind (agrees_readHeader fuel method) fun n => ?_
  refine agrees_bind (agrees_say _) fun _ => agrees_ite (agrees_pure _) ?_
  refine agrees_bind (agrees_send _) fun _ => agrees_ite ?_ (agrees_pure _)
  refine agrees_bind (agrees_say _) fun _ => ?_
  exact agrees_bind (agrees_relayBody _ _) fun _ => agrees_relayOutput _

lemma agrees_answer (host : Host) (fuel : ℕ) (method : Bytes) (t : Target) :
    Agrees SameStream NotDry (answer host fuel method t) := by
  refine agrees_bind (agrees_say _) fun _ => agrees_bind (agrees_say _) fun _ => ?_
  cases host.stat (docPath t.url) with
  | none => exact agrees_clearHeader fuel
  | some st =>
    refine agrees_bind (agrees_ite (agrees_exeCgi _ _ _ _ _) ?_) fun _ => agrees_say _
    exact agrees_bind (agrees_clearHeader fuel) fun _ => agrees_echoHtml _ _ _

lemma agrees_acceptRequest (host : Host) (fuel : ℕ) :
    Agrees SameStream NotDry (acceptRequest host fuel) := by
  refine agrees_bind (agrees_fillLine _) fun line => ?_
  exact agrees_bind (agrees_say _) fun _ => agrees_ite (agrees_pure _) (agrees_answer _ _ _ _)

lemma sameStream_world (s s' : Schedule) (bytes : Bytes) (takes : List (Option ℕ)) :
    SameStream (s.world bytes takes) (s'.world bytes takes) :=
  ⟨by simp [Schedule.world], rfl, rfl⟩

/-! ### A request that is cut after its first byte -/

/-- The first thing a request obtains is what its line was scanned into. -/
lemma outcome_head (host : Host) (fuel : ℕ) {w : World} {line : Bytes}
    (h : (getLine bufSize w).val = some line) :
    (outcome (acceptRequest host fuel w)).head? =
      some (.scanned (scanLine line).1 (scanLine line).2) := by
  have hquiet : (getLine bufSize w).log.filter obtained = [] := by
    rw [List.filter_eq_nil_iff]
    intro e he
    have hrecv := emits_getLine bufSize w e he
    cases e with
    | recv peek got => simp [obtained]
    | _ => exact absurd hrecv id
  unfold outcome acceptRequest
  rw [bind_run_some h]
  simp [List.filter_append, hquiet, obtained]

/-- Everything has arrived. -/
def Ready (w : World) (bytes : Bytes) : Prop := w.avail = bytes ∧ w.later = [] ∧ w.sched = []

/-- A line that is there starts with the bytes that are. -/
lemma fillLine_ready {w : World} {c : UInt8} {r : Bytes} (hw : Ready w (c :: r)) (hc : Inline c)
    (room : ℕ) :
    ∃ w', Ready w' r ∧ ∀ line, (fillLine room w').val = some line →
      (fillLine (room + 1) w).val = some (c :: line) := by
  obtain ⟨ha, hl, hs⟩ := hw
  refine ⟨{ w with avail := r, pos := w.pos + 1 }, ⟨rfl, hl, hs⟩, fun line hline => ?_⟩
  have harr : w.arrive = w := by
    cases w
    simp_all [World.arrive]
  have hrecv : recv false w = ⟨some (some c), { w with avail := r, pos := w.pos + 1 },
      [.recv false (some c)]⟩ := by simp [recv, harr, ha]
  unfold fillLine
  rw [bind_run_some (a := some c) (by rw [hrecv])]
  simp only [hrecv, if_neg hc.1, if_neg hc.2]
  rw [bind_run_some hline]
  rfl

lemma Word.inline {c : UInt8} (h : Word c) : Inline c := by
  refine ⟨?_, ?_⟩ <;> rintro rfl <;> exact absurd h.1 (by decide)

/-- The first bytes of a complete request: two of the method, or the method, the space and one
of the target. -/
lemma Request.start (q : Request) :
    ∃ c d t r, q.bytes = c :: d :: t :: r ∧ Word c ∧ (Word d ∨ d = 32 ∧ Word t) := by
  obtain ⟨c, m, hm⟩ := List.exists_cons_of_ne_nil q.method_ne
  obtain ⟨t, p, hp⟩ := List.exists_cons_of_ne_nil q.target_ne
  have hword := q.method_word
  rw [hm] at hword
  rcases m with _ | ⟨d, m⟩
  · exact ⟨c, 32, t, _, by simp only [Request.bytes, hm, hp]; rfl, hword c (by simp),
      .inr ⟨rfl, q.target_word t (by simp [hp])⟩⟩
  · rcases m with _ | ⟨e, m⟩
    · exact ⟨c, d, 32, _, by simp only [Request.bytes, hm]; rfl, hword c (by simp),
        .inl (hword d (by simp))⟩
    · exact ⟨c, d, e, _, by simp only [Request.bytes, hm]; rfl, hword c (by simp),
        .inl (hword d (by simp))⟩

/-! ### The scan of the line -/

lemma scanWord_go {buf : Bytes} {j : ℕ} (hc : isspace (buf.getD j 0) = false) (hj : j < buf.length)
    (room : ℕ) :
    scanWord buf (room + 1) j =
      (buf.getD j 0 :: (scanWord buf room (j + 1)).1, (scanWord buf room (j + 1)).2) := by
  rw [scanWord, if_pos (by rw [hc, decide_eq_true hj]; rfl)]

lemma scanWord_stop {buf : Bytes} {j : ℕ} (hc : isspace (buf.getD j 0) = true) (room : ℕ) :
    scanWord buf room j = ([], j) := by
  cases room with
  | zero => rfl
  | succ room => rw [scanWord, if_neg (by rw [hc]; simp)]

lemma le_scanWord (buf : Bytes) (room j : ℕ) : j ≤ (scanWord buf room j).2 := by
  induction room generalizing j with
  | zero => exact le_rfl
  | succ room ih =>
    unfold scanWord
    split_ifs
    · exact (Nat.le_succ j).trans (ih (j + 1))
    · exact le_rfl

lemma le_skipSpace (buf : Bytes) (fuel j : ℕ) : j ≤ skipSpace buf fuel j := by
  induction fuel generalizing j with
  | zero => exact le_rfl
  | succ fuel ih =>
    unfold skipSpace
    split_ifs
    · exact (Nat.le_succ j).trans (ih (j + 1))
    · exact le_rfl

lemma cstr_scanWord_nul {buf : Bytes} {j : ℕ} (h : buf.getD j 0 = 0) (room : ℕ) :
    cstr (scanWord buf room j).1 = [] := by
  cases room with
  | zero => rfl
  | succ room =>
    unfold scanWord
    split_ifs
    · rw [h]
      rfl
    · rfl

lemma getD_inBuf {l : Bytes} {j : ℕ} (hj : j < l.length) :
    (inBuf l).getD j 0 = l.getD j 0 := List.getD_append _ _ _ _ hj

lemma lt_inBuf {line : Bytes} {j : ℕ} (hj : j < line.length) : j < (inBuf line).length := by
  rw [inBuf, List.length_append]
  omega

lemma getD_inBuf_rest {line : Bytes} {j : ℕ} (hj : line.length ≤ j) :
    (inBuf line).getD j 0 = 0 := by
  rw [inBuf, List.getD_append_right _ _ _ _ hj, List.getD_eq_getElem?_getD,
    List.getElem?_replicate]
  split_ifs <;> rfl

lemma scanLine_one {c : UInt8} (hc : Word c) : scanLine [c] = ([c], []) := by
  set buf := inBuf [c] with hbuf
  have h0 : buf.getD 0 0 = c := getD_inBuf (l := [c]) (by simp)
  have hrest {j : ℕ} (hj : 1 ≤ j) : buf.getD j 0 = 0 := getD_inBuf_rest hj
  have hm : scanWord buf (bufSize / 10 - 1) 0 =
      (c :: (scanWord buf 100 1).1, (scanWord buf 100 1).2) := by
    rw [show bufSize / 10 - 1 = 100 + 1 from rfl,
      scanWord_go (by rw [h0]; exact hc.1) (lt_inBuf (by simp)), h0]
  have hj : 1 ≤ skipSpace buf bufSize (scanWord buf 100 1).2 :=
    (le_scanWord _ 100 1).trans (le_skipSpace _ _ _)
  have hmethod := cstr_scanWord_nul (hrest le_rfl) 100
  have hurl := cstr_scanWord_nul (hrest hj) (bufSize - 1)
  simp only [scanLine, ← hbuf, hm, hurl, Prod.mk.injEq, and_true]
  simp only [cstr] at hmethod ⊢
  rw [List.takeWhile_cons_of_pos (by simpa using hc.2), hmethod]

lemma scanLine_two {c d : UInt8} (hc : Word c) (hd : Word d) (l : Bytes) :
    (scanLine (c :: d :: l)).1 ≠ [c] := by
  set buf := inBuf (c :: d :: l) with hbuf
  have h0 : buf.getD 0 0 = c := getD_inBuf (l := c :: d :: l) (by simp)
  have h1 : buf.getD 1 0 = d := getD_inBuf (l := c :: d :: l) (by simp)
  have hm : scanWord buf (bufSize / 10 - 1) 0 =
      (c :: d :: (scanWord buf 99 2).1, (scanWord buf 99 2).2) := by
    rw [show bufSize / 10 - 1 = 99 + 1 + 1 from rfl,
      scanWord_go (by rw [h0]; exact hc.1) (lt_inBuf (by simp)),
      scanWord_go (by rw [h1]; exact hd.1) (lt_inBuf (by simp)), h0, h1]
  simp [scanLine, ← hbuf, hm, cstr, hc.2, hd.2]

lemma scanLine_space {c t : UInt8} (hc : Word c) (ht : Word t) (l : Bytes) :
    (scanLine (c :: 32 :: t :: l)).2 ≠ [] := by
  set buf := inBuf (c :: 32 :: t :: l) with hbuf
  have h0 : buf.getD 0 0 = c := getD_inBuf (l := c :: 32 :: t :: l) (by simp)
  have h1 : buf.getD 1 0 = 32 := getD_inBuf (l := c :: 32 :: t :: l) (by simp)
  have h2 : buf.getD 2 0 = t := getD_inBuf (l := c :: 32 :: t :: l) (by simp)
  have hlen : 2 < buf.length := lt_inBuf (by simp)
  have hm : scanWord buf (bufSize / 10 - 1) 0 = ([c], 1) := by
    rw [show bufSize / 10 - 1 = 100 + 1 from rfl,
      scanWord_go (by rw [h0]; exact hc.1) (by omega), scanWord_stop (by rw [h1]; rfl), h0]
  have hj : skipSpace buf bufSize 1 = 2 := by
    rw [show bufSize = 1022 + 1 + 1 from rfl, skipSpace,
      if_pos (by rw [h1, decide_eq_true (by omega)]; rfl),
      skipSpace, if_neg (by rw [h2, ht.1]; simp)]
  have hu : scanWord buf (bufSize - 1) 2 =
      (t :: (scanWord buf 1022 3).1, (scanWord buf 1022 3).2) := by
    rw [show bufSize - 1 = 1022 + 1 from rfl, scanWord_go (by rw [h2]; exact ht.1) hlen, h2]
  simp [scanLine, ← hbuf, hm, hj, hu, cstr, ht.2]

/-! ### The two schedules -/

/-- Everything is there when the worker starts. -/
def together (q : Request) : Schedule where
  first := q.bytes.length + 1
  first_pos := by omega
  sched := []

/-- One byte is there when the worker starts, and the rest comes after it looked for the second. -/
def cutFirst : Schedule where
  first := 1
  first_pos := le_rfl
  sched := [0, 0]

/-- A complete line is never taken for its first byte. -/
lemma line_together (q : Request) (takes : List (Option ℕ)) :
    ∃ line c, (getLine bufSize ((together q).world q.bytes takes)).val = some line ∧
      q.bytes.head? = some c ∧ Word c ∧ scanLine line ≠ ([c], []) := by
  obtain ⟨c, d, t, r, hq, hc, hdt⟩ := q.start
  have hw : Ready ((together q).world q.bytes takes) (c :: d :: t :: r) := by
    refine ⟨?_, ?_, rfl⟩
    · rw [← hq]
      exact List.take_of_length_le (Nat.le_succ _)
    · exact List.drop_eq_nil_of_le (Nat.le_succ _)
  obtain ⟨w₁, hw₁, h₁⟩ := fillLine_ready hw hc.inline 1022
  rcases hdt with hd | ⟨rfl, ht⟩
  · obtain ⟨w₂, -, h₂⟩ := fillLine_ready hw₁ hd.inline 1021
    obtain ⟨l, hl⟩ := fillLine_returns 1021 w₂
    refine ⟨_, c, h₁ _ (h₂ _ hl), by simp [hq], hc, fun h => ?_⟩
    exact scanLine_two hc hd l (congrArg Prod.fst h)
  · obtain ⟨w₂, hw₂, h₂⟩ := fillLine_ready hw₁ ⟨by decide, by decide⟩ 1021
    obtain ⟨w₃, -, h₃⟩ := fillLine_ready hw₂ ht.inline 1020
    obtain ⟨l, hl⟩ := fillLine_returns 1020 w₃
    refine ⟨_, c, h₁ _ (h₂ _ (h₃ _ hl)), by simp [hq], hc, fun h => ?_⟩
    exact scanLine_space hc ht l (congrArg Prod.snd h)

lemma line_cutFirst {c : UInt8} {r : Bytes} (hc : Word c) (takes : List (Option ℕ)) :
    (getLine bufSize (cutFirst.world (c :: r) takes)).val = some [c] := by
  have hfirst : recv false (cutFirst.world (c :: r) takes) =
      ⟨some (some c), ⟨[], r, [0], takes, 1⟩, [.recv false (some c)]⟩ := by
    simp [recv, World.arrive, cutFirst, Schedule.world]
  have hsecond : (fillLine 1022 ⟨[], r, [0], takes, 1⟩).val = some [] := by
    rw [fillLine, bind_run_some (a := none) rfl]
    rfl
  rw [getLine, show bufSize - 1 = 1022 + 1 from rfl, fillLine,
    bind_run_some (a := some c) (by rw [hfirst])]
  simp only [hfirst, if_neg hc.inline.1, if_neg hc.inline.2]
  rw [bind_run_some hsecond]
  rfl

lemma outcome_ne (q : Request) (host : Host) (fuel : ℕ) (takes : List (Option ℕ)) :
    outcome (acceptRequest host fuel ((together q).world q.bytes takes)) ≠
      outcome (acceptRequest host fuel (cutFirst.world q.bytes takes)) := by
  obtain ⟨line, c, hline, hhead, hc, hne⟩ := line_together q takes
  obtain ⟨r, hr⟩ : ∃ r, q.bytes = c :: r := by
    rcases hb : q.bytes with _ | ⟨d, r⟩
    · simp [hb] at hhead
    · exact ⟨r, by simpa [hb] using hhead⟩
  have hone := outcome_head host fuel (hr ▸ line_cutFirst hc takes)
  intro h
  have h := congrArg List.head? h
  rw [outcome_head host fuel hline, hone, scanLine_one hc] at h
  injection h with h
  injection h with hmethod hurl
  exact hne (Prod.ext hmethod hurl)

/-- **Arrival decides.** Whatever complete request a client sends, there are two ways for it to
arrive that the server takes for two different requests; and two ways without a `recv` on an
empty socket are never told apart. -/
theorem arrival_decides (host : Host) (fuel : ℕ) (takes : List (Option ℕ)) :
    (∀ q : Request, ¬ ∀ s s' : Schedule,
      outcome (acceptRequest host fuel (s.world q.bytes takes)) =
        outcome (acceptRequest host fuel (s'.world q.bytes takes))) ∧
    ∀ (bytes : Bytes) (s s' : Schedule),
      (∀ e ∈ (acceptRequest host fuel (s.world bytes takes)).log, NotDry e) →
      (∀ e ∈ (acceptRequest host fuel (s'.world bytes takes)).log, NotDry e) →
      outcome (acceptRequest host fuel (s.world bytes takes)) =
        outcome (acceptRequest host fuel (s'.world bytes takes)) := by
  refine ⟨fun q hall => outcome_ne q host fuel takes (hall _ _), fun bytes s s' hs hs' => ?_⟩
  have h := (agrees_acceptRequest host fuel _ _ (sameStream_world s s' bytes takes) hs hs').2.1
  unfold outcome
  rw [h]

/-- `GET / HTTP/1.1` without headers. -/
def getRoot : Request where
  method := get
  target := lit ['/']
  version := lit ['H', 'T', 'T', 'P', '/', '1', '.', '1']
  headers := []
  body := []
  method_ne := by decide
  method_word := by simp [HttpModel.get, lit, Word, isspace]; decide
  target_ne := by decide
  target_word := by simp [lit, Word, isspace]; decide
  version_inline := by simp [lit, Inline]; decide
  headers_ne := by simp
  headers_inline := by simp

/-- No file, no pipe and no process. -/
def bareHost : Host where
  stat := fun _ => none
  openFile := fun _ => none
  pipeInput := false
  pipeOutput := false
  fork := false
  cgi := fun _ _ => []

/-- Two bytes at a time. -/
def inTwos : Schedule where
  first := 2
  first_pos := by decide
  sched := List.replicate 20 2

theorem arrival_decides_getRoot :
    outcome (acceptRequest bareHost 1 (inTwos.world getRoot.bytes [])) =
      outcome (acceptRequest bareHost 1 ((together getRoot).world getRoot.bytes [])) :=
  (arrival_decides bareHost 1 []).2 getRoot.bytes inTwos (together getRoot) (by decide +kernel)
    (by decide +kernel)

/-- The two outcomes of `GET / HTTP/1.1`: the request, and a method `G` without a url. -/
theorem arrival_splits_getRoot :
    outcome (acceptRequest bareHost 1 ((together getRoot).world getRoot.bytes [])) =
        [.scanned get (lit ['/']), .cut (lit ['/']) (some []), .headerEnd 18] ∧
      outcome (acceptRequest bareHost 1 (cutFirst.world getRoot.bytes [])) =
        [.scanned (lit ['G']) []] ∧
      outcome (acceptRequest bareHost 1 ((together getRoot).world getRoot.bytes [])) ≠
        outcome (acceptRequest bareHost 1 (cutFirst.world getRoot.bytes [])) := by
  decide +kernel

end WeatherQuery.HttpArrival
