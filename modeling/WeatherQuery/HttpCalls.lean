import WeatherQuery.HttpModel

/-!
What a request does, call by call: the reads of its first line, `stat` on the path made of it,
the answer, and at the end of one of its paths the `close`.
-/

namespace WeatherQuery.HttpCalls

open WeatherQuery.CText WeatherQuery.Traced WeatherQuery.HttpModel

def IsRecv : Event → Prop
  | .recv _ _ => True
  | _ => False

/-- What the answer for the file at `path` can do. -/
def Inner (path : Bytes) : Event → Prop
  | .recv _ _ | .send _ _ | .write _ | .headerEnd _ | .contentLength _ => True
  | .openFile p => p = path
  | .execl child => child.path = path
  | .close | .stat _ | .scanned _ _ | .cut _ _ => False

lemma IsRecv.inner {e : Event} (h : IsRecv e) (path : Bytes) : Inner path e := by
  cases e with
  | recv peek got => trivial
  | _ => exact absurd h id

lemma Inner.not_close {path : Bytes} {e : Event} (h : Inner path e) : e ≠ .close := by
  rintro rfl
  exact h

/-! ### Reading -/

lemma emits_recv (peek : Bool) : Emits IsRecv (recv peek) := by
  intro w e he
  rcases ha : w.arrive.avail with _ | ⟨c, r⟩
  · obtain rfl : e = .recv peek none := by simpa [recv, ha] using he
    trivial
  · obtain rfl : e = .recv peek (some c) := by simpa [recv, ha] using he
    trivial

section Parts

variable {Q : (α : Type) → Io α → Prop} (hQ : Modular Q) (hrecv : ∀ peek, Q _ (recv peek))

include hQ hrecv in
/-- What a single `recv` has, `get_line` has. -/
lemma modular_fillLine (room : ℕ) : Q _ (fillLine room) := by
  induction room with
  | zero => exact hQ.pure _
  | succ room ih =>
    refine hQ.bind (hrecv false) fun got => ?_
    cases got with
    | none => exact hQ.pure _
    | some c =>
      refine hQ.ite ?_ (hQ.ite (hQ.pure _) (hQ.bind ih fun _ => hQ.pure _))
      refine hQ.bind (hrecv true) fun next => hQ.ite ?_ (hQ.pure _)
      exact hQ.bind (hrecv false) fun _ => hQ.pure _

variable (hout : ∀ α : Type, Q α fun w => ⟨none, w, []⟩) (hend : Q _ headerEnd)

include hQ hrecv hout hend

/-- And so has a loop over the header lines. -/
lemma modular_clearHeader (fuel : ℕ) : Q _ (clearHeader fuel) :=
  hQ.bind (hQ.loop (hout _) (fun _ => hQ.bind (modular_fillLine hQ hrecv _) fun _ => hQ.pure _)
    fuel ()) fun _ => hend

lemma modular_readHeader (fuel : ℕ) (method : Bytes) : Q _ (readHeader fuel method) := by
  refine hQ.ite (hQ.bind (modular_clearHeader hQ hrecv hout hend fuel) fun _ => hQ.pure _)
    (hQ.ite ?_ (hQ.pure _))
  refine hQ.bind (hQ.loop (hout _) (fun _ => ?_) fuel 0) fun _ => hQ.bind hend fun _ => hQ.pure _
  exact hQ.bind (modular_fillLine hQ hrecv _) fun _ => hQ.pure _

end Parts

lemma emits_headerEnd {P : Event → Prop} (h : ∀ pos, P (.headerEnd pos)) :
    Emits P headerEnd := by
  intro w e he
  obtain rfl : e = .headerEnd w.pos := by simpa [headerEnd] using he
  exact h _

lemma emits_send {P : Event → Prop} {asked : Bytes} (h : ∀ taken, P (.send asked taken)) :
    Emits P (send asked) := by
  intro w e he
  rcases hn : w.takes with _ | ⟨n, ns⟩
  · obtain rfl : e = .send asked (some asked.length) := by simpa [send, hn] using he
    exact h _
  · obtain rfl : e = .send asked (n.map (min asked.length)) := by simpa [send, hn] using he
    exact h _

lemma emits_relayOutput {P : Event → Prop} (h : ∀ asked taken, P (.send asked taken))
    (output : Bytes) : Emits P (relayOutput output) := by
  induction output with
  | nil => exact emits_pure _
  | cons c output ih => exact emits_bind (emits_send (h _)) fun _ => ih

lemma emits_getLine (maxLen : ℕ) : Emits IsRecv (getLine maxLen) :=
  modular_fillLine modular_emits emits_recv _

/-- The program always returns. -/
def Returns (α : Type) (p : Io α) : Prop := ∀ w, ∃ a, (p w).val = some a

lemma modular_returns : Modular Returns where
  pure a _ := ⟨a, rfl⟩
  bind hp hf w := by
    obtain ⟨a, ha⟩ := hp w
    rw [bind_run_some ha]
    exact hf a _

lemma recv_returns (peek : Bool) (w : World) : ∃ got, (recv peek w).val = some got := by
  rcases ha : w.arrive.avail with _ | ⟨c, r⟩ <;> simp [recv, ha]

lemma fillLine_returns (room : ℕ) : Returns _ (fillLine room) :=
  modular_fillLine modular_returns recv_returns room

/-- The first line, which `get_line` always gives. -/
lemma getLine_returns (w : World) : ∃ line, (getLine bufSize w).val = some line :=
  fillLine_returns _ w

section Answer

variable (path : Bytes)

lemma inner_recv (peek : Bool) : Emits (Inner path) (recv peek) :=
  (emits_recv peek).mono fun _ h => h.inner path

lemma inner_clearHeader (fuel : ℕ) : Emits (Inner path) (clearHeader fuel) :=
  modular_clearHeader modular_emits (inner_recv path) (fun _ => emits_out)
    (emits_headerEnd fun _ => trivial) fuel

lemma inner_readHeader (fuel : ℕ) (method : Bytes) : Emits (Inner path) (readHeader fuel method) :=
  modular_readHeader modular_emits (inner_recv path) (fun _ => emits_out)
    (emits_headerEnd fun _ => trivial) fuel method

lemma inner_send (asked : Bytes) : Emits (Inner path) (send asked) := emits_send fun _ => trivial

lemma inner_relayBody (n : ℕ) (c : UInt8) : Emits (Inner path) (relayBody n c) := by
  induction n generalizing c with
  | zero => exact emits_pure _
  | succ n ih =>
    refine emits_bind (inner_recv path false) fun got => ?_
    exact emits_bind (emits_say trivial) fun _ => emits_bind (ih _) fun _ => emits_pure _

lemma inner_relayOutput (output : Bytes) : Emits (Inner path) (relayOutput output) :=
  emits_relayOutput (fun _ _ => trivial) output

lemma inner_echoHtml (host : Host) (size : ℕ) : Emits (Inner path) (echoHtml host path size) := by
  refine emits_bind (emits_say rfl) fun _ => ?_
  cases host.openFile path with
  | none => exact emits_pure _
  | some content => exact emits_bind (inner_send path _) fun _ => inner_send path _

lemma inner_exeCgi (host : Host) (fuel : ℕ) (method : Bytes) (q : Option Bytes) :
    Emits (Inner path) (exeCgi host fuel path method q) := by
  refine emits_bind (inner_readHeader path fuel method) fun n => ?_
  refine emits_bind (emits_say trivial) fun _ => emits_ite (emits_pure _) ?_
  refine emits_bind (inner_send path _) fun _ => emits_ite ?_ (emits_pure _)
  refine emits_bind (emits_say rfl) fun _ => ?_
  exact emits_bind (inner_relayBody path _ _) fun _ => inner_relayOutput path _

end Answer

lemma inner_serve (host : Host) (fuel : ℕ) (st : Stat) (method path : Bytes) (t : Target) :
    Emits (Inner (servePath st path)) (serve host fuel st method path t) :=
  emits_ite (inner_exeCgi _ host fuel method _)
    (emits_bind (inner_clearHeader _ fuel) fun _ => inner_echoHtml _ host _)

/-! ### The whole request -/

/-- The first line of a request. -/
def firstLine (w : World) : Bytes := (getLine bufSize w).val.getD []

def methodOf (w : World) : Bytes := (scanLine (firstLine w)).1

def targetOf (w : World) : Target := cutQuery (methodOf w) (scanLine (firstLine w)).2

/-- What every request does first. -/
def opening (w : World) : List Event :=
  (getLine bufSize w).log ++ [.scanned (methodOf w) (scanLine (firstLine w)).2]

/-- The three ways a request can go. -/
inductive Course (host : Host) (w : World) (r : Ran World Event Unit) : Prop
  | refused (hm : refused (methodOf w) = true) (hval : r.val = some ()) (hlog : r.log = opening w)
  | missing (hm : refused (methodOf w) = false) (hst : host.stat (docPath (targetOf w).url) = none)
      (es : List Event) (hes : ∀ e ∈ es, Inner (docPath (targetOf w).url) e)
      (hlog : r.log = opening w ++ .cut (targetOf w).url (targetOf w).queryString ::
        .stat (docPath (targetOf w).url) :: es)
  | served (hm : refused (methodOf w) = false) (st : Stat)
      (hst : host.stat (docPath (targetOf w).url) = some st) (es : List Event)
      (hes : ∀ e ∈ es, Inner (servePath st (docPath (targetOf w).url)) e)
      (hlog : r.log = opening w ++ .cut (targetOf w).url (targetOf w).queryString ::
        .stat (docPath (targetOf w).url) :: es ++ if r.val.isSome then [.close] else [])

/-- A request after its first line. -/
def afterLine (host : Host) (fuel : ℕ) (w : World) : Ran World Event Unit :=
  (if refused (methodOf w) then pure () else answer host fuel (methodOf w) (targetOf w) : Io Unit)
    (getLine bufSize w).st

lemma acceptRequest_run (host : Host) (fuel : ℕ) (w : World) :
    acceptRequest host fuel w =
      ⟨(afterLine host fuel w).val, (afterLine host fuel w).st,
        opening w ++ (afterLine host fuel w).log⟩ := by
  obtain ⟨line, hline⟩ := getLine_returns w
  have hfirst : firstLine w = line := by simp [firstLine, hline]
  unfold acceptRequest
  rw [bind_run_some hline]
  simp [afterLine, methodOf, targetOf, opening, hfirst]

lemma answer_missing {host : Host} {t : Target} (hst : host.stat (docPath t.url) = none) (fuel : ℕ)
    (method : Bytes) (w : World) :
    (answer host fuel method t w).log =
      .cut t.url t.queryString :: .stat (docPath t.url) :: (clearHeader fuel w).log := by
  simp [answer, hst]

lemma answer_served {host : Host} {t : Target} {st : Stat}
    (hst : host.stat (docPath t.url) = some st) (fuel : ℕ) (method : Bytes) (w : World) :
    (answer host fuel method t w).log =
      .cut t.url t.queryString :: .stat (docPath t.url) ::
        (serve host fuel st method (docPath t.url) t w).log ++
          if (answer host fuel method t w).val.isSome then [.close] else [] := by
  rcases hval : (serve host fuel st method (docPath t.url) t w).val with _ | ⟨⟩
  · simp [answer, hst, bind_run_none hval]
  · simp [answer, hst, bind_run_some hval]

/-- **One request.** It is refused, or its file is missing, or it is served; only then, and when
it returns, its last call is `close`. -/
theorem acceptRequest_course (host : Host) (fuel : ℕ) (w : World) :
    Course host w (acceptRequest host fuel w) := by
  rw [acceptRequest_run]
  rcases hm : refused (methodOf w) with _ | _
  · have hafter : afterLine host fuel w =
        answer host fuel (methodOf w) (targetOf w) (getLine bufSize w).st := by
      simp [afterLine, hm]
    rw [hafter]
    rcases hst : host.stat (docPath (targetOf w).url) with _ | st
    · exact .missing hm hst _ (inner_clearHeader _ fuel _) (by rw [answer_missing hst])
    · refine .served hm st hst _ (inner_serve host fuel st (methodOf w) _ (targetOf w)
        (getLine bufSize w).st) ?_
      exact (congrArg (opening w ++ ·) (answer_served hst fuel (methodOf w) _)).trans (by simp)
  · have hafter : afterLine host fuel w = ⟨some (), (getLine bufSize w).st, []⟩ := by
      simp [afterLine, hm]
    exact .refused hm (by rw [hafter]) (by rw [hafter, List.append_nil])

/-- Nothing closes the socket before the end. -/
lemma opening_not_close (w : World) : ∀ e ∈ opening w, e ≠ .close := by
  intro e he
  rcases List.mem_append.mp he with he | he
  · exact ((emits_getLine bufSize w e he).inner []).not_close
  · obtain rfl := List.mem_singleton.mp he
    simp

/-- The request passes the test of its method, and its file is there. -/
def Served (host : Host) (w : World) : Bool :=
  !refused (methodOf w) && (host.stat (docPath (targetOf w).url)).isSome

/-- **The close.** A request closes its socket when it was served and returns, with its last
call, and never else. -/
theorem acceptRequest_closes (host : Host) (fuel : ℕ) (w : World) :
    ∃ es, (∀ e ∈ es, e ≠ Event.close) ∧
      (acceptRequest host fuel w).log =
        es ++ if (acceptRequest host fuel w).val.isSome && Served host w then [.close] else [] := by
  have hcons {es : List Event} {path : Bytes} (hes : ∀ e ∈ es, Inner path e) :
      ∀ e ∈ opening w ++ .cut (targetOf w).url (targetOf w).queryString ::
        .stat (docPath (targetOf w).url) :: es, e ≠ .close := by
    intro e he
    simp only [List.mem_append, List.mem_cons] at he
    rcases he with he | rfl | rfl | he
    · exact opening_not_close w e he
    · simp
    · simp
    · exact (hes e he).not_close
  cases acceptRequest_course host fuel w with
  | refused hm hval hlog => exact ⟨opening w, opening_not_close w, by simp [hlog, Served, hm]⟩
  | missing hm hst es hes hlog => exact ⟨_, hcons hes, by simp [hlog, Served, hst]⟩
  | served hm st hst es hes hlog => exact ⟨_, hcons hes, by rw [hlog]; simp [Served, hm, hst]⟩

end WeatherQuery.HttpCalls
