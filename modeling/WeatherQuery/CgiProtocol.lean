import Mathlib.Logic.Function.Basic
import WeatherQuery.HttpHeaders

/-!
What `exe_cgi` hands to the CGI, and what `main` of `find_cgi.cpp` makes of it.

The two speak through two variables of the environment and a pipe. For GET they agree. For POST
the server writes the length under the name `QUERY_STRING`, as a string it is not, and the CGI
looks for it under `CONTENT_LENGTH`.
-/

namespace WeatherQuery.CgiProtocol

open WeatherQuery.CText WeatherQuery.Traced WeatherQuery.HttpModel WeatherQuery.HttpCalls
open WeatherQuery.HttpHeaders

abbrev Env := Bytes → Option Bytes

def requestMethod : Bytes :=
  lit ['R', 'E', 'Q', 'U', 'E', 'S', 'T', '_', 'M', 'E', 'T', 'H', 'O', 'D']

def queryStringName : Bytes :=
  lit ['Q', 'U', 'E', 'R', 'Y', '_', 'S', 'T', 'R', 'I', 'N', 'G']

def contentLengthEnv : Bytes :=
  lit ['C', 'O', 'N', 'T', 'E', 'N', 'T', '_', 'L', 'E', 'N', 'G', 'T', 'H']

/-! ### The server's side -/

/-- `sprintf(buf,"name=%s",value)` into a buffer of `size` bytes, and `putenv`. -/
def putenv (size : ℕ) (name value : Bytes) (env : Env) : Option Env :=
  if name.length + 1 + value.length < size then some (Function.update env name (some value))
  else none

/-- The child's environment as it calls `execl`. With a method that is not GET the `%s` of
`QUERY_STRING=%s` is given the `int` of the content length: `spill` is the text found at that
address, `none` where there is none and the child dies. -/
def childEnv (spill : ℤ → Option Bytes) (child : Child) (n : ℤ) (env : Env) : Option Env :=
  (putenv bufSize requestMethod child.method env).bind fun env =>
    match child.query with
    | some query => putenv (bufSize / 10) queryStringName query env
    | none => (spill n).bind fun text => putenv bufSize queryStringName text env

/-! ### The CGI's side -/

/-- The request as `main` has it before it calls `find`. -/
inductive Decoded
  | get (queryString : Bytes)
  | post (contentLength : ℤ) (postData : Bytes)
  /-- Neither of the two; `main` returns 1. -/
  | other
  deriving DecidableEq

/-- `strcpy(buf, getenv(name))` into a buffer of `size` bytes. -/
def copyenv (size : ℕ) (name : Bytes) (env : Env) : Option Bytes :=
  (env name).filter fun v => v.length < size

/-- The loop of `read` calls: one byte each, into `post_data`. The server keeps its end of the
pipe open until the CGI is done, so a byte too many is waited for without end. -/
def readPost (n : ℤ) (stdin : Bytes) : Option Bytes :=
  if n.toNat < 4096 ∧ n.toNat ≤ stdin.length then some (stdin.take n.toNat) else none

/-- `main` up to its call of `find`; `none` when it does not get there. -/
def decode (env : Env) (stdin : Bytes) : Option Decoded :=
  (copyenv 1024 requestMethod env).bind fun method =>
    if strcasecmp get method = 0 then (copyenv 1024 queryStringName env).map .get
    else if strcasecmp post method = 0 then
      (env contentLengthEnv).bind fun v => (readPost (atoi v) stdin).map (.post (atoi v))
    else some .other

/-! ### What the CGI receives -/

/-- The bytes that went to the CGI's stdin. -/
def stdinOf (log : List Event) : Bytes :=
  log.filterMap fun
    | .write c => some c
    | _ => none

def childOfLog (log : List Event) : Option Child :=
  log.findSome? fun
    | .execl child => some child
    | _ => none

def lengthOfLog (log : List Event) : Option ℤ :=
  log.findSome? fun
    | .contentLength n => some n
    | _ => none

/-- What the CGI decodes after a run of `exe_cgi`, from the environment of the server. -/
def received (spill : ℤ → Option Bytes) (env : Env) (log : List Event) : Option Decoded :=
  (childOfLog log).bind fun child =>
    (lengthOfLog log).bind fun n =>
      (childEnv spill child n env).bind fun env => decode env (stdinOf log)

/-! ### The log of `exe_cgi` -/

/-- Entries the CGI knows nothing of. -/
def Silent : Event → Prop
  | .recv _ _ | .send _ _ | .headerEnd _ => True
  | _ => False

lemma silent_recv (peek : Bool) : Emits Silent (recv peek) :=
  (emits_recv peek).mono fun e he => by
    cases e with
    | recv peek got => trivial
    | _ => exact absurd he id

lemma silent_readHeader (fuel : ℕ) (method : Bytes) : Emits Silent (readHeader fuel method) :=
  modular_readHeader modular_emits silent_recv (fun _ => emits_out)
    (emits_headerEnd fun _ => trivial) fuel method

lemma silent_send (asked : Bytes) : Emits Silent (send asked) := emits_send fun _ => trivial

lemma silent_relayOutput (output : Bytes) : Emits Silent (relayOutput output) :=
  emits_relayOutput (fun _ _ => trivial) output

lemma stdinOf_append (l l' : List Event) : stdinOf (l ++ l') = stdinOf l ++ stdinOf l' :=
  List.filterMap_append

lemma stdinOf_silent {l : List Event} (hl : ∀ e ∈ l, Silent e) : stdinOf l = [] := by
  refine List.filterMap_eq_nil_iff.mpr fun e he => ?_
  have hsilent := hl e he
  cases e <;> first | rfl | exact absurd hsilent id

lemma findSome?_silent {β : Type} {f : Event → Option β} (hf : ∀ e, Silent e → f e = none)
    {l : List Event} (hl : ∀ e ∈ l, Silent e) (l' : List Event) :
    (l ++ l').findSome? f = l'.findSome? f := by
  have hnone : l.findSome? f = none := List.findSome?_eq_none_iff.mpr fun e he => hf e (hl e he)
  rw [List.findSome?_append, hnone, Option.none_or]

lemma childOfLog_silent {l : List Event} (hl : ∀ e ∈ l, Silent e) (l' : List Event) :
    childOfLog (l ++ l') = childOfLog l' :=
  findSome?_silent (fun e he => by cases e <;> first | rfl | exact absurd he id) hl l'

lemma lengthOfLog_silent {l : List Event} (hl : ∀ e ∈ l, Silent e) (l' : List Event) :
    lengthOfLog (l ++ l') = lengthOfLog l' :=
  findSome?_silent (fun e he => by cases e <;> first | rfl | exact absurd he id) hl l'

lemma stdinOf_recv (peek : Bool) (w : World) : stdinOf (recv peek w).log = [] :=
  stdinOf_silent fun e he => by
    have hrecv := emits_recv peek w e he
    cases e with
    | recv peek got => trivial
    | _ => exact absurd hrecv id

/-- The loop returns what it wrote to the CGI. -/
lemma relayBody_wrote (n : ℕ) (c : UInt8) (w : World) :
    ∃ body, (relayBody n c w).val = some body ∧ stdinOf (relayBody n c w).log = body := by
  induction n generalizing c w with
  | zero => exact ⟨[], rfl, rfl⟩
  | succ n ih =>
    obtain ⟨got, hgot⟩ := recv_returns false w
    obtain ⟨body, hval, hlog⟩ := ih (got.getD c) (recv false w).st
    refine ⟨got.getD c :: body, ?_⟩
    rw [relayBody, bind_run_some hgot]
    simp only [say_bind_run]
    rw [bind_run_some hval, stdinOf_append, stdinOf_recv, List.nil_append]
    refine ⟨rfl, ?_⟩
    rw [← hlog]
    simp [stdinOf]

/-- The body of a request that has arrived goes to the CGI as it is. -/
lemma relayBody_arrived {w : World} (hw : Still w) {body rest : Bytes}
    (ha : w.avail = body ++ rest) (c : UInt8) :
    (relayBody body.length c w).val = some body := by
  induction body generalizing w c with
  | nil => rfl
  | cons d body ih =>
    obtain ⟨hval, hst⟩ := recv_byte hw (show w.avail = d :: (body ++ rest) from ha)
    have hskip : (skip w 1).avail = body ++ rest := by simp [skip, ha]
    have htail := ih (hw.skip 1) hskip d
    rw [List.length_cons, relayBody, bind_run_some hval, hst]
    simp only [Option.getD_some, say_bind_run]
    rw [bind_run_some htail]
    rfl

lemma send_returns (asked : Bytes) (w : World) : (send asked w).val = some () := by
  rcases hn : w.takes with _ | ⟨n, ns⟩ <;> simp [send, hn]

lemma send_stream (asked : Bytes) (w : World) :
    (send asked w).st.avail = w.avail ∧ (Still w → Still (send asked w).st) := by
  rcases hn : w.takes with _ | ⟨n, ns⟩ <;> simp [send, hn, Still]

/-- The client's end as the body is relayed. -/
def atBody (fuel : ℕ) (method : Bytes) (w : World) : World :=
  (send okHeader (readHeader fuel method w).st).st

section Log

variable (host : Host) {fuel : ℕ} (path : Bytes) {method : Bytes} (query : Option Bytes)
  {w : World} {n : ℤ} (hn : (readHeader fuel method w).val = some n)
include hn

/-- A request that passes the test of its length: the answer's header, and the CGI unless a
pipe or the fork failed. -/
lemma exeCgi_log (hne : n ≠ -1) :
    (exeCgi host fuel path method query w).log =
      (readHeader fuel method w).log ++ .contentLength n ::
        ((send okHeader (readHeader fuel method w).st).log ++
          if host.pipeInput && host.pipeOutput && host.fork then
            .execl (childOf path method query) ::
              (relay host (childOf path method query) n (atBody fuel method w)).log
          else []) := by
  unfold exeCgi
  rw [bind_run_some hn]
  simp only [say_bind_run, if_neg hne]
  rw [bind_run_some (send_returns _ _)]
  split_ifs <;> rfl

/-- A child runs unless the length stops the request, or a pipe or the fork fails. -/
lemma childOfLog_exeCgi :
    childOfLog (exeCgi host fuel path method query w).log =
      if n ≠ -1 ∧ (host.pipeInput && host.pipeOutput && host.fork) = true then
        some (childOf path method query) else none := by
  have hread := silent_readHeader fuel method w
  by_cases hne : n = -1
  · have hlog : (exeCgi host fuel path method query w).log =
        (readHeader fuel method w).log ++ [.contentLength n] := by
      unfold exeCgi
      rw [bind_run_some hn]
      simp [hne]
    rw [hlog, childOfLog_silent hread, if_neg fun h => h.1 hne]
    rfl
  · have hsend := silent_send okHeader (readHeader fuel method w).st
    rw [exeCgi_log host path query hn hne, childOfLog_silent hread]
    refine (childOfLog_silent hsend _).trans ?_
    by_cases hhost : (host.pipeInput && host.pipeOutput && host.fork) = true
    · rw [if_pos hhost, if_pos ⟨hne, hhost⟩]
      rfl
    · rw [if_neg hhost, if_neg fun h => hhost h.2]
      rfl

lemma lengthOfLog_exeCgi (hne : n ≠ -1) :
    lengthOfLog (exeCgi host fuel path method query w).log = some n := by
  rw [exeCgi_log host path query hn hne, lengthOfLog_silent (silent_readHeader fuel method w)]
  rfl

lemma stdinOf_exeCgi (hne : n ≠ -1)
    (hhost : (host.pipeInput && host.pipeOutput && host.fork) = true) :
    stdinOf (exeCgi host fuel path method query w).log =
      stdinOf (relay host (childOf path method query) n (atBody fuel method w)).log := by
  rw [exeCgi_log host path query hn hne, if_pos hhost, stdinOf_append,
    stdinOf_silent (silent_readHeader fuel method w), List.nil_append]
  refine (stdinOf_append (send okHeader (readHeader fuel method w).st).log _).trans ?_
  rw [stdinOf_silent (silent_send _ _)]
  rfl

end Log

/-- What is relayed to the CGI is the body that the loop returns. -/
lemma stdinOf_relay (host : Host) (child : Child) (n : ℤ) (w : World) :
    ∃ body, (relayBody (if strcasecmp post child.method = 0 then n.toNat else 0) 0 w).val =
        some body ∧ stdinOf (relay host child n w).log = body := by
  obtain ⟨body, hval, hwrote⟩ :=
    relayBody_wrote (if strcasecmp post child.method = 0 then n.toNat else 0) 0 w
  refine ⟨body, hval, ?_⟩
  rw [relay, bind_run_some hval, stdinOf_append, hwrote,
    stdinOf_silent (silent_relayOutput _ _), List.append_nil]

/-- **The handover.** What the CGI decodes, once the headers are read. -/
theorem received_exeCgi {host : Host}
    (hhost : (host.pipeInput && host.pipeOutput && host.fork) = true)
    (spill : ℤ → Option Bytes) (env : Env) {fuel : ℕ} (path : Bytes) {method : Bytes}
    (query : Option Bytes) {w : World} {n : ℤ} (hn : (readHeader fuel method w).val = some n)
    (hne : n ≠ -1) :
    received spill env (exeCgi host fuel path method query w).log =
      (childEnv spill (childOf path method query) n env).bind fun env =>
        decode env
          (stdinOf (relay host (childOf path method query) n (atBody fuel method w)).log) := by
  rw [received, childOfLog_exeCgi host path query hn, if_pos ⟨hne, hhost⟩,
    lengthOfLog_exeCgi host path query hn hne, stdinOf_exeCgi host path query hn hne hhost]
  rfl

/-! ### The two methods -/

/-- A GET request whose headers are read, with strings that fit the buffers they pass through. -/
structure GetCall (fuel : ℕ) (w : World) where
  method : Bytes
  query : Bytes
  isGet : strcasecmp method get = 0
  method_nulFree : NulFree method
  method_fits : method.length < bufSize / 10
  query_fits : query.length + 14 ≤ bufSize / 10
  read : (clearHeader fuel w).val = some ()

/-- A POST request whose headers are read and declare the length of the body, which has
arrived. -/
structure PostCall (fuel : ℕ) (w : World) where
  method : Bytes
  body : Bytes
  rest : Bytes
  isPost : strcasecmp method post = 0
  method_nulFree : NulFree method
  method_fits : method.length < bufSize / 10
  body_fits : body.length < 4096
  declared : (postHeader fuel w).val = some (body.length : ℤ)
  still : Still (postHeader fuel w).st
  arrived : (postHeader fuel w).st.avail = body ++ rest

lemma GetCall.both {fuel : ℕ} {w : World} (g : GetCall fuel w) : strcasecmp get g.method = 0 := by
  rw [strcasecmp_comm (by decide) g.method_nulFree]
  exact g.isGet

lemma PostCall.both {fuel : ℕ} {w : World} (p : PostCall fuel w) :
    strcasecmp post p.method = 0 ∧ strcasecmp get p.method ≠ 0 ∧ strcasecmp p.method get ≠ 0 := by
  have hpost := (strcasecmp_eq_zero_iff p.method_nulFree (by decide)).mp p.isPost
  have hne : p.method.map tolower ≠ get.map tolower := by
    rw [hpost]
    decide
  refine ⟨?_, ?_, ?_⟩
  · rw [strcasecmp_eq_zero_iff (by decide) p.method_nulFree]
    exact hpost.symm
  · rw [Ne, strcasecmp_eq_zero_iff (by decide) p.method_nulFree]
    exact fun h => hne h.symm
  · rw [Ne, strcasecmp_eq_zero_iff p.method_nulFree (by decide)]
    exact hne

/-- The environment with the two variables of the server. -/
def envWith (env : Env) (method text : Bytes) : Env :=
  Function.update (Function.update env requestMethod (some method)) queryStringName (some text)

lemma envWith_method (env : Env) (method text : Bytes) :
    envWith env method text requestMethod = some method := by
  have hne : requestMethod ≠ queryStringName := by decide
  rw [envWith, Function.update_of_ne hne, Function.update_self]

lemma envWith_query (env : Env) (method text : Bytes) :
    envWith env method text queryStringName = some text := Function.update_self ..

lemma envWith_length (env : Env) (method text : Bytes) :
    envWith env method text contentLengthEnv = env contentLengthEnv := by
  have hquery : contentLengthEnv ≠ queryStringName := by decide
  have hmethod : contentLengthEnv ≠ requestMethod := by decide
  rw [envWith, Function.update_of_ne hquery, Function.update_of_ne hmethod]

/-- The text `%s` finds at the address `n`, short enough for its buffer. -/
def spilled (spill : ℤ → Option Bytes) (n : ℤ) : Option Bytes :=
  (spill n).filter fun text => text.length + 14 ≤ bufSize

section ChildEnv

variable {method : Bytes} (hm : method.length < bufSize / 10) (spill : ℤ → Option Bytes)
  (path : Bytes) (n : ℤ) (env : Env)
include hm

lemma putenv_method :
    putenv bufSize requestMethod method env =
      some (Function.update env requestMethod (some method)) := by
  have hbuf : bufSize = 1024 := rfl
  have hname : requestMethod.length = 14 := rfl
  exact if_pos (by omega)

lemma childEnv_get {query : Bytes} (hq : query.length + 14 ≤ bufSize / 10) :
    childEnv spill ⟨path, method, some query⟩ n env = some (envWith env method query) := by
  have hname : queryStringName.length = 12 := rfl
  rw [childEnv, putenv_method hm]
  exact if_pos (by omega)

lemma childEnv_post :
    childEnv spill ⟨path, method, none⟩ n env = (spilled spill n).map (envWith env method) := by
  have hname : queryStringName.length = 12 := rfl
  rw [childEnv, putenv_method hm]
  rcases h : spill n with _ | text
  · simp [spilled, h]
  · simp only [Option.bind_some, spilled, h, Option.filter_some]
    by_cases hfits : text.length + 14 ≤ bufSize
    · rw [putenv, if_pos (by omega), if_pos (by simpa using hfits)]
      rfl
    · rw [putenv, if_neg (by omega), if_neg (by simpa using hfits)]
      rfl

end ChildEnv

lemma copyenv_fits {size : ℕ} {name v : Bytes} {env : Env} (h : env name = some v)
    (hv : v.length < size) : copyenv size name env = some v := by
  simp [copyenv, h, hv]

section Received

variable {host : Host} (hhost : (host.pipeInput && host.pipeOutput && host.fork) = true)
  (spill : ℤ → Option Bytes) (env : Env) {fuel : ℕ} (path : Bytes) {w : World}
include hhost

/-- For GET the CGI decodes the query string of the request. -/
lemma received_get (g : GetCall fuel w) :
    received spill env (exeCgi host fuel path g.method (some g.query) w).log =
      some (.get g.query) := by
  have hbuf : bufSize = 1024 := rfl
  have hm := g.method_fits
  have hq := g.query_fits
  have hread : (readHeader fuel g.method w).val = some 0 := by
    rw [readHeader, if_pos g.isGet, bind_run_some g.read]
    rfl
  have hchild : childOf path g.method (some g.query) = ⟨path, g.method, some g.query⟩ := by
    rw [childOf, if_pos g.both]
  rw [received_exeCgi hhost spill env path _ hread (by decide), hchild, childEnv_get hm _ _ _ _ hq,
    Option.bind_some, decode, copyenv_fits (envWith_method _ _ _) (by omega), Option.bind_some,
    if_pos g.both, copyenv_fits (envWith_query _ _ _) (by omega)]
  rfl

omit hhost in
/-- The whole body goes to the CGI. -/
lemma stdin_relay (p : PostCall fuel w) :
    stdinOf (relay host ⟨path, p.method, none⟩ p.body.length (atBody fuel p.method w)).log =
      p.body := by
  have hheader : readHeader fuel p.method w = postHeader fuel w := by
    rw [readHeader, if_neg p.both.2.2, if_pos p.isPost]
  obtain ⟨havail, hstill⟩ := send_stream okHeader (postHeader fuel w).st
  have hat : atBody fuel p.method w = (send okHeader (postHeader fuel w).st).st := by
    rw [atBody, hheader]
  have hval := relayBody_arrived (hstill p.still) (havail.trans p.arrived) 0
  obtain ⟨body, hbody, hwrote⟩ := stdinOf_relay host ⟨path, p.method, none⟩ p.body.length
    (atBody fuel p.method w)
  rw [if_pos p.both.1, Int.toNat_natCast, hat, hval] at hbody
  rw [hwrote, Option.some.inj hbody]

omit hhost in
lemma decode_post (p : PostCall fuel w) (text : Bytes) :
    decode (envWith env p.method text) p.body =
      (env contentLengthEnv).bind fun v => (readPost (atoi v) p.body).map (.post (atoi v)) := by
  have hbuf : bufSize = 1024 := rfl
  have hm := p.method_fits
  rw [decode, copyenv_fits (envWith_method _ _ _) (by omega), Option.bind_some,
    if_neg p.both.2.1, if_pos p.both.1, envWith_length]

/-- For POST the CGI decodes the request only by the server's own environment. -/
lemma received_post_iff (p : PostCall fuel w) :
    received spill env (exeCgi host fuel path p.method none w).log =
        some (.post p.body.length p.body) ↔
      (spilled spill p.body.length).isSome = true ∧
        ∃ v, env contentLengthEnv = some v ∧ atoi v = p.body.length := by
  have hread : (readHeader fuel p.method w).val = some (p.body.length : ℤ) := by
    rw [readHeader, if_neg p.both.2.2, if_pos p.isPost, p.declared]
  have hchild : childOf path p.method none = ⟨path, p.method, none⟩ := by
    rw [childOf, if_neg p.both.2.1]
  rw [received_exeCgi hhost spill env path _ hread (by omega), hchild,
    childEnv_post p.method_fits, stdin_relay]
  rcases hspill : spilled spill p.body.length with _ | text
  · simp
  · rw [Option.map_some, Option.bind_some, decode_post]
    simp only [Option.isSome_some, true_and]
    rcases henv : env contentLengthEnv with _ | v
    · simp
    · have hfits := p.body_fits
      constructor
      · intro h
        have hpost : ∃ data, readPost (atoi v) p.body = some data ∧
            Decoded.post (atoi v) data = .post p.body.length p.body := by
          simpa [Option.map_eq_some_iff] using h
        obtain ⟨data, -, hdata⟩ := hpost
        injection hdata with hn
        exact ⟨v, rfl, hn⟩
      · rintro ⟨v', hv, hn⟩
        obtain rfl : v = v' := by simpa using hv
        have hall : readPost (atoi v) p.body = some p.body := by
          rw [readPost, hn, Int.toNat_natCast, if_pos ⟨hfits, le_rfl⟩, List.take_length]
        rw [Option.bind_some, hall, hn]
        rfl

end Received

/-- **The protocol.** Every GET request arrives at the CGI as it was sent. A POST request does
exactly when `%s` survives the length as an address and the environment of the server itself
happens to declare the same `CONTENT_LENGTH`. -/
theorem cgi_receives (host : Host)
    (hhost : (host.pipeInput && host.pipeOutput && host.fork) = true)
    (spill : ℤ → Option Bytes) (env : Env) (fuel : ℕ) (path : Bytes) (w : World) :
    (∀ g : GetCall fuel w,
      received spill env (exeCgi host fuel path g.method (some g.query) w).log =
        some (.get g.query)) ∧
    ∀ p : PostCall fuel w,
      received spill env (exeCgi host fuel path p.method none w).log =
          some (.post p.body.length p.body) ↔
        (spilled spill p.body.length).isSome = true ∧
          ∃ v, env contentLengthEnv = some v ∧ atoi v = p.body.length :=
  ⟨fun g => received_get hhost spill env path g, fun p => received_post_iff hhost spill env path p⟩

/-- Pipes and processes are to be had. -/
def readyHost : Host where
  stat := fun _ => none
  openFile := fun _ => none
  pipeInput := true
  pipeOutput := true
  fork := true
  cgi := fun _ _ => []

/-- Nothing is mapped at small addresses, and the null pointer is printed as such. -/
def lowSpill (n : ℤ) : Option Bytes :=
  if n = 0 then some (lit ['(', 'n', 'u', 'l', 'l', ')']) else none

/-- The rest of a request after its first line: a length, and `a=B77` as the body. -/
def cityBody : World where
  avail :=
    lit ['C', 'o', 'n', 't', 'e', 'n', 't', '-', 'L', 'e', 'n', 'g', 't', 'h', ':', ' ', '5',
      '\r', '\n', '\r', '\n', 'a', '=', 'B', '7', '7']
  later := []
  sched := []
  takes := []
  pos := 0

def getCity : GetCall 2 cityBody where
  method := HttpModel.get
  query := lit ['a', '=', 'B', '7', '7']
  isGet := by decide
  method_nulFree := by decide
  method_fits := by decide
  query_fits := by decide
  read := by decide +kernel

def postCity : PostCall 2 cityBody where
  method := HttpModel.post
  body := lit ['a', '=', 'B', '7', '7']
  rest := []
  isPost := by decide
  method_nulFree := by decide
  method_fits := by decide
  body_fits := by decide
  declared := by decide +kernel
  still := by
    unfold Still
    decide +kernel
  arrived := by decide +kernel

/-- A text is mapped at the address 5. -/
def midSpill (n : ℤ) : Option Bytes := if n = 5 then some (lit ['x']) else none

/-- The server was itself started with `CONTENT_LENGTH=5`. -/
def declaringEnv : Env := fun name => if name = contentLengthEnv then some (lit ['5']) else none

theorem cgi_receives_getCity :
    (readyHost.pipeInput && readyHost.pipeOutput && readyHost.fork) = true ∧
      received lowSpill (fun _ => none)
          (exeCgi readyHost 2 [] getCity.method (some getCity.query) cityBody).log =
        some (.get getCity.query) ∧
      received midSpill declaringEnv
          (exeCgi readyHost 2 [] postCity.method none cityBody).log =
        some (.post 5 (lit ['a', '=', 'B', '7', '7'])) :=
  ⟨rfl, (cgi_receives readyHost rfl lowSpill (fun _ => none) 2 [] cityBody).1 getCity,
    ((cgi_receives readyHost rfl midSpill declaringEnv 2 [] cityBody).2 postCity).mpr
      ⟨by decide, lit ['5'], by decide, by decide⟩⟩

/-- The CGI does not get the length of `postCity`. -/
theorem not_receives_postCity :
    ¬ ∀ (host : Host) (spill : ℤ → Option Bytes) (env : Env) (fuel : ℕ) (path : Bytes) (w : World),
      (host.pipeInput && host.pipeOutput && host.fork) = true →
        (∀ g : GetCall fuel w,
          received spill env (exeCgi host fuel path g.method (some g.query) w).log =
            some (.get g.query)) ∧
        ∀ p : PostCall fuel w,
          received spill env (exeCgi host fuel path p.method none w).log =
            some (.post p.body.length p.body) := by
  intro h
  have hpost := (h readyHost lowSpill (fun _ => none) 2 [] cityBody rfl).2 postCity
  rw [received_post_iff rfl] at hpost
  obtain ⟨-, v, hv, -⟩ := hpost
  simp at hv

end WeatherQuery.CgiProtocol
