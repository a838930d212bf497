import WeatherQuery.FrameRoundTrip
import WeatherQuery.Overwrite

/-!
The page as it comes in: the second half of `GetHttpResponse`, from the first `malloc` to the
NUL behind the page.

The buffer is doubled when fewer than a hundred bytes of it are free. What the calls of `recv`
come to is given beforehand, and so is what the heap holds in the bytes a `realloc` adds. There is
always memory.
-/

namespace WeatherQuery.PageBuffer

open WeatherQuery.CText WeatherQuery.FrameModel WeatherQuery.FrameRoundTrip
open WeatherQuery.Overwrite

/-- What a `recv` comes to: the bytes it stores, none at the end of the stream. -/
inductive Recv
  | got (chunk : Bytes)
  | failed
  deriving DecidableEq

def Recv.ret : Recv → ℤ
  | .got chunk => chunk.length
  | .failed => -1

def Recv.chunk : Recv → Bytes
  | .got chunk => chunk
  | .failed => []

lemma ret_got (chunk : Bytes) : Recv.ret (.got chunk) = chunk.length := rfl

lemma chunk_got (chunk : Bytes) : Recv.chunk (.got chunk) = chunk := rfl

/-- The variables of the loop, the two `int`s without a bound; `pageBuf` is all that is
allocated. -/
structure Loop where
  sz : ℤ
  bytesread : ℤ
  pageBuf : Bytes
  deriving DecidableEq

/-- The length `recv` is called with. -/
def Loop.asked (s : Loop) : ℕ := asSize (s.sz - s.bytesread)

def start : Loop := ⟨4096, 0, List.replicate 4096 0⟩

section Run

variable (heap : ℕ → UInt8)

/-- `realloc`; `heap i` is what is found in byte `i` when it is added. -/
def realloc (buf : Bytes) (size : ℕ) : Bytes :=
  buf.take size ++ (List.range' buf.length (size - buf.length)).map heap

/-- `recv` at `pageBuf + bytesread`, and the count after it. -/
def store (s : Loop) (r : Recv) : Loop :=
  { s with
    bytesread := if 0 < asInt r.ret then s.bytesread + asInt r.ret else s.bytesread
    pageBuf := s.pageBuf.take s.bytesread.toNat ++
      overlay r.chunk (s.pageBuf.drop s.bytesread.toNat) }

lemma store_sz (s : Loop) (r : Recv) : (store s r).sz = s.sz := rfl

lemma store_bytesread (s : Loop) (r : Recv) : (store s r).bytesread =
    if 0 < asInt r.ret then s.bytesread + asInt r.ret else s.bytesread := rfl

lemma store_pageBuf (s : Loop) (r : Recv) : (store s r).pageBuf =
    s.pageBuf.take s.bytesread.toNat ++ overlay r.chunk (s.pageBuf.drop s.bytesread.toNat) := rfl

def grow (s : Loop) : Loop :=
  if s.sz - s.bytesread < 100 then
    { s with sz := s.sz * 2, pageBuf := realloc heap s.pageBuf (asSize (s.sz * 2)) }
  else s

/-- A turn of the loop. -/
def turn (s : Loop) (r : Recv) : Loop := grow heap (store s r)

/-- The loop: each `recv`, with the variables it is called with, and the variables at the end.
It has not ended when there are no more results. -/
def recvLoop : List Recv → Loop → Option (List (Loop × Recv) × Loop)
  | [], _ => none
  | r :: rs, s =>
    if 0 < asInt r.ret then
      (recvLoop rs (turn heap s r)).map fun e => ((s, r) :: e.1, e.2)
    else some ([(s, r)], turn heap s r)

/-- `pageBuf[bytesread] = '\0'`. -/
def terminate (s : Loop) : Loop := { s with pageBuf := s.pageBuf.set s.bytesread.toNat 0 }

/-- `GetHttpResponse` once the request is sent. -/
def getHttpResponse (rs : List Recv) : Option (List (Loop × Recv) × Loop) :=
  (recvLoop heap rs start).map fun e => (e.1, terminate e.2)

/-- No `recv` gives more than it is asked for. -/
def Answers : List Recv → Loop → Prop
  | [], _ => True
  | r :: rs, s => r.ret ≤ s.asked ∧ Answers rs (turn heap s r)

end Run

/-! ### The gap -/

/-- The sizes the buffer can have. -/
def Size (sz : ℤ) : Prop := ∃ k ≤ 18, sz = 2 ^ (12 + k)

lemma Size.le {sz : ℤ} (h : Size sz) : sz ≤ 2 ^ 30 := by
  obtain ⟨k, hk, rfl⟩ := h
  exact pow_le_pow_right₀ (by omega) (by omega)

lemma Size.ge {sz : ℤ} (h : Size sz) : 2 ^ 12 ≤ sz := by
  obtain ⟨k, hk, rfl⟩ := h
  exact pow_le_pow_right₀ (by omega) (by omega)

/-- Only the largest size cannot be doubled. -/
lemma Size.double {sz : ℤ} (h : Size sz) (hlt : sz < 2 ^ 30) : Size (sz * 2) := by
  obtain ⟨k, hk, rfl⟩ := h
  have hk' : 12 + k < 30 := (pow_lt_pow_iff_right₀ (by omega)).mp hlt
  exact ⟨k + 1, by omega, (pow_succ _ _).symm⟩

/-- After a `recv`, with `page` received so far. -/
structure Stored (page : Bytes) (s : Loop) : Prop where
  size : Size s.sz
  alloc : (s.pageBuf.length : ℤ) = s.sz
  read : s.bytesread = page.length
  room : s.bytesread ≤ s.sz
  holds : s.pageBuf.take page.length = page

/-- Before the next one a hundred bytes are free. -/
structure Filled (page : Bytes) (s : Loop) : Prop extends Stored page s where
  gap : 100 ≤ s.sz - s.bytesread

variable {page : Bytes} {s : Loop}

lemma filled_start : Filled [] start where
  size := ⟨0, by omega, rfl⟩
  alloc := by rw [start, List.length_replicate]; rfl
  read := rfl
  room := by decide
  holds := rfl
  gap := by decide

lemma Filled.toNat_read (h : Filled page s) : s.bytesread.toNat = page.length := by
  rw [h.read, Int.toNat_natCast]

lemma Filled.asked_eq (h : Filled page s) : (s.asked : ℤ) = s.sz - s.bytesread := by
  have hle := h.size.le
  have hgap := h.gap
  have hread := h.read
  rw [Loop.asked, asSize]
  omega

lemma length_realloc (heap : ℕ → UInt8) {buf : Bytes} {size : ℕ} (h : buf.length ≤ size) :
    (realloc heap buf size).length = size := by
  rw [realloc, List.length_append, List.length_map, List.length_range', List.take_of_length_le h]
  omega

lemma take_realloc (heap : ℕ → UInt8) {buf : Bytes} {size n : ℕ} (h : buf.length ≤ size)
    (hn : n ≤ buf.length) : (realloc heap buf size).take n = buf.take n := by
  rw [realloc, List.take_of_length_le h, List.take_append_of_le_length hn]

lemma Filled.store (h : Filled page s) {chunk : Bytes} (hne : chunk ≠ [])
    (hle : chunk.length ≤ s.asked) : Stored (page ++ chunk) (store s (.got chunk)) := by
  have hasked := h.asked_eq
  have hsz := h.size.le
  have hread := h.read
  have hgap := h.gap
  have halloc := h.alloc
  have hpos : 0 < chunk.length := List.length_pos_iff.mpr hne
  have hint : asInt chunk.length = chunk.length := asInt_of_range (by omega) (by omega)
  have hcount : (PageBuffer.store s (.got chunk)).bytesread = s.bytesread + chunk.length := by
    rw [store_bytesread, ret_got, hint, if_pos (by omega)]
  refine ⟨?_, ?_, ?_, ?_, ?_⟩
  · rw [store_sz]
    exact h.size
  · rw [store_sz, store_pageBuf, chunk_got, List.length_append, length_overlay, List.length_take,
      List.length_drop, h.toNat_read]
    omega
  · rw [hcount, List.length_append]
    omega
  · rw [hcount, store_sz]
    omega
  · rw [store_pageBuf, chunk_got, h.toNat_read, h.holds, overlay, ← List.append_assoc,
      List.take_left]

lemma Stored.grow (heap : ℕ → UInt8) (h : Stored page s) (hlen : page.length ≤ 2 ^ 30 - 100) :
    Filled page (grow heap s) := by
  have halloc := h.alloc
  have hread := h.read
  have hroom := h.room
  unfold PageBuffer.grow
  split_ifs with hgap
  · have hdouble := h.size.double (by omega)
    have hlo := h.size.ge
    have hhi := hdouble.le
    have hsize : (asSize (s.sz * 2) : ℤ) = s.sz * 2 := by
      rw [asSize]
      omega
    refine ⟨⟨hdouble, ?_, hread, ?_, ?_⟩, ?_⟩
    · rw [length_realloc heap (by omega), hsize]
    · show s.bytesread ≤ s.sz * 2
      omega
    · rw [take_realloc heap (by omega) (by omega), h.holds]
    · show 100 ≤ s.sz * 2 - s.bytesread
      omega
  · exact ⟨h, by omega⟩

/-- A result that is not positive ends the loop, and no bytes come with it. -/
lemma Recv.last {r : Recv} (hr : r.ret ≤ 0) : r.chunk = [] ∧ ¬ 0 < asInt r.ret := by
  cases r with
  | got chunk =>
    have hlen : (chunk.length : ℤ) ≤ 0 := hr
    obtain rfl : chunk = [] := List.length_eq_zero_iff.mp (by omega)
    exact ⟨rfl, by decide⟩
  | failed => exact ⟨rfl, by decide⟩

lemma Filled.turn_last (heap : ℕ → UInt8) (h : Filled page s) {r : Recv} (hr : r.ret ≤ 0) :
    turn heap s r = s := by
  obtain ⟨hchunk, hend⟩ := Recv.last hr
  have hstore : PageBuffer.store s r = s := by
    unfold PageBuffer.store
    rw [hchunk, if_neg hend, overlay, List.nil_append, List.length_nil, List.drop_zero,
      List.take_append_drop]
  have hgap := h.gap
  rw [turn, hstore, PageBuffer.grow, if_neg (by omega)]

/-- **The loop.** Every `recv` is called in a buffer with a hundred bytes free, and all that came
is in the buffer at the end. -/
theorem recvLoop_filled (heap : ℕ → UInt8) {chunks : List Bytes} {last : Recv}
    (hne : ∀ c ∈ chunks, c ≠ []) (hlast : last.ret ≤ 0) (h : Filled page s)
    (hlen : page.length + chunks.flatten.length ≤ 2 ^ 30 - 100)
    (hans : Answers heap (chunks.map .got ++ [last]) s) :
    ∃ calls s', recvLoop heap (chunks.map .got ++ [last]) s = some (calls, s') ∧
      calls.map Prod.snd = chunks.map .got ++ [last] ∧
      (∀ c ∈ calls, ∃ p, Filled p c.1 ∧ c.2.ret ≤ c.1.asked) ∧
      Filled (page ++ chunks.flatten) s' := by
  induction chunks generalizing page s with
  | nil =>
    have hturn := h.turn_last heap hlast
    refine ⟨[(s, last)], s, ?_, rfl, ?_, by simpa using h⟩
    · rw [List.map_nil, List.nil_append, recvLoop, if_neg (Recv.last hlast).2, hturn]
    · intro c hc
      obtain rfl := List.mem_singleton.mp hc
      exact ⟨page, h, hans.1⟩
  | cons chunk chunks ih =>
    obtain ⟨hchunk, hchunks⟩ := List.forall_mem_cons.mp hne
    obtain ⟨hle, hans⟩ := hans
    rw [List.flatten_cons, List.length_append] at hlen
    have hpos : 0 < chunk.length := List.length_pos_iff.mpr hchunk
    have hint : asInt (Recv.ret (.got chunk)) = chunk.length :=
      asInt_of_range (by show _ ≤ (chunk.length : ℤ); omega)
        (by show (chunk.length : ℤ) < _; omega)
    have hstored := h.store hchunk (by simpa [Recv.ret] using hle)
    have hfilled := hstored.grow heap (by rw [List.length_append]; omega)
    obtain ⟨calls, s', hrun, hall, hcalls, hend⟩ :=
      ih hchunks hfilled (by rw [List.length_append]; omega) hans
    refine ⟨(s, .got chunk) :: calls, s', ?_, ?_, ?_, ?_⟩
    · rw [List.map_cons, List.cons_append, recvLoop, if_pos (by omega), turn, hrun]
      rfl
    · rw [List.map_cons, hall, List.map_cons, List.cons_append]
    · exact List.forall_mem_cons.mpr ⟨⟨page, h, hle⟩, hcalls⟩
    · rwa [List.flatten_cons, ← List.append_assoc]

/-! ### The page -/

/-- A `recv` that is asked for at least a hundred bytes and writes inside of the `SZ` bytes
allocated. -/
structure Safe (s : Loop) (r : Recv) : Prop where
  asked : 100 ≤ s.asked
  size : 0 < s.sz ∧ s.sz < 2 ^ 31
  alloc : (s.pageBuf.length : ℤ) = s.sz
  start : 0 ≤ s.bytesread
  stop : s.bytesread + s.asked ≤ s.sz
  fits : r.chunk.length ≤ s.asked

/-- The buffer with all of `page` in it. -/
structure Complete (page : Bytes) (s : Loop) : Prop where
  size : 0 < s.sz ∧ s.sz < 2 ^ 31
  alloc : (s.pageBuf.length : ℤ) = s.sz
  read : s.bytesread = page.length
  index : s.bytesread < s.sz
  text : s.pageBuf.take (page.length + 1) = page ++ [0]

lemma Recv.length_chunk_le {r : Recv} {n : ℕ} (h : r.ret ≤ n) : r.chunk.length ≤ n := by
  cases r with
  | got chunk => exact Int.ofNat_le.mp h
  | failed => exact Nat.zero_le n

lemma Filled.safe (h : Filled page s) {r : Recv} (hr : r.ret ≤ s.asked) : Safe s r := by
  have hasked := h.asked_eq
  have hlo := h.size.ge
  have hhi := h.size.le
  have hread := h.read
  have hgap := h.gap
  exact ⟨by omega, by omega, h.alloc, by omega, by omega, Recv.length_chunk_le hr⟩

lemma Filled.complete (h : Filled page s) : Complete page (terminate s) := by
  have hlo := h.size.ge
  have hhi := h.size.le
  have hread := h.read
  have hgap := h.gap
  have halloc := h.alloc
  have hlt : page.length < s.pageBuf.length := by omega
  refine ⟨?_, ?_, hread, ?_, ?_⟩
  · show 0 < s.sz ∧ s.sz < 2 ^ 31
    omega
  · rw [terminate, List.length_set]
    exact halloc
  · show s.bytesread < s.sz
    omega
  · show (s.pageBuf.set s.bytesread.toNat 0).take (page.length + 1) = page ++ [0]
    rw [h.toNat_read, List.take_set, List.take_succ_eq_append_getElem hlt, h.holds,
      List.set_append_right _ _ le_rfl, Nat.sub_self]
    rfl

/-- **The page.** When the results of `recv` add up to at most `2 ^ 30 - 100` bytes, the loop
ends, every `recv` on the way is safe, and the buffer has the page in it, with a NUL behind. -/
theorem page_complete (heap : ℕ → UInt8) (chunks : List Bytes) (last : Recv)
    (hne : ∀ c ∈ chunks, c ≠ []) (hlast : last.ret ≤ 0)
    (hlen : chunks.flatten.length ≤ 2 ^ 30 - 100)
    (hans : Answers heap (chunks.map .got ++ [last]) start) :
    ∃ calls s, getHttpResponse heap (chunks.map .got ++ [last]) = some (calls, s) ∧
      calls.map Prod.snd = chunks.map .got ++ [last] ∧
      (∀ c ∈ calls, Safe c.1 c.2) ∧ Complete chunks.flatten s := by
  obtain ⟨calls, s, hrun, hall, hcalls, hend⟩ :=
    recvLoop_filled heap hne hlast filled_start (by simpa using hlen) hans
  refine ⟨calls, terminate s, ?_, hall, ?_, hend.complete⟩
  · rw [getHttpResponse, hrun]
    rfl
  · intro c hc
    obtain ⟨p, hp, hret⟩ := hcalls c hc
    exact hp.safe hret

/-- After a first chunk of this length the buffer is doubled. -/
def longChunk : Bytes := List.replicate 4000 97

lemma length_longChunk : longChunk.length = 4000 := List.length_replicate

lemma longChunk_ne_nil : longChunk ≠ [] := by
  rw [← List.length_pos_iff, length_longChunk]
  omega

lemma answers_longChunk :
    Answers (fun _ => 7) ([longChunk, [98]].map .got ++ [.got []]) start := by
  have hfirst : longChunk.length ≤ start.asked := by
    rw [length_longChunk]
    decide
  have hfilled := (filled_start.store longChunk_ne_nil hfirst).grow (fun _ => 7)
    (by rw [List.nil_append, length_longChunk]; omega)
  have hsecond := (hfilled.safe (r := .failed) (by rw [Recv.ret]; omega)).asked
  refine ⟨by rw [ret_got]; omega, ?_, Int.natCast_nonneg _, trivial⟩
  rw [ret_got, turn, List.length_singleton]
  omega

theorem page_complete_longChunk :
    Answers (fun _ => 7) ([longChunk, [98]].map .got ++ [.got []]) start ∧
      ∃ calls s, getHttpResponse (fun _ => 7) ([longChunk, [98]].map .got ++ [.got []]) =
          some (calls, s) ∧
        calls.map Prod.snd = [longChunk, [98]].map .got ++ [.got []] ∧
        (∀ c ∈ calls, Safe c.1 c.2) ∧ Complete [longChunk, [98]].flatten s := by
  refine ⟨answers_longChunk, page_complete _ _ _ ?_ le_rfl ?_ answers_longChunk⟩
  · exact List.forall_mem_cons.mpr ⟨longChunk_ne_nil, by decide⟩
  · rw [List.flatten_cons, List.length_append, length_longChunk]
    decide

end WeatherQuery.PageBuffer
