import WeatherQuery.CrawlKeys

/-!
Where `UncodeTostr` writes.

Its table has a row for each of twenty bytes, and its first loop goes over the whole name. The
other two loops stay inside the buffer of the caller: a name has at most two digits a byte, and
what an earlier turn has left there is no longer.
-/

namespace WeatherQuery.KeyBounds

open WeatherQuery.CText WeatherQuery.InPlace WeatherQuery.KeyModel WeatherQuery.CityKey
open WeatherQuery.CrawlKeys WeatherQuery.Overwrite

/-! ### The indices -/

/-- The rows of `buf[20][30]` that the first loop writes. -/
def rowWrites (inp : Bytes) : List ℕ := List.range (strlen inp)

/-- `out[cur++]`: the index is noted. -/
def note (st : ℕ × List ℕ) (_ : UInt8) : ℕ × List ℕ := (st.1 + 1, st.2 ++ [st.1])

/-- The indices of `out` that the second loop writes. -/
def copyWrites (buf : List Bytes) : List ℕ :=
  ((List.range 20).foldl (fun st i =>
    if 8 ≤ strlen (buf.getD i []) then
      (List.range 9).foldl (fun st j =>
        if (buf.getD i []).getD j 0 ≠ 'f'.toUInt8 ∧ (buf.getD i []).getD j 0 ≠ 0 then
          note st ((buf.getD i []).getD j 0) else st) st
    else st) (0, [])).2

/-- The indices of `out` that the third loop writes, `none` when it does not come to an end. -/
def upcaseWrites (out : Bytes) : Option (List ℕ) :=
  (forTests (fun i out => i < strlen out) (fun i out => out.set i (upper (out.getD i 0)))
    (out.length + 1) 0 out).map fun tests =>
      (tests.filter fun p => p.1 < strlen p.2 && promote (p.2.getD p.1 0) > 57).map Prod.fst

/-- A city name as `find_resource` reads it into `city_name[50]`. -/
structure Name where
  bytes : Bytes
  nulFree : NulFree bytes
  cut : '<'.toUInt8 ∉ bytes
  short : bytes.length ≤ 49

/-- `city_name` with the name in it. -/
def Name.buf (name : Name) : Bytes := name.bytes ++ 0 :: List.replicate (49 - name.bytes.length) 0

/-- `UncodeTostr` stays in its table and in the 50 bytes of `out`. -/
structure InBuffers (inp out : Bytes) : Prop where
  rows : ∀ i ∈ rowWrites inp, i < 20
  copies : ∀ i ∈ copyWrites (printRows inp), i < 50
  uppers : ∃ is, upcaseWrites (copyRows (printRows inp) out) = some is ∧ ∀ i ∈ is, i < 50

/-! ### The loops -/

lemma foldl_note (t : Bytes) (n : ℕ) :
    t.foldl note (n, List.range n) = (n + t.length, List.range (n + t.length)) := by
  induction t generalizing n with
  | nil => rfl
  | cons c t ih =>
    rw [List.foldl_cons, note, ← List.range_succ, ih, List.length_cons]
    rw [Nat.add_right_comm, Nat.add_assoc]

lemma copyWrites_eq {buf : List Bytes} (h : buf.length = 20) :
    copyWrites buf = List.range (buf.flatMap kept).length := by
  have hfold := foldl_note (buf.flatMap kept) 0
  rw [Nat.zero_add] at hfold
  exact congrArg Prod.snd ((foldl_rows note h (0, [])).trans hfold)

lemma upcaseWrites_lt {t : Bytes} (ht : NulFree t) (r : Bytes) :
    ∃ is, upcaseWrites (t ++ 0 :: r) = some is ∧ ∀ i ∈ is, i < t.length := by
  obtain ⟨hgo, hstop⟩ := upcase_turns ht r
  have hstart : upcaseAt t r 0 = t ++ 0 :: r := by simp [upcaseAt]
  have hfuel : t.length - 0 < (t ++ 0 :: r).length + 1 := by
    rw [List.length_append, List.length_cons]
    omega
  have htests : forTests (fun i out => i < strlen out)
      (fun i out => out.set i (upper (out.getD i 0))) _ 0 (upcaseAt t r 0) = _ :=
    forTests_states hgo hstop (Nat.zero_le _) hfuel
  rw [hstart] at htests
  refine ⟨_, by rw [upcaseWrites, htests, Option.map_some], ?_⟩
  intro i hi
  simp only [List.mem_map, List.mem_filter] at hi
  obtain ⟨-, ⟨⟨j, -, rfl⟩, hj⟩, rfl⟩ := hi
  rw [strlen_upcaseAt ht, Bool.and_eq_true, decide_eq_true_eq] at hj
  exact hj.1

/-- The buffer of the caller between two turns. -/
def outBuf (c : Bytes) : Bytes := c ++ List.replicate (50 - c.length) 0

/-- A name that has a row for each of its bytes. -/
lemma inBuffers_of_short {name : Name} (hlen : name.bytes.length ≤ 20) {c : Bytes}
    (hc : Written c) : InBuffers name.buf (outBuf c) := by
  have hrows : printRows name.buf = _ := printRows_eq name.nulFree hlen _
  have htable : (printRows name.buf).length = 20 := by
    rw [hrows]
    simp
    omega
  have hcopied : (printRows name.buf).flatMap kept = copied name.bytes := by
    rw [hrows, flatMap_kept]
  have hle := length_copied_le name.bytes
  have hshort := hc.short
  refine ⟨?_, ?_, ?_⟩
  · intro i hi
    rw [rowWrites, Name.buf, strlen_append_nul name.nulFree, List.mem_range] at hi
    omega
  · intro i hi
    rw [copyWrites_eq htable, hcopied, List.mem_range] at hi
    omega
  · -- the new digits over the old ones, and at least ten zeros behind them
    have hout : copyRows (printRows name.buf) (outBuf c) = _ :=
      copyRows_printRows name.nulFree hlen _ c (by omega)
    rw [Nat.add_sub_cancel' (by omega)] at hout
    have hlength := length_overlay (copied name.bytes) c
    obtain ⟨k, hk⟩ : ∃ k, 50 - (overlay (copied name.bytes) c).length = k + 1 :=
      ⟨50 - (overlay (copied name.bytes) c).length - 1, by omega⟩
    rw [hout, hk, List.replicate_succ]
    obtain ⟨is, his, hlt⟩ := upcaseWrites_lt
      (nulFree_overlay (nulFree_copied name.bytes) hc.nulFree) (List.replicate k 0)
    exact ⟨is, his, fun i hi => by have := hlt i hi; omega⟩

/-- **The buffers.** Whatever an earlier turn has left in the buffer of the caller, `UncodeTostr`
stays inside it and inside its table exactly when the name has at most 20 bytes. -/
theorem inBuffers_iff (name : Name) (c : Bytes) (hc : Written c) :
    InBuffers name.buf (outBuf c) ↔ name.bytes.length ≤ 20 := by
  constructor
  · intro h
    by_contra hlong
    have hrow : 20 ∈ rowWrites name.buf := by
      rw [rowWrites, Name.buf, strlen_append_nul name.nulFree, List.mem_range]
      omega
    exact absurd (h.rows 20 hrow) (lt_irrefl 20)
  · exact fun h => inBuffers_of_short h hc

/-! ### Two names -/

def beijingName : Name := ⟨beijing, by decide, by decide, by decide⟩

theorem inBuffers_beijing : Written [] ∧ InBuffers beijingName.buf (outBuf []) :=
  ⟨written_nil, (inBuffers_iff beijingName [] written_nil).mpr (by decide)⟩

/-- A station of `data.html`, with a name of 21 bytes. -/
def stationName : Name where
  bytes := [0xE4, 0xB9, 0x8C, 0xE9, 0xB2, 0x81, 0xE6, 0x9C, 0xA8, 0xE9, 0xBD, 0x90, 0xE7, 0x89,
    0xA7, 0xE8, 0xAF, 0x95, 0xE7, 0xAB, 0x99]
  nulFree := by decide
  cut := by decide
  short := by decide

theorem not_inBuffers_station :
    ¬ ∀ (name : Name) (c : Bytes), Written c → InBuffers name.buf (outBuf c) := by
  intro h
  have hrow := (h stationName [] written_nil).rows 20 (by decide)
  exact absurd hrow (lt_irrefl 20)

end WeatherQuery.KeyBounds
