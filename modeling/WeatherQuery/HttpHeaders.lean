import WeatherQuery.HttpCalls
import WeatherQuery.Newlines

/-!
The end of the headers.

`clear_header` and the header loop of `exe_cgi` read pieces of at most 1023 bytes until one of
them is a line end alone. A header line whose length is a multiple of that is read in full
pieces, and its own line end is then taken for the empty line.
-/

namespace WeatherQuery.HttpHeaders

open WeatherQuery.CText WeatherQuery.Traced WeatherQuery.HttpModel WeatherQuery.HttpCalls
open WeatherQuery.Newlines

/-! ### A stream that has arrived -/

/-- Nothing more is to come. -/
def Still (w : World) : Prop := w.later = [] ∧ w.sched = []

/-- The client's end after `k` more bytes were read. -/
def skip (w : World) (k : ℕ) : World :=
  { w with avail := w.avail.drop k, pos := w.pos + k }

lemma skip_skip (w : World) (j k : ℕ) : skip (skip w j) k = skip w (j + k) := by
  simp [skip, Nat.add_assoc]

@[simp] lemma skip_zero (w : World) : skip w 0 = w := by simp [skip]

lemma Still.skip {w : World} (h : Still w) (k : ℕ) : Still (skip w k) := h

lemma Still.arrive {w : World} (h : Still w) : w.arrive = w := by
  obtain ⟨avail, later, sched, takes, pos⟩ := w
  obtain ⟨rfl, rfl⟩ : later = [] ∧ sched = [] := h
  simp [World.arrive]

lemma recv_byte {w : World} (h : Still w) {c : UInt8} {r : Bytes} (ha : w.avail = c :: r) :
    (recv false w).val = some (some c) ∧ (recv false w).st = skip w 1 := by
  simp [recv, h.arrive, ha, skip]

lemma recv_peek {w : World} (h : Still w) :
    (recv true w).val = some w.avail.head? ∧ (recv true w).st = w := by
  rcases ha : w.avail with _ | ⟨c, r⟩ <;> simp [recv, h.arrive, ha]

lemma recv_dry {w : World} (h : Still w) (ha : w.avail = []) :
    (recv false w).val = some none ∧ (recv false w).st = w := by
  simp [recv, h.arrive, ha]

/-- The piece `get_line` takes next. -/
def nextPiece (room : ℕ) (w : World) : Bytes := piece lf room (normalise cr lf w.avail)

/-- One normalised byte off the stream. -/
lemma nextPiece_end (room : ℕ) {w : World} {k : ℕ} {us : List (UInt8 × ℕ)}
    (hu : units cr lf w.avail = (lf, k) :: us) :
    nextPiece (room + 1) w = [lf] ∧ span cr lf w.avail 1 = k := by
  simp [nextPiece, normalise, span, hu, piece]

lemma nextPiece_byte (room : ℕ) {w : World} {c : UInt8} {r : Bytes} (ha : w.avail = c :: r)
    (hcr : c ≠ cr) (hlf : c ≠ lf) :
    nextPiece (room + 1) w = c :: nextPiece room (skip w 1) ∧
      ∀ n, span cr lf w.avail (n + 1) = 1 + span cr lf (skip w 1).avail n := by
  have hskip : (skip w 1).avail = r := by simp [skip, ha]
  have hu : units cr lf w.avail = (c, 1) :: units cr lf r := by rw [ha, units_lone hcr]
  simp [nextPiece, normalise, span, hu, hskip, piece, hlf]

/-- **One `get_line`.** On a stream that has arrived it takes a piece of the normalised stream. -/
theorem fillLine_still (room : ℕ) {w : World} (h : Still w) :
    (fillLine room w).val = some (nextPiece room w) ∧
      (fillLine room w).st = skip w (span cr lf w.avail (nextPiece room w).length) := by
  induction room generalizing w with
  | zero => simp [fillLine, nextPiece, piece, span]
  | succ room ih =>
    unfold fillLine
    rcases ha : w.avail with _ | ⟨c, r⟩
    · obtain ⟨hval, hst⟩ := recv_dry h ha
      rw [bind_run_some hval]
      simp [nextPiece, normalise, units, span, ha, hst, piece]
    · obtain ⟨hval, hst⟩ := recv_byte h ha
      rw [bind_run_some hval]
      dsimp only
      have hskip : (skip w 1).avail = r := by simp [skip, ha]
      by_cases hcr : c = cr
      · rw [if_pos hcr, hst]
        obtain ⟨hpeek, hkept⟩ := recv_peek (h.skip 1)
        rw [bind_run_some hpeek, hskip, hkept]
        subst hcr
        by_cases hlf : r.head? = some lf
        · obtain ⟨t, rfl⟩ : ∃ t, r = lf :: t := by cases r <;> simp_all
          obtain ⟨hval', hst'⟩ := recv_byte (h.skip 1) hskip
          have hend := nextPiece_end room (w := w) (by rw [ha, units_crlf])
          rw [if_pos hlf, bind_run_some hval', hst', skip_skip, hend.1, ← ha]
          exact ⟨rfl, by rw [List.length_singleton, hend.2]; rfl⟩
        · have hend := nextPiece_end room (w := w) (by rw [ha, units_cr hlf])
          rw [if_neg hlf, hend.1, ← ha]
          exact ⟨rfl, by rw [List.length_singleton, hend.2]; rfl⟩
      · rw [if_neg hcr, hst]
        by_cases hlf : c = lf
        · have hend := nextPiece_end room (w := w) (by rw [ha, hlf, units_lone (by decide)])
          rw [if_pos hlf, hend.1, ← ha]
          exact ⟨rfl, by rw [List.length_singleton, hend.2]; rfl⟩
        · obtain ⟨hval', hst'⟩ := ih (h.skip 1)
          obtain ⟨hpiece, hspan⟩ := nextPiece_byte room ha hcr hlf
          rw [if_neg hlf, bind_run_some hval', hst', hpiece, ← ha]
          exact ⟨rfl, by rw [List.length_cons, hspan, ← skip_skip]; rfl⟩

/-! ### The two loops -/

/-- Lines up to an empty one, each with its effect on a state. -/
def readLines {σ : Type} (g : Bytes → σ → σ) : ℕ → σ → Io σ :=
  loop fun x => do
    let line ← getLine bufSize
    pure (if blank line then .inr (g line x) else .inl (g line x))

/-- What a loop over the header lines gives, and where it leaves the client's end. -/
lemma clearHeader_run (fuel : ℕ) (w : World) :
    (clearHeader fuel w).val = (readLines (fun _ _ => ()) fuel () w).val ∧
      (clearHeader fuel w).st = (readLines (fun _ _ => ()) fuel () w).st := by
  have heq : clearHeader fuel = readLines (fun _ _ => ()) fuel () >>= fun _ => headerEnd := rfl
  rw [heq]
  rcases h : (readLines (fun _ _ => ()) fuel () w).val with _ | x
  · simp [bind_run_none h]
  · simp [bind_run_some h, headerEnd]

lemma postHeader_run (fuel : ℕ) (w : World) :
    (postHeader fuel w).val = (readLines headerLine fuel 0 w).val ∧
      (postHeader fuel w).st = (readLines headerLine fuel 0 w).st := by
  have heq : postHeader fuel =
      readLines headerLine fuel 0 >>= fun n => headerEnd >>= fun _ => pure n := rfl
  rw [heq]
  rcases h : (readLines headerLine fuel 0 w).val with _ | n
  · simp [bind_run_none h]
  · simp [bind_run_some h, headerEnd, bind_run, Ran.andThen]

lemma blank_piece (room : ℕ) (t : Bytes) :
    blank (piece lf room t) = true ↔ piece lf room t = [lf] := by
  unfold blank
  rw [decide_eq_true_iff]
  rcases room with _ | room
  · simp [piece, cstr]
  · rcases t with _ | ⟨c, t⟩
    · simp [piece, cstr]
    · by_cases hc : c = lf
      · simp [piece, hc, cstr, lf]
      · have hstr : cstr (c :: piece lf room t) ≠ [lf] := by
          intro h
          by_cases h0 : c = 0 <;> simp [cstr, h0, hc] at h
        simp [piece, hc, hstr]

section Turn

variable {σ : Type} (g : Bytes → σ → σ) (fuel : ℕ) (x : σ) {w : World}

/-- The client's end after the next piece. -/
def afterPiece (w : World) : World :=
  skip w (span cr lf w.avail (nextPiece (bufSize - 1) w).length)

/-- One turn of the loop. -/
lemma turn_run (hw : Still w) :
    (do
      let line ← getLine bufSize
      pure (if blank line then .inr (g line x) else .inl (g line x)) : Io (σ ⊕ σ)) w =
        ⟨some (if blank (nextPiece (bufSize - 1) w) then .inr (g (nextPiece (bufSize - 1) w) x)
          else .inl (g (nextPiece (bufSize - 1) w) x)), afterPiece w, (getLine bufSize w).log⟩ := by
  obtain ⟨hval, hst⟩ := fillLine_still (bufSize - 1) hw
  rw [getLine, bind_run_some hval, hst]
  simp [afterPiece]

lemma readLines_last (hw : Still w) (h : nextPiece (bufSize - 1) w = [lf]) :
    (readLines g (fuel + 1) x w).val = some (g [lf] x) ∧
      (readLines g (fuel + 1) x w).st = afterPiece w := by
  have hblank : blank [lf] = true := by decide
  have hrun := turn_run g x hw
  rw [h, hblank, if_pos rfl] at hrun
  rw [readLines, loop, bind_run_some (by rw [hrun]), hrun]
  exact ⟨rfl, rfl⟩

lemma readLines_more (hw : Still w) (h : nextPiece (bufSize - 1) w ≠ [lf]) :
    (readLines g (fuel + 1) x w).val =
        (readLines g fuel (g (nextPiece (bufSize - 1) w) x) (afterPiece w)).val ∧
      (readLines g (fuel + 1) x w).st =
        (readLines g fuel (g (nextPiece (bufSize - 1) w) x) (afterPiece w)).st := by
  have hblank : ¬ blank (nextPiece (bufSize - 1) w) = true :=
    fun hb => h ((blank_piece (bufSize - 1) (normalise cr lf w.avail)).mp hb)
  have hrun := turn_run g x hw
  rw [if_neg hblank] at hrun
  rw [readLines, loop, bind_run_some (by rw [hrun]), hrun]
  exact ⟨rfl, rfl⟩

end Turn

/-- **The header loop.** It reads the pieces of the stream up to the first empty one. -/
theorem readLines_cut {σ : Type} (g : Bytes → σ → σ) {ps : List Bytes} {w : World} {fuel : ℕ}
    (hw : Still w) (hcut : Cut lf (bufSize - 1) (normalise cr lf w.avail) ps)
    (hfuel : ps.length ≤ fuel) (x : σ) :
    (readLines g fuel x w).val = some (ps.foldl (fun x p => g p x) x) ∧
      (readLines g fuel x w).st = skip w (span cr lf w.avail ps.flatten.length) := by
  induction ps generalizing w fuel x with
  | nil => cases hcut
  | cons p ps ih =>
    obtain ⟨fuel, rfl⟩ : ∃ k, fuel = k + 1 := ⟨fuel - 1, by simp at hfuel; omega⟩
    cases hcut with
    | last h =>
      obtain ⟨hval, hst⟩ := readLines_last g fuel x hw h
      refine ⟨hval, hst.trans ?_⟩
      have hnext : nextPiece (bufSize - 1) w = [lf] := h
      simp [afterPiece, hnext]
    | more h hps =>
      rw [← normalise_drop_span] at hps
      obtain ⟨hval, hst⟩ := readLines_more g fuel x hw h
      obtain ⟨hval', hst'⟩ := ih (w := afterPiece w) (hw.skip _) hps (by simpa using hfuel)
        (g (nextPiece (bufSize - 1) w) x)
      refine ⟨hval.trans hval', hst.trans (hst'.trans ?_)⟩
      rw [afterPiece, skip_skip, List.flatten_cons, List.length_append, span_add]
      rfl

/-! ### The end of the headers -/

/-- The program returns, having read the first `m` bytes of the normalised stream. -/
def Reads {α : Type} (p : Io α) (w : World) (m : ℕ) : Prop :=
  (p w).val.isSome = true ∧ (p w).st = skip w (span cr lf w.avail m)

lemma reads_clearHeader_iff (fuel : ℕ) (w : World) (m : ℕ) :
    Reads (clearHeader fuel) w m ↔ Reads (readLines (fun _ _ => ()) fuel ()) w m := by
  obtain ⟨hval, hst⟩ := clearHeader_run fuel w
  rw [Reads, Reads, hval, hst]

lemma reads_postHeader_iff (fuel : ℕ) (w : World) (m : ℕ) :
    Reads (postHeader fuel) w m ↔ Reads (readLines headerLine fuel 0) w m := by
  obtain ⟨hval, hst⟩ := postHeader_run fuel w
  rw [Reads, Reads, hval, hst]

/-- The loop returns, and where it stops depends on the lengths of the lines. -/
lemma reads_readLines_iff {σ : Type} (g : Bytes → σ → σ) (x : σ) {w : World} {fuel : ℕ}
    {lines : List Bytes} {rest : Bytes} (hw : Still w) (hlines : ∀ l ∈ lines, l ≠ [] ∧ lf ∉ l)
    (hs : normalise cr lf w.avail = block lf lines ++ lf :: rest)
    (hfuel : w.avail.length ≤ fuel) :
    Reads (readLines g fuel x) w ((block lf lines).length + 1) ↔
      ∀ l ∈ lines, ¬ bufSize - 1 ∣ l.length := by
  have hroom : 0 < bufSize - 1 := by decide
  obtain ⟨qs, hcut, hlen, hle, hiff⟩ := cut_block hroom hlines rest
  have hnorm : (block lf lines).length + 1 ≤ (normalise cr lf w.avail).length := by
    rw [hs, List.length_append, List.length_cons]
    omega
  have hraw : (normalise cr lf w.avail).length ≤ w.avail.length := length_normalise_le _
  rw [← hs] at hcut
  obtain ⟨hval, hst⟩ := readLines_cut g hw hcut (by omega : qs.length ≤ fuel) x
  rw [← hiff]
  constructor
  · rintro ⟨-, hst'⟩
    by_contra hne
    have hspan : span cr lf w.avail qs.flatten.length <
        span cr lf w.avail ((block lf lines).length + 1) := span_lt (by omega) hnorm
    have hpos := congrArg World.pos (hst.symm.trans hst')
    simp only [skip] at hpos
    omega
  · intro heq
    exact ⟨by rw [hval]; rfl, by rw [hst, heq]⟩

/-- **The end of the headers.** Of a header block that has arrived, with an empty line after it,
`clear_header` and the loop of `exe_cgi` read exactly the bytes up to and including that line
when no header line has a length that is a multiple of 1023, and then only. -/
theorem reads_header_iff (w : World) (hw : Still w) (lines : List Bytes) (rest : Bytes)
    (hlines : ∀ l ∈ lines, l ≠ [] ∧ lf ∉ l)
    (hs : normalise cr lf w.avail = block lf lines ++ lf :: rest) (fuel : ℕ)
    (hfuel : w.avail.length ≤ fuel) :
    (Reads (clearHeader fuel) w ((block lf lines).length + 1) ↔
        ∀ l ∈ lines, ¬ 1023 ∣ l.length) ∧
      (Reads (postHeader fuel) w ((block lf lines).length + 1) ↔
        ∀ l ∈ lines, ¬ 1023 ∣ l.length) := by
  rw [reads_clearHeader_iff, reads_postHeader_iff]
  exact ⟨reads_readLines_iff _ _ hw hlines hs hfuel, reads_readLines_iff _ _ hw hlines hs hfuel⟩

/-- `Host: a` with a CRLF, an empty line and a body. -/
def hostHeader : World where
  avail := lit ['H', 'o', 's', 't', ':', ' ', 'a', '\r', '\n', '\r', '\n', 'x', '=', '1']
  later := []
  sched := []
  takes := []
  pos := 0

theorem reads_header_iff_hostHeader :
    normalise cr lf hostHeader.avail =
        block lf [lit ['H', 'o', 's', 't', ':', ' ', 'a']] ++ lf :: lit ['x', '=', '1'] ∧
      (Reads (clearHeader 14) hostHeader 9 ↔
        ∀ l ∈ [lit ['H', 'o', 's', 't', ':', ' ', 'a']], ¬ 1023 ∣ l.length) ∧
      (Reads (postHeader 14) hostHeader 9 ↔
        ∀ l ∈ [lit ['H', 'o', 's', 't', ':', ' ', 'a']], ¬ 1023 ∣ l.length) :=
  ⟨by decide, reads_header_iff hostHeader ⟨rfl, rfl⟩ [lit ['H', 'o', 's', 't', ':', ' ', 'a']]
    (lit ['x', '=', '1']) (by simp [lit, lf]; decide) (by decide) 14 (by decide)⟩

/-- A header line of 1023 bytes. -/
def longLine : Bytes := List.replicate 1023 'a'.toUInt8

lemma length_longLine : longLine.length = 1023 := List.length_replicate

lemma notMem_longLine {c : UInt8} (hc : c ≠ 'a'.toUInt8) : c ∉ longLine :=
  fun h => hc (List.eq_of_mem_replicate h)

/-- The line and an empty line. -/
def longHeader : World where
  avail := longLine ++ [lf, lf]
  later := []
  sched := []
  takes := []
  pos := 0

/-- The line end of `longLine` is taken for the empty line. -/
theorem not_reads_longHeader :
    ¬ ∀ (w : World) (lines : List Bytes) (rest : Bytes) (fuel : ℕ), Still w →
      (∀ l ∈ lines, l ≠ [] ∧ lf ∉ l) → normalise cr lf w.avail = block lf lines ++ lf :: rest →
      w.avail.length ≤ fuel →
        Reads (clearHeader fuel) w ((block lf lines).length + 1) ∧
          Reads (postHeader fuel) w ((block lf lines).length + 1) := by
  intro h
  have hcr : cr ∉ longHeader.avail := by
    intro hmem
    rcases List.mem_append.mp hmem with hmem | hmem
    · exact notMem_longLine (by decide) hmem
    · exact absurd hmem (by decide)
  have hne : longLine ≠ [] := List.ne_nil_of_length_pos (by rw [length_longLine]; decide)
  have hlines : ∀ l ∈ [longLine], l ≠ [] ∧ lf ∉ l := by
    intro l hl
    obtain rfl := List.mem_singleton.mp hl
    exact ⟨hne, notMem_longLine (by decide)⟩
  have hs : normalise cr lf longHeader.avail = block lf [longLine] ++ lf :: [] := by
    rw [normalise_of_notMem hcr, block_cons]
    simp [block, longHeader]
  have hclear := (h longHeader [longLine] [] _ ⟨rfl, rfl⟩ hlines hs le_rfl).1
  rw [reads_clearHeader_iff, reads_readLines_iff _ _ ⟨rfl, rfl⟩ hlines hs le_rfl] at hclear
  exact hclear longLine (List.mem_singleton_self _) (by rw [length_longLine]; decide)

end WeatherQuery.HttpHeaders
