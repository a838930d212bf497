import WeatherQuery.HttpHeaders

/-!
`get_line` up to the end of the stream.

Called again and again, `get_line` cuts the stream into pieces and loses nothing of it. At the
end of the stream it stores nothing and still returns 1. The two header loops look only for a
line end alone, so a stream that has none keeps them at it for ever.
-/

namespace WeatherQuery.HttpLines

open WeatherQuery.CText WeatherQuery.Traced WeatherQuery.HttpModel WeatherQuery.HttpHeaders
open WeatherQuery.Newlines

/-! ### The header loops -/

/-- The program returns, with enough turns of its loop. -/
def Ends {α : Type} (p : ℕ → Io α) (w : World) : Prop := ∃ fuel, (p fuel w).val.isSome = true

/-- A loop that returned has found a line end alone. -/
lemma readLines_finds {σ : Type} (g : Bytes → σ → σ) {fuel : ℕ} {x : σ} {w : World}
    (hw : Still w) (h : (readLines g fuel x w).val.isSome = true) :
    ∃ ps, Cut lf (bufSize - 1) (normalise cr lf w.avail) ps := by
  induction fuel generalizing x w with
  | zero => simp [readLines, loop] at h
  | succ fuel ih =>
    by_cases hlast : nextPiece (bufSize - 1) w = [lf]
    · exact ⟨_, .last hlast⟩
    · rw [(readLines_more g fuel x hw hlast).1] at h
      obtain ⟨ps, hps⟩ := ih (w := afterPiece w) (hw.skip _) h
      have hdrop : normalise cr lf (afterPiece w).avail =
          (normalise cr lf w.avail).drop (nextPiece (bufSize - 1) w).length :=
        normalise_drop_span _ _
      rw [hdrop] at hps
      exact ⟨_, .more hlast hps⟩

lemma readLines_ends_iff {σ : Type} (g : Bytes → σ → σ) (x : σ) {w : World} (hw : Still w) :
    Ends (fun fuel => readLines g fuel x) w ↔
      ∃ l ∈ ended lf (normalise cr lf w.avail), bufSize - 1 ∣ l.length := by
  rw [← exists_cut_iff (by decide)]
  constructor
  · rintro ⟨fuel, h⟩
    exact readLines_finds g hw h
  · rintro ⟨ps, hps⟩
    refine ⟨ps.length, ?_⟩
    rw [(readLines_cut g hw hps le_rfl x).1]
    rfl

lemma ends_clearHeader_iff (w : World) :
    Ends clearHeader w ↔ Ends (fun fuel => readLines (fun _ _ => ()) fuel ()) w :=
  exists_congr fun fuel => by rw [(clearHeader_run fuel w).1]

lemma ends_postHeader_iff (w : World) :
    Ends postHeader w ↔ Ends (fun fuel => readLines headerLine fuel 0) w :=
  exists_congr fun fuel => by rw [(postHeader_run fuel w).1]

/-- **The header loops at the end of the stream.** On a stream that ends, `clear_header` and the
loop of `exe_cgi` return when a line of it ends and has a length that is a multiple of 1023, as
an empty line has, and then only. -/
theorem header_ends_iff (w : World) (hw : Still w) :
    (Ends clearHeader w ↔ ∃ l ∈ ended lf (normalise cr lf w.avail), 1023 ∣ l.length) ∧
      (Ends postHeader w ↔ ∃ l ∈ ended lf (normalise cr lf w.avail), 1023 ∣ l.length) := by
  rw [ends_clearHeader_iff, ends_postHeader_iff]
  exact ⟨readLines_ends_iff _ _ hw, readLines_ends_iff _ _ hw⟩

theorem header_ends_hostHeader :
    ended lf (normalise cr lf hostHeader.avail) = [lit ['H', 'o', 's', 't', ':', ' ', 'a'], []] ∧
      Ends clearHeader hostHeader ∧ Ends postHeader hostHeader := by
  have hempty : ∃ l ∈ ended lf (normalise cr lf hostHeader.avail), 1023 ∣ l.length := by decide
  have h := header_ends_iff hostHeader ⟨rfl, rfl⟩
  exact ⟨by decide, h.1.mpr hempty, h.2.mpr hempty⟩

/-- A client that closed without a byte. -/
def silentClient : World where
  avail := []
  later := []
  sched := []
  takes := []
  pos := 0

/-- The client is gone, and the loops go on. -/
theorem not_ends_silentClient :
    ¬ ∀ w : World, Still w → Ends clearHeader w ∧ Ends postHeader w := by
  intro h
  have hclear := (h silentClient ⟨rfl, rfl⟩).1
  rw [ends_clearHeader_iff, readLines_ends_iff _ _ ⟨rfl, rfl⟩] at hclear
  obtain ⟨l, hl, -⟩ := hclear
  exact absurd hl (by simp [silentClient, normalise, units, ended])

/-! ### The pieces of a stream -/

/-- How many bytes have been read. -/
def readSoFar : Io ℕ := fun w => ⟨some w.pos, w, []⟩

/-- `get_line`, called until it stores nothing: every piece, and where it ended. -/
def splitStream (maxLen : ℕ) : ℕ → List (Bytes × ℕ) → Io (List (Bytes × ℕ)) :=
  loop fun done => do
    let line ← getLine maxLen
    let pos ← readSoFar
    pure (if line = [] then .inr done else .inl (done ++ [(line, pos)]))

section Split

variable {w : World} (hw : Still w) (maxLen fuel : ℕ) (done : List (Bytes × ℕ))
include hw

lemma splitStream_stop (ha : normalise cr lf w.avail = []) :
    (splitStream maxLen (fuel + 1) done w).val = some done := by
  obtain ⟨hval, hst⟩ := fillLine_still (maxLen - 1) hw
  have hnil : nextPiece (maxLen - 1) w = [] := by
    unfold nextPiece
    rw [ha]
    cases maxLen - 1 <;> rfl
  rw [splitStream, loop, getLine, bind_run, bind_run_some hval]
  simp [readSoFar, hnil, bind_run, Ran.andThen]

lemma splitStream_go (hne : nextPiece (maxLen - 1) w ≠ []) :
    (splitStream maxLen (fuel + 1) done w).val =
      (splitStream maxLen fuel
        (done ++ [(nextPiece (maxLen - 1) w,
          w.pos + span cr lf w.avail (nextPiece (maxLen - 1) w).length)])
        (skip w (span cr lf w.avail (nextPiece (maxLen - 1) w).length))).val := by
  obtain ⟨hval, hst⟩ := fillLine_still (maxLen - 1) hw
  rw [splitStream, loop, getLine, bind_run, bind_run_some hval]
  simp [readSoFar, hne, bind_run, Ran.andThen, hst, skip]

end Split

/-- The calls give the pieces of the stream, each with its end. -/
lemma splitStream_pieces {room : ℕ} (hroom : 0 < room) {t : Bytes} {ps : List Bytes}
    (hps : Pieces lf room t ps) {w : World} (hw : Still w) (ht : normalise cr lf w.avail = t) :
    ∃ rs : List (Bytes × ℕ), rs.map Prod.fst = ps ∧
      (∀ r ∈ rs, ∃ n, r.2 = w.pos + span cr lf w.avail n) ∧
      ∀ fuel done, ps.length < fuel →
        (splitStream (room + 1) fuel done w).val = some (done ++ rs) := by
  induction hps generalizing w with
  | done =>
    refine ⟨[], rfl, by simp, fun fuel done hfuel => ?_⟩
    obtain ⟨fuel, rfl⟩ : ∃ k, fuel = k + 1 := ⟨fuel - 1, by simp at hfuel; omega⟩
    rw [splitStream_stop hw _ fuel done ht, List.append_nil]
  | @more t ps hne hps ih =>
    have hpiece : nextPiece room w = piece lf room t := by rw [nextPiece, ht]
    set m := (nextPiece room w).length with hm
    have hrest : normalise cr lf (skip w (span cr lf w.avail m)).avail = t.drop m := by
      rw [← ht]
      exact normalise_drop_span _ _
    obtain ⟨rs, hrs, hpos, hrun⟩ := ih (hw.skip _) (by rw [hrest, hm, hpiece])
    refine ⟨(nextPiece room w, w.pos + span cr lf w.avail m) :: rs,
      by rw [List.map_cons, hrs, hpiece], ?_, fun fuel done hfuel => ?_⟩
    · rw [List.forall_mem_cons]
      refine ⟨⟨m, rfl⟩, fun r hr => ?_⟩
      obtain ⟨n, hn⟩ := hpos r hr
      exact ⟨m + n, by rw [hn, span_add, ← Nat.add_assoc]; rfl⟩
    · obtain ⟨fuel, rfl⟩ : ∃ k, fuel = k + 1 := ⟨fuel - 1, by simp at hfuel; omega⟩
      have hgo := splitStream_go hw (room + 1) fuel done
        (by rw [Nat.add_sub_cancel, hpiece]; exact piece_ne_nil hroom hne)
      rw [Nat.add_sub_cancel] at hgo
      rw [hgo, hrun fuel _ (by simpa using hfuel), List.append_assoc]
      rfl

/-- **Lines without loss.** Called until it stores nothing, `get_line` gives the normalised
stream in pieces that fit, with a line end only at the end of a piece. A piece without one is
full or the last, and no piece ends between a CR and its LF. -/
theorem getLine_splits (maxLen : ℕ) (hlen : 2 ≤ maxLen ∧ maxLen < 2 ^ 31) (w : World)
    (hw : Still w) :
    ∃ rs : List (Bytes × ℕ),
      (∀ fuel, w.avail.length < fuel → (splitStream maxLen fuel [] w).val = some rs) ∧
      (rs.map Prod.fst).flatten = normalise cr lf w.avail ∧
      (∀ r ∈ rs, r.1.length + 1 ≤ maxLen ∧ lf ∉ r.1.dropLast) ∧
      (∀ pre r post, rs = pre ++ r :: post → r.1.getLast? ≠ some lf →
        r.1.length = maxLen - 1 ∨ post = []) ∧
      ∀ r ∈ rs, ¬ (w.avail[r.2 - w.pos - 1]? = some cr ∧ w.avail[r.2 - w.pos]? = some lf) := by
  obtain ⟨room, rfl⟩ : ∃ k, maxLen = k + 1 := ⟨maxLen - 1, by omega⟩
  have hroom : 0 < room := by omega
  obtain ⟨ps, hps⟩ : ∃ ps, Pieces lf room (normalise cr lf w.avail) ps := exists_pieces hroom _
  obtain ⟨rs, hrs, hpos, hrun⟩ := splitStream_pieces hroom hps hw rfl
  have hcount : ps.length ≤ w.avail.length :=
    (hps.length_le hroom).trans (length_normalise_le _)
  refine ⟨rs, fun fuel hfuel => hrun fuel [] (by omega), by rw [hrs, hps.flatten_eq], ?_, ?_, ?_⟩
  · intro r hr
    have hshape := hps.shape r.1 (hrs ▸ List.mem_map_of_mem hr)
    exact ⟨by omega, hshape.2⟩
  · rintro pre r post rfl hopen
    have hsplit : ps = pre.map Prod.fst ++ r.1 :: post.map Prod.fst := by
      rw [← hrs, List.map_append, List.map_cons]
    refine (hps.open_full hsplit hopen).imp (fun h => by rw [h]; rfl) fun h => ?_
    exact List.map_eq_nil_iff.mp h
  · intro r hr
    obtain ⟨n, hn⟩ := hpos r hr
    have hend : r.2 - w.pos = span cr lf w.avail n := by omega
    rw [hend]
    exact span_whole (by decide) _ n

/-- Room for three bytes: a CR in the last of them, a CR of its own and one before a CRLF. -/
def mixedEnds : World where
  avail := lit ['a', 'b', '\r', '\n', 'c', '\r', '\r', '\n', 'd', 'e', 'f', 'g', '\r']
  later := []
  sched := []
  takes := []
  pos := 0

theorem getLine_splits_mixedEnds :
    (splitStream 4 14 [] mixedEnds).val = some [(lit ['a', 'b', '\n'], 4), (lit ['c', '\n'], 6),
        (lit ['\n'], 8), (lit ['d', 'e', 'f'], 11), (lit ['g', '\n'], 13)] ∧
      ∃ rs : List (Bytes × ℕ),
        (∀ fuel, 13 < fuel → (splitStream 4 fuel [] mixedEnds).val = some rs) ∧
        (rs.map Prod.fst).flatten = normalise cr lf mixedEnds.avail := by
  obtain ⟨rs, hrun, hflat, -⟩ := getLine_splits 4 (by decide) mixedEnds ⟨rfl, rfl⟩
  exact ⟨by decide +kernel, rs, hrun, hflat⟩

end WeatherQuery.HttpLines
