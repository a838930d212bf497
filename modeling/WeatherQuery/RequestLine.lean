import WeatherQuery.HttpArrival

/-!
The words of a request line.

`accept_request` scans the method and the url out of its buffer with one index: at most 101
bytes that are no space, the spaces after them, and again what is no space. The rest of the
buffer is zero, and a zero is no space. Here the two words are read off the line itself.
-/

namespace WeatherQuery.RequestLine

open WeatherQuery.CText WeatherQuery.Traced WeatherQuery.HttpModel WeatherQuery.HttpCalls
open WeatherQuery.HttpArrival

def nonspace (c : UInt8) : Bool := !isspace c

/-- The bytes that go to `method`. -/
def firstWord (line : Bytes) : Bytes := (line.takeWhile nonspace).take (bufSize / 10 - 1)

/-- The line from the url on. -/
def restOf (line : Bytes) : Bytes := (line.drop (firstWord line).length).dropWhile isspace

def secondWord (line : Bytes) : Bytes := (restOf line).takeWhile nonspace

/-! ### The two loops as functions of the buffer -/

lemma drop_getD {buf : Bytes} {j : ℕ} (hj : j < buf.length) :
    buf.drop j = buf.getD j 0 :: buf.drop (j + 1) := by
  rw [List.drop_eq_getElem_cons hj, List.getD_eq_getElem _ _ hj]

lemma scanWord_eq (buf : Bytes) (room j : ℕ) :
    scanWord buf room j =
      (((buf.drop j).takeWhile nonspace).take room,
        j + (((buf.drop j).takeWhile nonspace).take room).length) := by
  induction room generalizing j with
  | zero => simp [scanWord]
  | succ room ih =>
    rcases Nat.lt_or_ge j buf.length with hj | hj
    · rcases hc : isspace (buf.getD j 0) with _ | _
      · have hword : nonspace (buf.getD j 0) = true := by rw [nonspace, hc]; rfl
        rw [scanWord_go hc hj, ih, drop_getD hj, List.takeWhile_cons_of_pos hword]
        simp only [List.take_succ_cons, List.length_cons, Prod.mk.injEq, true_and]
        omega
      · have hword : ¬ nonspace (buf.getD j 0) = true := by rw [nonspace, hc]; decide
        rw [scanWord_stop hc, drop_getD hj, List.takeWhile_cons_of_neg hword]
        rfl
    · rw [scanWord, if_neg (by simp [Nat.not_lt.mpr hj]), List.drop_eq_nil_of_le hj]
      rfl

lemma skipSpace_eq {buf : Bytes} {fuel j : ℕ} (hfuel : buf.length ≤ j + fuel) :
    skipSpace buf fuel j = j + ((buf.drop j).takeWhile isspace).length := by
  induction fuel generalizing j with
  | zero =>
    have hdone : buf.drop j = [] := List.drop_eq_nil_of_le hfuel
    rw [skipSpace, hdone]
    rfl
  | succ fuel ih =>
    rcases Nat.lt_or_ge j buf.length with hj | hj
    · rcases hc : isspace (buf.getD j 0) with _ | _
      · rw [skipSpace, if_neg (by rw [hc]; simp), drop_getD hj,
          List.takeWhile_cons_of_neg (by rw [hc]; decide)]
        rfl
      · rw [skipSpace, if_pos (by rw [hc, decide_eq_true hj]; rfl), ih (by omega), drop_getD hj,
          List.takeWhile_cons_of_pos hc, List.length_cons]
        omega
    · rw [skipSpace, if_neg (by simp [Nat.not_lt.mpr hj]), List.drop_eq_nil_of_le hj]
      rfl

/-! ### The zeros behind the line -/

def zeros (k : ℕ) : Bytes := List.replicate k 0

lemma takeWhile_zeros (k : ℕ) : (zeros k).takeWhile nonspace = zeros k :=
  List.takeWhile_eq_self_iff.mpr fun c hc => by
    obtain rfl := List.eq_of_mem_replicate hc
    rfl

/-- Spaces end before the zeros. -/
lemma space_zeros (t : Bytes) (k : ℕ) :
    (t ++ zeros k).takeWhile isspace = t.takeWhile isspace := by
  induction t with
  | nil => cases k <;> rfl
  | cons c t ih => simp only [List.cons_append, List.takeWhile_cons, ih]

lemma drop_takeWhile (p : UInt8 → Bool) (t : Bytes) :
    t.drop (t.takeWhile p).length = t.dropWhile p :=
  List.append_cancel_left ((List.prefix_iff_eq_append.mp (List.takeWhile_prefix p)).trans
    List.takeWhile_append_dropWhile.symm)

lemma cstr_append_zeros (t : Bytes) (k : ℕ) : cstr (t ++ zeros k) = cstr t := by
  induction t with
  | nil => cases k <;> rfl
  | cons c t ih =>
    simp only [cstr, List.cons_append, List.takeWhile_cons] at ih ⊢
    rw [ih]

/-- A word that reaches the end of the line goes on over the zeros. -/
lemma word_zeros (t : Bytes) (k : ℕ) :
    ∃ i, (t ++ zeros k).takeWhile nonspace = t.takeWhile nonspace ++ zeros i ∧
      (i ≠ 0 → t.takeWhile nonspace = t) := by
  rw [List.takeWhile_append]
  split_ifs with h
  · have hall : t.takeWhile nonspace = t := (List.takeWhile_prefix _).eq_of_length h
    exact ⟨k, by rw [hall, takeWhile_zeros], fun _ => hall⟩
  · exact ⟨0, by simp [zeros], fun h0 => absurd rfl h0⟩

/-- The zeros behind a line. -/
lemma inBuf_eq (line : Bytes) : inBuf line = line ++ zeros (bufSize - line.length) := rfl

lemma length_inBuf {line : Bytes} (hlen : line.length < bufSize) :
    (inBuf line).length = bufSize := by
  rw [inBuf_eq, zeros, List.length_append, List.length_replicate]
  omega

/-- What the first loop copies, and the index it leaves. -/
def methodScan (line : Bytes) : Bytes × ℕ := scanWord (inBuf line) (bufSize / 10 - 1) 0

/-- The index at which the url starts. -/
def urlStart (line : Bytes) : ℕ := skipSpace (inBuf line) bufSize (methodScan line).2

/-- What the third loop copies, and the index it leaves. -/
def urlScan (line : Bytes) : Bytes × ℕ := scanWord (inBuf line) (bufSize - 1) (urlStart line)

lemma scanLine_eq (line : Bytes) :
    scanLine line = (cstr (methodScan line).1, cstr (urlScan line).1) := rfl

/-- The first loop copies the first word and at most zeros behind it. -/
lemma methodScan_eq (line : Bytes) :
    ∃ i, methodScan line = (firstWord line ++ zeros i, (firstWord line).length + i) ∧
      (i ≠ 0 → firstWord line = line) := by
  obtain ⟨i, hword, hall⟩ := word_zeros line (bufSize - line.length)
  refine ⟨min (bufSize / 10 - 1 - (line.takeWhile nonspace).length) i, ?_, fun hi => ?_⟩
  · rw [methodScan, scanWord_eq, List.drop_zero, inBuf_eq, hword, List.take_append, zeros,
      List.take_replicate, Nat.zero_add, List.length_append, List.length_replicate]
    rfl
  · have hi0 : i ≠ 0 := by omega
    rw [firstWord, List.take_of_length_le (by omega), hall hi0]

lemma drop_methodScan (line : Bytes) :
    ∃ k, (inBuf line).drop (methodScan line).2 = line.drop (firstWord line).length ++ zeros k := by
  obtain ⟨i, hscan, hall⟩ := methodScan_eq line
  rw [hscan, ← List.drop_drop, inBuf_eq, List.drop_append, zeros, List.drop_replicate]
  by_cases hi : i = 0
  · rw [hi, List.drop_zero]
    exact ⟨_, rfl⟩
  · rw [hall hi, List.drop_length, List.nil_append, List.drop_replicate]
    exact ⟨_, rfl⟩

lemma urlStart_eq {line : Bytes} (hlen : line.length < bufSize) :
    urlStart line = (methodScan line).2 +
      ((line.drop (firstWord line).length).takeWhile isspace).length := by
  obtain ⟨k, hdrop⟩ := drop_methodScan line
  rw [urlStart, skipSpace_eq (by rw [length_inBuf hlen]; omega), hdrop, space_zeros]

lemma drop_urlStart {line : Bytes} (hlen : line.length < bufSize) :
    ∃ k, (inBuf line).drop (urlStart line) = restOf line ++ zeros k := by
  obtain ⟨k, hdrop⟩ := drop_methodScan line
  refine ⟨k, ?_⟩
  have hle : ((line.drop (firstWord line).length).takeWhile isspace).length ≤
      (line.drop (firstWord line).length).length := (List.takeWhile_prefix _).length_le
  rw [urlStart_eq hlen, ← List.drop_drop, hdrop, List.drop_append_of_le_length hle,
    drop_takeWhile, restOf]

lemma length_restOf_le (line : Bytes) : (restOf line).length ≤ line.length := by
  refine (List.dropWhile_suffix _).length_le.trans ?_
  rw [List.length_drop]
  omega

/-- The third loop copies the second word and at most zeros behind it. -/
lemma urlScan_eq {line : Bytes} (hlen : line.length < bufSize) :
    ∃ i, urlScan line = (secondWord line ++ zeros i, urlStart line + (secondWord line).length + i) ∧
      (i ≠ 0 → secondWord line = restOf line) := by
  obtain ⟨k, hdrop⟩ := drop_urlStart hlen
  obtain ⟨i, hword, hall⟩ := word_zeros (restOf line) k
  have hle : (secondWord line).length ≤ bufSize - 1 := by
    have hword : (secondWord line).length ≤ (restOf line).length :=
      (List.takeWhile_prefix _).length_le
    have hrest := length_restOf_le line
    omega
  refine ⟨min (bufSize - 1 - (secondWord line).length) i, ?_, fun hi => hall (by omega)⟩
  rw [urlScan, scanWord_eq, hdrop, hword]
  change ((secondWord line ++ zeros i).take (bufSize - 1), _ +
    ((secondWord line ++ zeros i).take (bufSize - 1)).length) = _
  rw [List.take_append, List.take_of_length_le hle, zeros, List.take_replicate,
    List.length_append, List.length_replicate, ← Nat.add_assoc]
  rfl

/-- **The scan of a line.** The method is the first word and the url the second, up to a NUL. -/
theorem scanLine_words {line : Bytes} (hlen : line.length < bufSize) :
    scanLine line = (cstr (firstWord line), cstr (secondWord line)) := by
  obtain ⟨i, hmethod, -⟩ := methodScan_eq line
  obtain ⟨k, hurl, -⟩ := urlScan_eq hlen
  rw [scanLine_eq, hmethod, hurl, cstr_append_zeros, cstr_append_zeros]

/-! ### Lines that `get_line` gives -/

lemma gives_fillLine (room : ℕ) : Gives (fun line => line.length ≤ room) (fillLine room) := by
  induction room with
  | zero => exact gives_pure le_rfl
  | succ room ih =>
    have hend : Gives (fun line => line.length ≤ room + 1) (pure [lf] : Io Bytes) :=
      gives_pure (by simp)
    refine gives_bind (gives_true (recv false)) fun got _ => ?_
    cases got with
    | none => exact gives_pure (by simp)
    | some c =>
      refine gives_ite ?_ (gives_ite hend (gives_bind ih fun line hline => ?_))
      · refine gives_bind (gives_true (recv true)) fun next _ => gives_ite ?_ hend
        exact gives_bind (gives_true (recv false)) fun _ _ => hend
      · exact gives_pure (by simpa using hline)

/-- A request line leaves room for its NUL. -/
lemma length_firstLine (w : World) : (firstLine w).length < bufSize := by
  obtain ⟨line, hline⟩ := getLine_returns w
  have hle : line.length ≤ bufSize - 1 := gives_fillLine _ w line hline
  have hbuf : bufSize = 1024 := rfl
  rw [firstLine, hline]
  simp only [Option.getD_some]
  omega

/-! ### The parts of a request line -/

/-- `GET` or `POST`, in any letters. -/
def IsMethod (m : Bytes) : Prop :=
  m.map tolower = get.map tolower ∨ m.map tolower = post.map tolower

instance (m : Bytes) : Decidable (IsMethod m) := inferInstanceAs (Decidable (_ ∨ _))

structure Parts where
  method : Bytes
  gap : Bytes
  path : Bytes
  query : Option Bytes
  gap' : Bytes
  rest : Bytes

/-- The query with its `?`. -/
def Parts.asked (r : Parts) : Bytes := r.query.elim [] fun q => '?'.toUInt8 :: q

def Parts.line (r : Parts) : Bytes :=
  r.method ++ (r.gap ++ (r.path ++ r.asked ++ (r.gap' ++ r.rest)))

/-- A request line that fits the buffer. -/
structure WholeLine extends Parts where
  isMethod : IsMethod method
  gap_ne : gap ≠ []
  gap_space : ∀ c ∈ gap, isspace c = true
  path_ne : path ≠ []
  path_word : ∀ c ∈ path, isspace c = false ∧ c ≠ '?'.toUInt8
  query_word : ∀ q ∈ query, ∀ c ∈ q, isspace c = false
  gap'_ne : gap' ≠ []
  gap'_space : ∀ c ∈ gap', isspace c = true
  fits : toParts.line.length ≤ 1023
  nulFree : NulFree toParts.line

lemma takeWhile_stop {p : UInt8 → Bool} {a b : Bytes} (ha : ∀ c ∈ a, p c = true) (hb : b ≠ [])
    (hstop : ∀ c ∈ b, p c = false) (r : Bytes) : (a ++ (b ++ r)).takeWhile p = a := by
  obtain ⟨d, b, rfl⟩ := List.exists_cons_of_ne_nil hb
  rw [List.takeWhile_append_of_pos ha, List.cons_append, List.takeWhile_cons_of_neg,
    List.append_nil]
  rw [hstop d (by simp)]
  decide

lemma tolower_space {c : UInt8} (hc : isspace c = true) : tolower c = c := by
  have hle : c.toNat ≤ 32 := by
    simp only [isspace, Bool.or_eq_true, decide_eq_true_eq, Bool.and_eq_true,
      UInt8.le_iff_toNat_le] at hc
    rcases hc with rfl | ⟨-, hc⟩
    · decide
    · exact hc.trans (by decide)
  refine if_neg fun h => ?_
  have hge : 65 ≤ c.toNat := UInt8.le_iff_toNat_le.mp h.1
  omega

lemma IsMethod.letter {m : Bytes} (hm : IsMethod m) :
    ∀ c ∈ m, tolower c ∈ get.map tolower ++ post.map tolower := by
  intro c hc
  have hlow : tolower c ∈ m.map tolower := List.mem_map_of_mem hc
  rcases hm with h | h
  · exact List.mem_append_left _ (h ▸ hlow)
  · exact List.mem_append_right _ (h ▸ hlow)

/-- The letters of a method are no spaces. -/
lemma IsMethod.word {m : Bytes} (hm : IsMethod m) : ∀ c ∈ m, nonspace c = true := by
  intro c hc
  have hletter : (get.map tolower ++ post.map tolower).all nonspace = true := by decide
  have hlow : nonspace (tolower c) = true := List.all_eq_true.mp hletter _ (hm.letter c hc)
  rcases hs : isspace c with _ | _
  · rw [nonspace, hs]
    rfl
  · rwa [tolower_space hs] at hlow

lemma IsMethod.nulFree {m : Bytes} (hm : IsMethod m) : NulFree m := by
  rintro c hc rfl
  have hletter : NulFree (get.map tolower ++ post.map tolower) := by decide
  exact hletter _ (hm.letter 0 hc) rfl

lemma IsMethod.length_le {m : Bytes} (hm : IsMethod m) : m.length ≤ 4 := by
  rcases hm with h | h
  · have := congrArg List.length h
    simp [HttpModel.get, lit] at this
    omega
  · have := congrArg List.length h
    simp [post, lit] at this
    omega

lemma WholeLine.asked_word (r : WholeLine) : ∀ c ∈ r.asked, isspace c = false := by
  intro c hc
  rcases hq : r.query with _ | q
  · simp [Parts.asked, hq] at hc
  · have hc : c = '?'.toUInt8 ∨ c ∈ q := by simpa [Parts.asked, hq] using hc
    rcases hc with rfl | hc
    · decide
    · exact r.query_word q hq c hc

lemma WholeLine.firstWord_eq (r : WholeLine) : firstWord r.line = r.method := by
  have hword : r.line.takeWhile nonspace = r.method :=
    takeWhile_stop r.isMethod.word r.gap_ne (fun c hc => by rw [nonspace, r.gap_space c hc]; rfl) _
  have hlen := r.isMethod.length_le
  rw [firstWord, hword, List.take_of_length_le (hlen.trans (by decide))]

lemma WholeLine.url_word (r : WholeLine) : ∀ c ∈ r.path ++ r.asked, isspace c = false := by
  intro c hc
  rcases List.mem_append.mp hc with hc | hc
  · exact (r.path_word c hc).1
  · exact r.asked_word c hc

lemma WholeLine.restOf_eq (r : WholeLine) :
    restOf r.line = r.path ++ r.asked ++ (r.gap' ++ r.rest) := by
  have hne : r.path ++ r.asked ≠ [] := by simp [r.path_ne]
  rw [restOf, r.firstWord_eq, Parts.line, List.drop_left, ← drop_takeWhile,
    takeWhile_stop r.gap_space hne r.url_word, List.drop_left]

lemma WholeLine.secondWord_eq (r : WholeLine) : secondWord r.line = r.path ++ r.asked := by
  rw [secondWord, r.restOf_eq]
  refine takeWhile_stop (fun c hc => ?_) r.gap'_ne (fun c hc => ?_) _
  · rw [nonspace, r.url_word c hc]
    rfl
  · rw [nonspace, r.gap'_space c hc]
    rfl

lemma WholeLine.scanLine_eq (r : WholeLine) :
    scanLine r.line = (r.method, r.path ++ r.asked) := by
  have hmem (t : Bytes) (ht : ∀ c ∈ t, c ∈ r.line) : cstr t = t :=
    cstr_of_nulFree fun c hc => r.nulFree c (ht c hc)
  rw [scanLine_words (Nat.lt_succ_of_le r.fits), r.firstWord_eq, r.secondWord_eq, hmem, hmem]
  · intro c hc
    simp only [Parts.line, List.mem_append]
    simp only [List.mem_append] at hc
    exact .inr (.inr (.inl hc))
  · intro c hc
    simp only [Parts.line, List.mem_append]
    exact .inl hc

lemma WholeLine.takeWhile_path (r : WholeLine) :
    (r.path ++ r.asked).takeWhile (· ≠ '?'.toUInt8) = r.path ∧
      (r.path ++ r.asked).dropWhile (· ≠ '?'.toUInt8) = r.asked := by
  have hpath : ∀ c ∈ r.path, decide (c ≠ '?'.toUInt8) = true := fun c hc => by
    simpa using (r.path_word c hc).2
  rw [List.takeWhile_append_of_pos hpath, List.dropWhile_append_of_pos hpath]
  rcases hq : r.query with _ | q <;> simp [Parts.asked, hq]

lemma WholeLine.strcasecmp_iff (r : WholeLine) {t : Bytes} (ht : NulFree t) :
    strcasecmp r.method t = 0 ↔ r.method.map tolower = t.map tolower :=
  strcasecmp_eq_zero_iff r.isMethod.nulFree ht

lemma WholeLine.cutQuery_get (r : WholeLine) (hget : r.method.map tolower = get.map tolower) :
    cutQuery (scanLine r.line).1 (scanLine r.line).2 =
      ⟨r.path, some (r.query.getD []), r.query.isSome⟩ := by
  have hpost : ¬ strcasecmp r.method post = 0 := by
    rw [r.strcasecmp_iff (by decide), hget]
    decide
  obtain ⟨htake, hdrop⟩ := r.takeWhile_path
  rw [r.scanLine_eq]
  simp only [cutQuery, if_pos ((r.strcasecmp_iff (by decide)).mpr hget), hdrop, htake, hpost,
    decide_false]
  rcases hq : r.query with _ | q <;> simp [Parts.asked, hq]

lemma WholeLine.cutQuery_post (r : WholeLine) (hpost : r.method.map tolower = post.map tolower) :
    cutQuery (scanLine r.line).1 (scanLine r.line).2 = ⟨r.path ++ r.asked, none, true⟩ := by
  have hget : ¬ strcasecmp r.method get = 0 := by
    rw [r.strcasecmp_iff (by decide), hpost]
    decide
  rw [r.scanLine_eq]
  simp only [cutQuery, if_neg hget, (r.strcasecmp_iff (by decide)).mpr hpost, decide_true]

/-- **The parts of a request line.** The scan gives back the method; a GET is cut at the first
`?` and asks for a CGI when there is one, a POST keeps its url and always does. -/
theorem scan_parts (r : WholeLine) :
    (scanLine r.line).1 = r.method ∧
      (r.method.map tolower = get.map tolower →
        cutQuery (scanLine r.line).1 (scanLine r.line).2 =
          ⟨r.path, some (r.query.getD []), r.query.isSome⟩) ∧
      (r.method.map tolower = post.map tolower →
        cutQuery (scanLine r.line).1 (scanLine r.line).2 = ⟨r.path ++ r.asked, none, true⟩) :=
  ⟨by rw [r.scanLine_eq], r.cutQuery_get, r.cutQuery_post⟩

/-- `get \t/find?city=a?b=c HTTP/1.1`. -/
def findLine : WholeLine where
  method := lit ['g', 'e', 't']
  gap := lit [' ', '\t']
  path := lit ['/', 'f', 'i', 'n', 'd']
  query := some (lit ['c', 'i', 't', 'y', '=', 'a', '?', 'b', '=', 'c'])
  gap' := lit [' ']
  rest := lit ['H', 'T', 'T', 'P', '/', '1', '.', '1', '\n']
  isMethod := by decide
  gap_ne := by decide
  gap_space := List.all_eq_true.mp (by decide)
  path_ne := by decide
  path_word := by simp [lit, isspace]; decide
  query_word := by simp [lit, isspace]; decide
  gap'_ne := by decide
  gap'_space := List.all_eq_true.mp (by decide)
  fits := by decide
  nulFree := by decide

theorem scan_parts_findLine :
    (scanLine findLine.line).1 = lit ['g', 'e', 't'] ∧
      cutQuery (scanLine findLine.line).1 (scanLine findLine.line).2 =
        ⟨lit ['/', 'f', 'i', 'n', 'd'],
          some (lit ['c', 'i', 't', 'y', '=', 'a', '?', 'b', '=', 'c']), true⟩ := by
  obtain ⟨hmethod, hget, -⟩ := scan_parts findLine
  exact ⟨hmethod, hget (by decide)⟩

end WeatherQuery.RequestLine
