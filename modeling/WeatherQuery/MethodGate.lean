import WeatherQuery.RequestLine

/-!
The methods that are let through.

`accept_request` refuses a method that sorts before GET and before POST, so it lets through
whatever sorts after GET. Of a long token only the first 101 bytes are compared, and the others
become the url; a token behind a space becomes the url as a whole.
-/

namespace WeatherQuery.MethodGate

open WeatherQuery.CText WeatherQuery.HttpModel WeatherQuery.HttpCalls
open WeatherQuery.RequestLine

/-- How many spaces stand before the first token. -/
def lead (line : Bytes) : ℕ := (line.takeWhile isspace).length

/-- The first token that spaces delimit. -/
def token (line : Bytes) : Bytes := (line.dropWhile isspace).takeWhile nonspace

/-- No byte that is copied to the url comes from the first token. -/
def UrlApart (line : Bytes) : Prop :=
  ∀ k < (urlScan line).1.length,
    ¬ (lead line ≤ urlStart line + k ∧ urlStart line + k < lead line + (token line).length)

/-- The request gets to the path, which it hands to `stat`. -/
def GoesOn (host : Host) (fuel : ℕ) (w : World) : Prop :=
  ∃ p, Event.stat p ∈ (acceptRequest host fuel w).log

/-- The request goes on exactly for the two methods, and keeps them out of the url. -/
def Gate (host : Host) (fuel : ℕ) (w : World) : Prop :=
  (GoesOn host fuel w ↔ IsMethod (token (firstLine w))) ∧ UrlApart (firstLine w)

/-! ### The comparison -/

/-- What sorts before GET sorts before POST. -/
lemma refused_iff (m : Bytes) : refused m = true ↔ strcasecmp m get < 0 := by
  have hpost : strcasecmp m get < 0 → strcasecmp m post < 0 := by
    rcases m with _ | ⟨c, m⟩
    · decide
    · have hg : (tolower 'G'.toUInt8).toNat = 103 := rfl
      have hp : (tolower 'P'.toUInt8).toNat = 112 := rfl
      simp only [HttpModel.get, post, lit, List.map_cons, strcasecmp]
      intro h
      have hlow : (tolower c).toNat ≤ 103 := by
        split_ifs at h with hc
        · rw [hc, hg]
        · omega
      have hne : tolower c ≠ tolower 'P'.toUInt8 := by
        intro hc
        rw [hc, hp] at hlow
        omega
      rw [if_neg hne, hp]
      omega
  simp only [refused, Bool.and_eq_true, decide_eq_true_eq]
  exact ⟨And.left, fun h => ⟨h, hpost h⟩⟩

/-- The two methods are let through. -/
lemma not_refused_of_isMethod {m : Bytes} (hm : IsMethod m) : refused (cstr m) = false := by
  rw [← Bool.not_eq_true, refused_iff, cstr_of_nulFree hm.nulFree]
  rcases id hm with h | h
  · rw [(strcasecmp_eq_zero_iff hm.nulFree (by decide)).mpr h]
    decide
  · obtain ⟨c, r, rfl⟩ : ∃ c r, m = c :: r := by
      rcases m with _ | ⟨c, r⟩
      · exact absurd h (by decide)
      · exact ⟨c, r, rfl⟩
    have hc : tolower c = tolower 'P'.toUInt8 := (List.cons.inj h).1
    have hne : tolower 'P'.toUInt8 ≠ tolower 'G'.toUInt8 := by decide
    simp only [HttpModel.get, lit, List.map_cons, strcasecmp, hc, if_neg hne]
    decide

/-! ### Where the token goes -/

lemma token_of_lead {line : Bytes} (h : lead line = 0) : token line = line.takeWhile nonspace := by
  have hnil : line.takeWhile isspace = [] := List.length_eq_zero_iff.mp h
  have hall := List.takeWhile_append_dropWhile (p := isspace) (l := line)
  rw [hnil, List.nil_append] at hall
  rw [token, hall]

lemma firstWord_of_lead {line : Bytes} (h : lead line ≠ 0) : firstWord line = [] := by
  rcases line with _ | ⟨c, line⟩
  · rfl
  · have hc : isspace c = true := by
      by_contra hc
      exact h (by rw [lead, List.takeWhile_cons_of_neg hc]; rfl)
    rw [firstWord, List.takeWhile_cons_of_neg (by rw [nonspace, hc]; decide)]
    rfl

lemma firstWord_of_blank {line : Bytes} (h : token line = []) : firstWord line = [] := by
  by_cases hlead : lead line = 0
  · rw [firstWord, ← token_of_lead hlead, h]
    rfl
  · exact firstWord_of_lead hlead

lemma firstWord_of_short {line : Bytes} (hlead : lead line = 0)
    (hlen : (token line).length ≤ 101) : firstWord line = token line := by
  rw [firstWord, ← token_of_lead hlead]
  exact List.take_of_length_le hlen

lemma le_urlStart (line : Bytes) : (firstWord line).length ≤ urlStart line := by
  obtain ⟨i, hscan, -⟩ := methodScan_eq line
  have hle : (methodScan line).2 ≤ urlStart line := HttpArrival.le_skipSpace _ _ _
  rw [hscan] at hle
  exact (Nat.le_add_right _ _).trans hle

lemma urlStart_of_ne {line : Bytes} (hlen : line.length < bufSize) (hne : firstWord line ≠ line) :
    urlStart line = (firstWord line).length +
      ((line.drop (firstWord line).length).takeWhile isspace).length := by
  obtain ⟨i, hscan, hall⟩ := methodScan_eq line
  have hi : i = 0 := by
    by_contra hi
    exact hne (hall hi)
  rw [urlStart_eq hlen, hscan, hi, Nat.add_zero]

/-- A url that starts inside the token has a byte of it. -/
lemma not_urlApart {line : Bytes} (hlen : line.length < bufSize) (hword : secondWord line ≠ [])
    (hge : lead line ≤ urlStart line) (hlt : urlStart line < lead line + (token line).length) :
    ¬ UrlApart line := by
  obtain ⟨i, hscan, -⟩ := urlScan_eq hlen
  have hpos : 0 < (secondWord line).length := List.length_pos_iff.mpr hword
  intro h
  refine h 0 ?_ ⟨hge, hlt⟩
  rw [hscan, List.length_append]
  omega

lemma urlApart_of_short {line : Bytes} (hlead : lead line = 0)
    (hlen : (token line).length ≤ 101) : UrlApart line := by
  have hle := le_urlStart line
  rw [firstWord_of_short hlead hlen] at hle
  rintro k - ⟨-, hlt⟩
  omega

lemma not_urlApart_of_lead {line : Bytes} (hlen : line.length < bufSize) (hlead : lead line ≠ 0)
    (htoken : token line ≠ []) : ¬ UrlApart line := by
  have hword := firstWord_of_lead hlead
  have hne : firstWord line ≠ line := by
    rintro h
    rw [hword] at h
    exact hlead (by rw [← h]; rfl)
  have hstart : urlStart line = lead line := by
    rw [urlStart_of_ne hlen hne, hword]
    simp [lead]
  have hsecond : secondWord line = token line := by
    rw [secondWord, restOf, hword]
    rfl
  have hpos : 0 < (token line).length := List.length_pos_iff.mpr htoken
  exact not_urlApart hlen (hsecond ▸ htoken) hstart.ge (by omega)

lemma not_urlApart_of_long {line : Bytes} (hlen : line.length < bufSize) (hlead : lead line = 0)
    (hlong : 101 < (token line).length) : ¬ UrlApart line := by
  have htoken := token_of_lead hlead
  have hfirst : firstWord line = (token line).take 101 := by
    rw [htoken]
    rfl
  have hcount : (firstWord line).length = 101 := by
    rw [hfirst, List.length_take_of_le hlong.le]
  have hsplit : line = token line ++ line.dropWhile nonspace := by
    rw [htoken, List.takeWhile_append_dropWhile]
  have hne : firstWord line ≠ line := by
    intro h
    have hline := congrArg List.length hsplit
    rw [List.length_append] at hline
    rw [h] at hcount
    omega
  -- the byte behind the first 101 belongs to the token
  obtain ⟨d, r, hd, hdrop⟩ : ∃ d r, nonspace d = true ∧ line.drop 101 = d :: r := by
    obtain ⟨d, t, ht⟩ := List.exists_cons_of_length_pos (l := (token line).drop 101)
      (by rw [List.length_drop]; omega)
    have hmem : d ∈ token line := List.mem_of_mem_drop (ht ▸ List.mem_cons_self)
    refine ⟨d, t ++ line.dropWhile nonspace, List.mem_takeWhile_imp (htoken ▸ hmem), ?_⟩
    conv_lhs => rw [hsplit, List.drop_append_of_le_length hlong.le, ht]
    rfl
  have hspace : ¬ isspace d = true := by simpa [nonspace] using hd
  have hstart : urlStart line = 101 := by
    rw [urlStart_of_ne hlen hne, hcount, hdrop, List.takeWhile_cons_of_neg hspace]
    rfl
  have hword : secondWord line ≠ [] := by
    rw [secondWord, restOf, hcount, hdrop, List.dropWhile_cons_of_neg hspace,
      List.takeWhile_cons_of_pos hd]
    simp
  exact not_urlApart hlen hword (by omega) (by omega)

/-! ### The gate -/

lemma goesOn_iff (host : Host) (fuel : ℕ) (w : World) :
    GoesOn host fuel w ↔ refused (methodOf w) = false := by
  cases acceptRequest_course host fuel w with
  | refused hm hval hlog =>
    refine iff_of_false ?_ (by simp [hm])
    rintro ⟨p, hp⟩
    rw [hlog] at hp
    rcases List.mem_append.mp hp with hp | hp
    · exact emits_getLine bufSize w _ hp
    · simp at hp
  | missing hm hst es hes hlog =>
    exact iff_of_true ⟨docPath (targetOf w).url, by rw [hlog]; simp⟩ hm
  | served hm st hst es hes hlog =>
    exact iff_of_true ⟨docPath (targetOf w).url, by rw [hlog]; simp⟩ hm

lemma methodOf_eq (w : World) : methodOf w = cstr (firstWord (firstLine w)) := by
  rw [methodOf, scanLine_words (length_firstLine w)]

/-- **The gate.** Only GET and POST are let through and kept out of the url exactly when the line
is blank or starts with a token of at most 101 bytes that is GET or POST or sorts before GET. -/
theorem gate_iff (host : Host) (fuel : ℕ) (w : World) :
    Gate host fuel w ↔
      token (firstLine w) = [] ∨
        lead (firstLine w) = 0 ∧ (token (firstLine w)).length ≤ 101 ∧
          (IsMethod (token (firstLine w)) ∨ strcasecmp (cstr (token (firstLine w))) get < 0) := by
  have hlen := length_firstLine w
  have hmethod := methodOf_eq w
  unfold Gate
  rw [goesOn_iff]
  generalize firstLine w = line at *
  by_cases hblank : token line = []
  · refine iff_of_true ⟨?_, ?_⟩ (.inl hblank)
    · rw [hmethod, firstWord_of_blank hblank, hblank]
      exact iff_of_false (by decide) (by decide)
    · rintro k - ⟨hge, hlt⟩
      rw [hblank, List.length_nil] at hlt
      omega
  · by_cases hlead : lead line = 0
    · rcases Nat.lt_or_ge 101 (token line).length with hlong | hshort
      · refine iff_of_false (fun h => not_urlApart_of_long hlen hlead hlong h.2) ?_
        rintro (h | ⟨-, h, -⟩)
        · exact hblank h
        · omega
      · rw [hmethod, firstWord_of_short hlead hshort]
        simp only [hblank, hlead, hshort, urlApart_of_short hlead hshort, true_and, and_true,
          false_or]
        by_cases hm : IsMethod (token line)
        · simp [hm, not_refused_of_isMethod hm]
        · rw [← refused_iff]
          simp [hm]
    · refine iff_of_false (fun h => not_urlApart_of_lead hlen hlead hblank h.2) ?_
      rintro (h | ⟨h, -⟩)
      · exact hblank h
      · exact hlead h

/-- `PUT / HTTP/1.1`. -/
def putRoot : World where
  avail := lit ['P', 'U', 'T', ' ', '/', ' ', 'H', 'T', 'T', 'P', '/', '1', '.', '1', '\r', '\n',
    '\r', '\n']
  later := []
  sched := []
  takes := []
  pos := 0

/-- PUT sorts after POST, and is served. -/
theorem not_gate_putRoot : ¬ ∀ (host : Host) (fuel : ℕ) (w : World), Gate host fuel w := by
  intro h
  have hgate := (h HttpArrival.bareHost 1 putRoot).1
  have hline : firstLine putRoot = lit ['P', 'U', 'T', ' ', '/', ' ', 'H', 'T', 'T', 'P', '/', '1',
      '.', '1', '\n'] := by decide +kernel
  rw [goesOn_iff, hline] at hgate
  exact absurd (hgate.mp (by decide +kernel)) (by decide)

end WeatherQuery.MethodGate
