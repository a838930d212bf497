import WeatherQuery.LoadModel

/-!
What the header machine of `http_load` reads.

The machine has a state for every letter of `Content-Length:` and four for the ways a line can end.
Line ends may be `\n`, `\r` or both. What it finds is said here without the states: where the header
ends, the number behind the first word of the first line, and the number in the last line that
begins with `Content-Length:` and a blank.
-/

namespace WeatherQuery.LoadHeader

open WeatherQuery.CText WeatherQuery.LoadModel

def isNewline (b : UInt8) : Bool := b = '\n'.toUInt8 || b = '\r'.toUInt8

/-- The lines of a text; the last one has not ended. -/
def lines : Bytes → List Bytes
  | [] => [[]]
  | b :: t => if isNewline b then [] :: lines t else (lines t).modifyHead (b :: ·)

/-- The number a text starts with. -/
def number : Bytes → Option ℕ
  | [] => none
  | b :: t => if isDigit b then some (digits (b :: t) 0) else none

/-- `HTTP/1.0 200 OK`: the number behind the first word. -/
def lineStatus (l : Bytes) : Option ℕ :=
  number ((l.dropWhile fun b => !isBlank b).dropWhile isBlank)

def name : Bytes :=
  lit ['c', 'o', 'n', 't', 'e', 'n', 't', '-', 'l', 'e', 'n', 'g', 't', 'h', ':']

/-- The number behind the name and at least one blank. -/
def afterName : Bytes → Option ℕ
  | [] => none
  | b :: t => if isBlank b then number (t.dropWhile isBlank) else none

/-- `Content-Length: 5`, the name in either case. -/
def lineLength (l : Bytes) : Option ℕ :=
  if (l.take name.length).map tolower = name then afterName (l.drop name.length) else none

/-- A number in an integer of `w` bits. -/
def wrap (w : ℕ) (n : ℕ) : ℤ := (n : ℤ).bmod (2 ^ w)

/-- `http_status` for a header: `-1` when the first line has none. -/
def statusOf (head : Bytes) : ℤ := (((lines head).head?.bind lineStatus).map (wrap 32)).getD (-1)

/-- `content_length` for a header: the last line that has one counts. -/
def lengthOf (head : Bytes) : ℤ :=
  (((lines head).tail.filterMap lineLength).getLast?.map (wrap 64)).getD (-1)

/-- A header ends with two line ends of one kind, or with `\r\n\r\n`. -/
def ends (head : Bytes) : Bool :=
  (lit ['\n', '\n']).isSuffixOf head || (lit ['\r', '\r']).isSuffixOf head ||
    (lit ['\r', '\n', '\r', '\n']).isSuffixOf head

/-- Where the header ends, if it does. -/
def headLength (all : Bytes) : Option ℕ :=
  (List.range (all.length + 1)).find? fun n => ends (all.take n)

/-- The header, as far as it has come. -/
def headOf (all : Bytes) : Bytes := (headLength all).elim all fun n => all.take n

/-- What has come behind the header. -/
def bodyOf (all : Bytes) : Bytes := (headLength all).elim [] fun n => all.drop n

/-! ### Bytes -/

lemma isDigit_iff {b : UInt8} : isDigit b = true ↔ IsDigit b := by
  simp only [isDigit, Bool.and_eq_true, decide_eq_true_eq]
  rfl

lemma promote_digit {b : UInt8} (h : IsDigit b) : promote b = b.toNat := by
  obtain ⟨-, hle⟩ := h
  rw [UInt8.le_iff_toNat_le] at hle
  have hlt : 2 * b.toBitVec.toNat < 2 ^ 8 := by
    have : b.toNat ≤ 57 := hle
    change 2 * b.toNat < 2 ^ 8
    omega
  exact BitVec.toInt_eq_toNat_of_lt hlt

lemma addDigit_wrap {w : ℕ} {b : UInt8} (h : IsDigit b) (a : ℕ) :
    addDigit w (wrap w a) b = wrap w (a * 10 + (b.toNat - 48)) := by
  have hge : 48 ≤ b.toNat := UInt8.le_iff_toNat_le.mp h.1
  have hval : ((a * 10 + (b.toNat - 48) : ℕ) : ℤ) = (a : ℤ) * 10 + (b.toNat - 48) := by omega
  unfold addDigit wrap
  rw [hval, promote_digit h, add_sub_assoc, ← Int.bmod_add_bmod, Int.bmod_mul_bmod,
    Int.bmod_add_bmod]

lemma addDigit_zero {w : ℕ} {b : UInt8} (h : IsDigit b) :
    addDigit w 0 b = wrap w (0 * 10 + (b.toNat - 48)) := by
  have hzero : wrap w 0 = 0 := by simp [wrap]
  rw [← addDigit_wrap h, hzero]

/-- A letter in either case. -/
lemma tolower_eq_iff {b k : UInt8} (hge : 97 ≤ k) (hle : k ≤ 122) :
    tolower b = k ↔ b = k - 32 ∨ b = k := by
  rw [UInt8.le_iff_toNat_le] at hge hle
  have hsub : (k - 32).toNat = k.toNat - 32 :=
    UInt8.toNat_sub_of_le k 32 (UInt8.le_iff_toNat_le.mpr (le_trans (by decide) hge))
  simp only [tolower, UInt8.le_iff_toNat_le, ← UInt8.toNat_inj, hsub]
  simp only [UInt8.reduceToNat] at hge hle ⊢
  split_ifs with h
  · simp only [UInt8.toNat_add, UInt8.reduceToNat]
    omega
  · omega

/-! ### Line ends -/

/-- The states behind a line end. -/
def LineStart (hs : HeaderState) : Prop := hs = .lf ∨ hs = .cr ∨ hs = .crlf ∨ hs = .crlfcr

instance (hs : HeaderState) : Decidable (LineStart hs) :=
  inferInstanceAs (Decidable (_ ∨ _ ∨ _ ∨ _))

lemma newline_cases {b : UInt8} (h : isNewline b = true) :
    b = '\n'.toUInt8 ∨ b = '\r'.toUInt8 := by
  simpa [isNewline] using h

lemma headerByte_lf (s : Connection) :
    headerByte s '\n'.toUInt8 =
      match s.headerState with
      | .lf | .crlf | .crlfcr => { s with connState := .reading }
      | .cr => { s with headerState := .crlf }
      | _ => { s with headerState := .lf } := by
  rcases s with ⟨_, _, hs, _, _, _, _, _, _, _, _, _, _, _, _⟩
  cases hs <;> rfl

lemma headerByte_cr (s : Connection) :
    headerByte s '\r'.toUInt8 =
      match s.headerState with
      | .cr | .crlfcr => { s with connState := .reading }
      | .crlf => { s with headerState := .crlfcr }
      | _ => { s with headerState := .cr } := by
  rcases s with ⟨_, _, hs, _, _, _, _, _, _, _, _, _, _, _, _⟩
  cases hs <;> rfl

/-- A line end brings the machine to the start of a line and leaves the numbers alone. -/
lemma headerByte_newline (s : Connection) {b : UInt8} (h : isNewline b = true) :
    LineStart (headerByte s b).headerState ∧
      (headerByte s b).contentLength = s.contentLength ∧
      (headerByte s b).httpStatus = s.httpStatus := by
  rcases newline_cases h with rfl | rfl
  · rw [headerByte_lf]
    split <;> simp_all [LineStart]
  · rw [headerByte_cr]
    split <;> simp_all [LineStart]

lemma inLine_other {s : Connection} {b : UInt8} (h : isNewline b = false) :
    inLine s b = { s with headerState := .text } := by
  simp only [isNewline, Bool.or_eq_false_iff, decide_eq_false_iff_not] at h
  rw [inLine, if_neg h.1, if_neg h.2]

lemma text_line {s : Connection} (hs : s.headerState = .text) {l : Bytes}
    (hl : ∀ b ∈ l, isNewline b = false) : l.foldl headerByte s = s := by
  induction l with
  | nil => rfl
  | cons b l ih =>
    obtain ⟨hb, hl⟩ := List.forall_mem_cons.mp hl
    have hstep : headerByte s b = s := by
      rw [headerByte, hs]
      simp only
      rw [inLine_other hb, ← hs]
    rw [List.foldl_cons, hstep, ih hl]

/-! ### The numbers -/

lemma digits_stop {b : UInt8} (hb : isDigit b = false) (t : Bytes) (a : ℕ) :
    digits (b :: t) a = a := by
  refine if_neg fun h => ?_
  rw [isDigit_iff.mpr h] at hb
  cases hb

lemma num_line {s : Connection} (hs : s.headerState = .contentLengthColonWhitespaceNum) {a : ℕ}
    (ha : s.contentLength = wrap 64 a) {l : Bytes} (hl : ∀ b ∈ l, isNewline b = false) :
    (l.foldl headerByte s).contentLength = wrap 64 (digits l a) ∧
      (l.foldl headerByte s).httpStatus = s.httpStatus := by
  induction l generalizing s a with
  | nil => exact ⟨ha, rfl⟩
  | cons b l ih =>
    obtain ⟨hb, hl⟩ := List.forall_mem_cons.mp hl
    have hstep : headerByte s b =
        if isDigit b then { s with contentLength := addDigit 64 s.contentLength b }
        else inLine s b := by
      simp only [headerByte, hs]
    rw [List.foldl_cons, hstep]
    by_cases hd : isDigit b = true
    · have hdig := isDigit_iff.mp hd
      rw [if_pos hd, digits_cons hdig]
      refine ih (s := { s with contentLength := addDigit 64 s.contentLength b }) hs ?_ hl
      rw [ha, addDigit_wrap hdig]
    · rw [if_neg hd, inLine_other hb, text_line rfl hl, digits_stop (by simpa using hd)]
      exact ⟨ha, rfl⟩

lemma blank_line {s : Connection} (hs : s.headerState = .contentLengthColonWhitespace) {l : Bytes}
    (hl : ∀ b ∈ l, isNewline b = false) :
    (l.foldl headerByte s).contentLength =
        ((number (l.dropWhile isBlank)).map (wrap 64)).getD s.contentLength ∧
      (l.foldl headerByte s).httpStatus = s.httpStatus := by
  induction l with
  | nil => exact ⟨rfl, rfl⟩
  | cons b l ih =>
    obtain ⟨hb, hl⟩ := List.forall_mem_cons.mp hl
    have hstep : headerByte s b =
        if isBlank b then s
        else if isDigit b then
          { s with
            contentLength := addDigit 64 0 b, headerState := .contentLengthColonWhitespaceNum }
        else inLine s b := by
      simp only [headerByte, hs]
    rw [List.foldl_cons, hstep]
    by_cases hblank : isBlank b = true
    · rw [if_pos hblank, List.dropWhile_cons_of_pos hblank]
      exact ih hl
    · rw [if_neg hblank, List.dropWhile_cons_of_neg hblank, number]
      by_cases hd : isDigit b = true
      · have hdig := isDigit_iff.mp hd
        rw [if_pos hd, if_pos hd, digits_cons hdig, Option.map_some, Option.getD_some]
        exact num_line (s := { s with
          contentLength := addDigit 64 0 b, headerState := .contentLengthColonWhitespaceNum })
          rfl (addDigit_zero hdig) hl
      · rw [if_neg hd, if_neg hd, inLine_other hb, text_line rfl hl]
        exact ⟨rfl, rfl⟩

lemma colon_line {s : Connection} (hs : s.headerState = .contentLengthColon) {l : Bytes}
    (hl : ∀ b ∈ l, isNewline b = false) :
    (l.foldl headerByte s).contentLength = ((afterName l).map (wrap 64)).getD s.contentLength ∧
      (l.foldl headerByte s).httpStatus = s.httpStatus := by
  rcases l with _ | ⟨b, l⟩
  · exact ⟨rfl, rfl⟩
  · obtain ⟨hb, hl⟩ := List.forall_mem_cons.mp hl
    have hstep : headerByte s b = waitFor [' ', '\t'] .contentLengthColonWhitespace s b := by
      simp only [headerByte, hs]
    rw [List.foldl_cons, hstep, waitFor, afterName]
    have hmem : b ∈ lit [' ', '\t'] ↔ isBlank b = true := by simp [lit, isBlank]
    by_cases hblank : isBlank b = true
    · rw [if_pos (hmem.mpr hblank), if_pos hblank]
      exact blank_line rfl hl
    · rw [if_neg (mt hmem.mp hblank), if_neg hblank, inLine_other hb, text_line rfl hl]
      exact ⟨rfl, rfl⟩

/-! ### The name -/

/-- The byte that gets a state on, in lower case, and the state it leads to. -/
def wants : HeaderState → Option (UInt8 × HeaderState)
  | .lf | .cr | .crlf | .crlfcr => some ('c'.toUInt8, .c)
  | .c => some ('o'.toUInt8, .co)
  | .co => some ('n'.toUInt8, .con)
  | .con => some ('t'.toUInt8, .cont)
  | .cont => some ('e'.toUInt8, .conte)
  | .conte => some ('n'.toUInt8, .conten)
  | .conten => some ('t'.toUInt8, .content)
  | .content => some ('-'.toUInt8, .content_)
  | .content_ => some ('l'.toUInt8, .contentL)
  | .contentL => some ('e'.toUInt8, .contentLe)
  | .contentLe => some ('n'.toUInt8, .contentLen)
  | .contentLen => some ('g'.toUInt8, .contentLeng)
  | .contentLeng => some ('t'.toUInt8, .contentLengt)
  | .contentLengt => some ('h'.toUInt8, .contentLength)
  | .contentLength => some (':'.toUInt8, .contentLengthColon)
  | _ => none

lemma waitFor_letter {u l : Char} (hu : u.toUInt8 = l.toUInt8 - 32) (hge : 97 ≤ l.toUInt8)
    (hle : l.toUInt8 ≤ 122) {next : HeaderState} {s : Connection} {b : UInt8}
    (hb : isNewline b = false) :
    waitFor [u, l] next s b =
      { s with headerState := if tolower b = l.toUInt8 then next else .text } := by
  have hmem : b ∈ lit [u, l] ↔ tolower b = l.toUInt8 := by
    rw [tolower_eq_iff hge hle]
    simp [lit, hu]
  unfold waitFor
  by_cases h : tolower b = l.toUInt8
  · rw [if_pos (hmem.mpr h), if_pos h]
  · rw [if_neg (mt hmem.mp h), if_neg h, inLine_other hb]

lemma tolower_mark {b k : UInt8} (hk : k < 65) : tolower b = k ↔ b = k := by
  rw [UInt8.lt_iff_toNat_lt] at hk
  simp only [tolower, UInt8.le_iff_toNat_le, ← UInt8.toNat_inj]
  simp only [UInt8.reduceToNat] at hk ⊢
  split_ifs with h
  · simp only [UInt8.toNat_add, UInt8.reduceToNat]
    omega
  · omega

lemma waitFor_mark {k : Char} (hk : k.toUInt8 < 65) {next : HeaderState} {s : Connection}
    {b : UInt8} (hb : isNewline b = false) :
    waitFor [k] next s b =
      { s with headerState := if tolower b = k.toUInt8 then next else .text } := by
  have hmem : b ∈ lit [k] ↔ tolower b = k.toUInt8 := by
    rw [tolower_mark hk]
    simp [lit]
  unfold waitFor
  by_cases h : tolower b = k.toUInt8
  · rw [if_pos (hmem.mpr h), if_pos h]
  · rw [if_neg (mt hmem.mp h), if_neg h, inLine_other hb]

lemma lineStart_other {onLf onCr : Option HeaderState} {s : Connection} {b : UInt8}
    (hb : isNewline b = false) :
    lineStart onLf onCr s b =
      { s with headerState := if tolower b = 'c'.toUInt8 then .c else .text } := by
  have hor : tolower b = 'c'.toUInt8 ↔ b = 'C'.toUInt8 ∨ b = 'c'.toUInt8 :=
    tolower_eq_iff (by decide) (by decide)
  simp only [isNewline, Bool.or_eq_false_iff, decide_eq_false_iff_not] at hb
  simp only [lineStart, if_neg hb.1, if_neg hb.2]
  by_cases h : tolower b = 'c'.toUInt8
  · rw [if_pos (hor.mp h), if_pos h]
  · rw [if_neg (mt hor.mpr h), if_neg h]

/-- A state of the name gets on with its byte and is thrown back to text by every other. -/
lemma headerByte_wants {s : Connection} {k : UInt8} {next : HeaderState}
    (hs : wants s.headerState = some (k, next)) {b : UInt8} (hb : isNewline b = false) :
    headerByte s b = { s with headerState := if tolower b = k then next else .text } := by
  rcases s with ⟨_, _, st, _, _, _, _, _, _, _, _, _, _, _, _⟩
  cases st <;> simp only [wants, Option.some.injEq, Prod.mk.injEq, reduceCtorEq] at hs <;>
    obtain ⟨rfl, rfl⟩ := hs <;> simp only [headerByte] <;>
    first
      | exact lineStart_other hb
      | (apply waitFor_mark _ hb; decide)
      | (apply waitFor_letter _ _ _ hb <;> decide)

/-- The bytes that lead from one state to another. -/
def Spells : HeaderState → Bytes → HeaderState → Prop
  | hs, [], goal => hs = goal
  | hs, k :: ks, goal => ∃ next, wants hs = some (k, next) ∧ Spells next ks goal

lemma spells_name {hs : HeaderState} (h : LineStart hs) : Spells hs name .contentLengthColon := by
  rcases h with rfl | rfl | rfl | rfl <;>
    exact ⟨_, rfl, _, rfl, _, rfl, _, rfl, _, rfl, _, rfl, _, rfl, _, rfl, _, rfl, _, rfl, _, rfl,
      _, rfl, _, rfl, _, rfl, _, rfl, rfl⟩

/-- A line either has the name and goes on behind it, or changes no number. -/
lemma spelled_line {s : Connection} {ks : Bytes} {goal : HeaderState}
    (hs : Spells s.headerState ks goal) {l : Bytes} (hl : ∀ b ∈ l, isNewline b = false) :
    ((l.take ks.length).map tolower = ks ∧
        l.foldl headerByte s = (l.drop ks.length).foldl headerByte { s with headerState := goal }) ∨
      ((l.take ks.length).map tolower ≠ ks ∧
        ∃ hs, l.foldl headerByte s = { s with headerState := hs }) := by
  induction ks generalizing s l with
  | nil => exact .inl ⟨rfl, by rw [← show s.headerState = goal from hs]; rfl⟩
  | cons k ks ih =>
    obtain ⟨next, hk, hnext⟩ := hs
    rcases l with _ | ⟨b, l⟩
    · exact .inr ⟨by simp, s.headerState, rfl⟩
    · obtain ⟨hb, hl⟩ := List.forall_mem_cons.mp hl
      rw [List.foldl_cons, headerByte_wants hk hb]
      by_cases hbk : tolower b = k
      · simp only [List.length_cons, List.take_succ_cons, List.drop_succ_cons,
          List.map_cons, List.cons.injEq, hbk, true_and, ne_eq]
        exact ih (s := { s with headerState := next }) hnext hl
      · refine .inr ⟨by simp [hbk], .text, ?_⟩
        rw [if_neg hbk, text_line rfl hl]

/-- What a line behind the first leaves of the two numbers. -/
lemma length_line {s : Connection} (hs : LineStart s.headerState) {l : Bytes}
    (hl : ∀ b ∈ l, isNewline b = false) :
    (l.foldl headerByte s).contentLength =
        ((lineLength l).map (wrap 64)).getD s.contentLength ∧
      (l.foldl headerByte s).httpStatus = s.httpStatus := by
  unfold lineLength
  rcases spelled_line (spells_name hs) hl with ⟨hname, hrun⟩ | ⟨hname, hs', hrun⟩
  · rw [if_pos hname, hrun]
    exact colon_line (s := { s with headerState := .contentLengthColon }) rfl
      fun b hb => hl b (List.mem_of_mem_drop hb)
  · rw [if_neg hname, hrun]
    exact ⟨rfl, rfl⟩

/-! ### The first line -/

lemma statusDigits_line {s : Connection} (hs : s.headerState = .line1Status) {a : ℕ}
    (ha : s.httpStatus = wrap 32 a) {l : Bytes} (hl : ∀ b ∈ l, isNewline b = false) :
    (l.foldl headerByte s).httpStatus = wrap 32 (digits l a) ∧
      (l.foldl headerByte s).contentLength = s.contentLength := by
  induction l generalizing s a with
  | nil => exact ⟨ha, rfl⟩
  | cons b l ih =>
    obtain ⟨hb, hl⟩ := List.forall_mem_cons.mp hl
    have hstep : headerByte s b =
        if isDigit b then { s with httpStatus := addDigit 32 s.httpStatus b }
        else inLine s b := by
      simp only [headerByte, hs]
    rw [List.foldl_cons, hstep]
    by_cases hd : isDigit b = true
    · have hdig := isDigit_iff.mp hd
      rw [if_pos hd, digits_cons hdig]
      refine ih (s := { s with httpStatus := addDigit 32 s.httpStatus b }) hs ?_ hl
      rw [ha, addDigit_wrap hdig]
    · rw [if_neg hd, inLine_other hb, text_line rfl hl, digits_stop (by simpa using hd)]
      exact ⟨ha, rfl⟩

lemma statusBlank_line {s : Connection} (hs : s.headerState = .line1Whitespace) {l : Bytes}
    (hl : ∀ b ∈ l, isNewline b = false) :
    (l.foldl headerByte s).httpStatus =
        ((number (l.dropWhile isBlank)).map (wrap 32)).getD s.httpStatus ∧
      (l.foldl headerByte s).contentLength = s.contentLength := by
  induction l with
  | nil => exact ⟨rfl, rfl⟩
  | cons b l ih =>
    obtain ⟨hb, hl⟩ := List.forall_mem_cons.mp hl
    have hstep : headerByte s b =
        if isBlank b then s
        else if isDigit b then { s with httpStatus := addDigit 32 0 b, headerState := .line1Status }
        else inLine s b := by
      simp only [headerByte, hs]
    rw [List.foldl_cons, hstep]
    by_cases hblank : isBlank b = true
    · rw [if_pos hblank, List.dropWhile_cons_of_pos hblank]
      exact ih hl
    · rw [if_neg hblank, List.dropWhile_cons_of_neg hblank, number]
      by_cases hd : isDigit b = true
      · have hdig := isDigit_iff.mp hd
        rw [if_pos hd, if_pos hd, digits_cons hdig, Option.map_some, Option.getD_some]
        exact statusDigits_line (s := { s with
          httpStatus := addDigit 32 0 b, headerState := .line1Status }) rfl (addDigit_zero hdig) hl
      · rw [if_neg hd, if_neg hd, inLine_other hb, text_line rfl hl]
        exact ⟨rfl, rfl⟩

/-- What the first line leaves of the two numbers. -/
lemma status_line {s : Connection} (hs : s.headerState = .line1Protocol) {l : Bytes}
    (hl : ∀ b ∈ l, isNewline b = false) :
    (l.foldl headerByte s).httpStatus = ((lineStatus l).map (wrap 32)).getD s.httpStatus ∧
      (l.foldl headerByte s).contentLength = s.contentLength := by
  unfold lineStatus
  induction l with
  | nil => exact ⟨rfl, rfl⟩
  | cons b l ih =>
    obtain ⟨hb, hl⟩ := List.forall_mem_cons.mp hl
    rw [List.foldl_cons]
    by_cases hblank : isBlank b = true
    · have hstep : headerByte s b = { s with headerState := .line1Whitespace } := by
        simp only [headerByte, hs, if_pos hblank]
      rw [hstep, List.dropWhile_cons_of_neg (by simp [hblank]), List.dropWhile_cons_of_pos hblank]
      exact statusBlank_line (s := { s with headerState := .line1Whitespace }) rfl hl
    · have hstep : headerByte s b = s := by
        simp only [isNewline, Bool.or_eq_false_iff, decide_eq_false_iff_not] at hb
        simp only [headerByte, hs, if_neg hblank, if_neg hb.1, if_neg hb.2]
      rw [hstep, List.dropWhile_cons_of_pos (by simp [hblank])]
      exact ih hl

/-! ### All lines -/

lemma lines_line {l : Bytes} (hl : ∀ b ∈ l, isNewline b = false) : lines l = [l] := by
  induction l with
  | nil => rfl
  | cons b l ih =>
    obtain ⟨hb, hl⟩ := List.forall_mem_cons.mp hl
    simp [lines, hb, ih hl]

lemma lines_append {l : Bytes} (hl : ∀ b ∈ l, isNewline b = false) {b : UInt8}
    (hb : isNewline b = true) (t : Bytes) : lines (l ++ b :: t) = l :: lines t := by
  induction l with
  | nil => simp [lines, hb]
  | cons c l ih =>
    obtain ⟨hc, hl⟩ := List.forall_mem_cons.mp hl
    simp [lines, hc, ih hl]

/-- A text is one line, or a line, its end and a text. -/
lemma lines_cases (h : Bytes) :
    (∀ b ∈ h, isNewline b = false) ∨
      ∃ l b t, h = l ++ b :: t ∧ (∀ c ∈ l, isNewline c = false) ∧ isNewline b = true := by
  induction h with
  | nil => exact .inl (by simp)
  | cons b h ih =>
    by_cases hb : isNewline b = true
    · exact .inr ⟨[], b, h, rfl, by simp, hb⟩
    · have hb : isNewline b = false := by simpa using hb
      rcases ih with hl | ⟨l, c, t, rfl, hl, hc⟩
      · exact .inl (List.forall_mem_cons.mpr ⟨hb, hl⟩)
      · exact .inr ⟨b :: l, c, t, rfl, List.forall_mem_cons.mpr ⟨hb, hl⟩, hc⟩

lemma getLast_elim (l : Option ℕ) (ls : List ℕ) (f : ℕ → ℤ) (d : ℤ) :
    ((l.toList ++ ls).getLast?.map f).getD d = (ls.getLast?.map f).getD ((l.map f).getD d) := by
  rcases l with _ | n
  · rfl
  · rcases ls with _ | ⟨m, ls⟩
    · rfl
    · simp [List.getLast?_cons]

lemma filterMap_lines (l : Bytes) (ls : List Bytes) :
    (l :: ls).filterMap lineLength = (lineLength l).toList ++ ls.filterMap lineLength := by
  rcases h : lineLength l with _ | n <;> simp [h]

/-- The lines behind the first: the length is that of the last line that has one. -/
lemma fold_lines {s : Connection} (hs : LineStart s.headerState) (h : Bytes) :
    (h.foldl headerByte s).contentLength =
        (((lines h).filterMap lineLength).getLast?.map (wrap 64)).getD s.contentLength ∧
      (h.foldl headerByte s).httpStatus = s.httpStatus := by
  induction hn : h.length using Nat.strong_induction_on generalizing s h with
  | _ n ih =>
    rcases lines_cases h with hl | ⟨l, b, t, rfl, hl, hb⟩
    · rw [lines_line hl, filterMap_lines, getLast_elim]
      exact length_line hs hl
    · obtain ⟨hlen, hst⟩ := length_line hs hl
      obtain ⟨hstart, hlen', hst'⟩ := headerByte_newline (l.foldl headerByte s) hb
      obtain ⟨hrest, hrest'⟩ := ih t.length (by simp at hn; omega) hstart t rfl
      rw [List.foldl_append, List.foldl_cons, lines_append hl hb, filterMap_lines, getLast_elim,
        hrest, hrest', hlen', hst', hlen, hst]
      exact ⟨rfl, rfl⟩

/-- **The numbers.** Whatever bytes the machine has read, it has the status of the first line and
the length of the last line with one. -/
lemma fold_header {s : Connection} (hs : s.headerState = .line1Protocol)
    (hst : s.httpStatus = -1) (hlen : s.contentLength = -1) (h : Bytes) :
    (h.foldl headerByte s).httpStatus = statusOf h ∧
      (h.foldl headerByte s).contentLength = lengthOf h := by
  unfold statusOf lengthOf
  rcases lines_cases h with hl | ⟨l, b, t, rfl, hl, hb⟩
  · obtain ⟨hst', hlen'⟩ := status_line hs hl
    rw [lines_line hl, hst', hlen', hst, hlen]
    exact ⟨rfl, rfl⟩
  · obtain ⟨hst', hlen'⟩ := status_line hs hl
    obtain ⟨hstart, hlen'', hst''⟩ := headerByte_newline (l.foldl headerByte s) hb
    obtain ⟨hrest, hrest'⟩ := fold_lines hstart t
    rw [List.foldl_append, List.foldl_cons, lines_append hl hb, hrest, hrest', hlen'', hst'', hst',
      hlen', hst, hlen]
    exact ⟨rfl, rfl⟩

/-! ### The end of the header -/

/-- `ends`, on the bytes last first. -/
def endsRev (r : Bytes) : Prop :=
  lit ['\n', '\n'] <+: r ∨ lit ['\r', '\r'] <+: r ∨ lit ['\n', '\r', '\n', '\r'] <+: r

lemma ends_iff (h : Bytes) : ends h = true ↔ endsRev h.reverse := by
  simp only [ends, Bool.or_eq_true, List.isSuffixOf_iff_suffix, endsRev, ← List.reverse_prefix,
    or_assoc]
  rfl

/-- What a state says of the line ends that were read last. -/
def Newlines (hs : HeaderState) (r : Bytes) : Prop :=
  match hs with
  | .lf => lit ['\n'] <+: r ∧ ¬ lit ['\n', '\r'] <+: r
  | .cr => lit ['\r'] <+: r ∧ ¬ lit ['\r', '\n', '\r'] <+: r
  | .crlf => lit ['\n', '\r'] <+: r
  | .crlfcr => lit ['\r', '\n', '\r'] <+: r
  | _ => ¬ lit ['\n'] <+: r ∧ ¬ lit ['\r'] <+: r

/-- The header ends with a byte exactly when the bytes up to it end a header. -/
def Turns (s : Connection) (r : Bytes) : Prop :=
  (s.connState = .reading ∧ endsRev r) ∨
    (s.connState = .headers ∧ ¬ endsRev r ∧ Newlines s.headerState r)

lemma newlines_line {hs : HeaderState} (h : ¬ LineStart hs) {r : Bytes} :
    Newlines hs r ↔ ¬ lit ['\n'] <+: r ∧ ¬ lit ['\r'] <+: r := by
  cases hs <;> first | exact Iff.rfl | exact absurd (by decide) h

lemma wants_next {hs next : HeaderState} {k : UInt8} (h : wants hs = some (k, next)) :
    ¬ LineStart next := by
  cases hs <;> cases h <;> decide

/-- Behind a byte that is no line end the machine is inside a line. -/
lemma headerByte_other (s : Connection) {b : UInt8} (hb : isNewline b = false) :
    (headerByte s b).connState = s.connState ∧ ¬ LineStart (headerByte s b).headerState := by
  rcases hw : wants s.headerState with _ | ⟨k, next⟩
  · have hline : ¬ LineStart s.headerState := by
      rintro (h | h | h | h) <;> simp [h, wants] at hw
    unfold headerByte
    split <;> simp_all only [wants, reduceCtorEq, waitFor] <;> (try split_ifs) <;>
      simp_all [LineStart, isNewline, inLine_other]
  · rw [headerByte_wants hw hb]
    refine ⟨rfl, ?_⟩
    simp only
    split_ifs
    · exact wants_next hw
    · decide

lemma newline_turns {s : Connection} (hs : s.connState = .headers) {r : Bytes}
    (hr : Newlines s.headerState r) {b : UInt8} (hb : isNewline b = true) :
    Turns (headerByte s b) (b :: r) := by
  have hcr : '\r'.toUInt8 = 13 := rfl
  have hlf : '\n'.toUInt8 = 10 := rfl
  by_cases hst : LineStart s.headerState
  · rcases newline_cases hb with rfl | rfl <;> rcases hst with h | h | h | h <;>
      rw [h] at hr <;> first | rw [headerByte_lf, h] | rw [headerByte_cr, h]
    all_goals
      rcases r with _ | ⟨a, r⟩ <;>
        simp only [Turns, endsRev, Newlines, lit, List.map_cons, List.map_nil, hcr, hlf,
          List.cons_prefix_cons] at hr ⊢ <;> grind
  · rw [newlines_line hst] at hr
    rcases newline_cases hb with rfl | rfl
    · have hgo : headerByte s '\n'.toUInt8 = { s with headerState := .lf } := by
        rw [headerByte_lf]
        split <;> simp_all [LineStart]
      rw [hgo]
      rcases r with _ | ⟨a, r⟩ <;>
        simp only [Turns, endsRev, Newlines, lit, List.map_cons, List.map_nil, hcr, hlf,
          List.cons_prefix_cons] at hr ⊢ <;> grind
    · have hgo : headerByte s '\r'.toUInt8 = { s with headerState := .cr } := by
        rw [headerByte_cr]
        split <;> simp_all [LineStart]
      rw [hgo]
      rcases r with _ | ⟨a, r⟩ <;>
        simp only [Turns, endsRev, Newlines, lit, List.map_cons, List.map_nil, hcr, hlf,
          List.cons_prefix_cons] at hr ⊢ <;> grind

lemma headerByte_turns {s : Connection} (hs : s.connState = .headers) {r : Bytes}
    (hr : Newlines s.headerState r) (b : UInt8) : Turns (headerByte s b) (b :: r) := by
  by_cases hb : isNewline b = true
  · exact newline_turns hs hr hb
  · have hb : isNewline b = false := by simpa using hb
    obtain ⟨hconn, hline⟩ := headerByte_other s hb
    have hno : b ≠ '\n'.toUInt8 ∧ b ≠ '\r'.toUInt8 := by simpa [isNewline] using hb
    refine .inr ⟨hconn.trans hs, ?_, ?_⟩
    · simp [endsRev, lit, hno.1.symm, hno.2.symm]
    · rw [newlines_line hline]
      simp [lit, hno.1.symm, hno.2.symm]

/-- The header has not ended. -/
def Unended (h : Bytes) : Prop := ∀ p, p <+: h → ends p = false

/-- The header ends here and not before. -/
def FirstEnd (h : Bytes) : Prop := ends h = true ∧ ∀ p, p <+: h → p ≠ h → ends p = false

lemma Unended.snoc {h : Bytes} (hu : Unended h) {b : UInt8} (hb : ends (h ++ [b]) = false) :
    Unended (h ++ [b]) := by
  intro p hp
  rcases List.prefix_concat_iff.mp hp with rfl | hp
  · exact hb
  · exact hu p hp

lemma Unended.firstEnd {h : Bytes} (hu : Unended h) {b : UInt8} (hb : ends (h ++ [b]) = true) :
    FirstEnd (h ++ [b]) := by
  refine ⟨hb, fun p hp hne => ?_⟩
  rcases List.prefix_concat_iff.mp hp with rfl | hp
  · exact absurd rfl hne
  · exact hu p hp

lemma headLength_unended {all : Bytes} (h : Unended all) : headLength all = none := by
  refine List.find?_eq_none.mpr fun n _ => ?_
  simp [h _ (List.take_prefix n all)]

lemma headLength_firstEnd {h : Bytes} (hh : FirstEnd h) (t : Bytes) :
    headLength (h ++ t) = some h.length := by
  refine List.find?_range_eq_some.mpr ⟨?_, ?_, ?_⟩
  · rw [List.take_left]
    exact hh.1
  · rw [List.mem_range, List.length_append]
    omega
  · intro n hn
    have htake : (h ++ t).take n = h.take n := by
      rw [List.take_append_of_le_length (by omega)]
    rw [htake, hh.2 _ (List.take_prefix n h)]
    · rfl
    · intro heq
      have hlen := congrArg List.length heq
      rw [List.length_take] at hlen
      omega

lemma cut_unended {all : Bytes} (h : Unended all) : headOf all = all ∧ bodyOf all = [] := by
  unfold headOf bodyOf
  rw [headLength_unended h]
  exact ⟨rfl, rfl⟩

lemma cut_firstEnd {h : Bytes} (hh : FirstEnd h) (t : Bytes) :
    headOf (h ++ t) = h ∧ bodyOf (h ++ t) = t := by
  unfold headOf bodyOf
  rw [headLength_firstEnd hh t]
  simp

/-- **The header loop.** It reads on from where the header was left off, and stops behind its first
end. -/
lemma headerLoop_cut {s : Connection} (hs : s.connState = .headers) {h : Bytes} (hu : Unended h)
    (hn : Newlines s.headerState h.reverse) (bytes : Bytes) :
    ∃ p rest, bytes = p ++ rest ∧ headerLoop s bytes = (p.foldl headerByte s, rest) ∧
      (((p.foldl headerByte s).connState = .headers ∧ rest = [] ∧ Unended (h ++ p) ∧
          Newlines (p.foldl headerByte s).headerState (h ++ p).reverse) ∨
        ((p.foldl headerByte s).connState = .reading ∧ FirstEnd (h ++ p))) := by
  induction bytes generalizing s h with
  | nil => exact ⟨[], [], rfl, rfl, .inl ⟨hs, rfl, by simpa using hu, by simpa using hn⟩⟩
  | cons b bytes ih =>
    have hrev : b :: h.reverse = (h ++ [b]).reverse := by simp
    have hturn := headerByte_turns hs hn b
    rw [Turns, hrev, ← ends_iff] at hturn
    rcases hturn with ⟨hconn, hend⟩ | ⟨hconn, hno, hn'⟩
    · -- the header ends with this byte
      refine ⟨[b], bytes, rfl, ?_, .inr ⟨hconn, hu.firstEnd hend⟩⟩
      rw [headerLoop, if_pos hs]
      rcases bytes with _ | ⟨c, bytes⟩
      · rfl
      · rw [headerLoop, if_neg (by rw [hconn]; decide)]
        rfl
    · obtain ⟨p, rest, rfl, hloop, hor⟩ := ih hconn (hu.snoc (by simpa using hno)) hn'
      refine ⟨b :: p, rest, rfl, ?_, ?_⟩
      · rw [headerLoop, if_pos hs, hloop]
        rfl
      · simpa using hor

end WeatherQuery.LoadHeader
