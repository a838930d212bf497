import WeatherQuery.CgiProtocol
import WeatherQuery.HttpPath

/-!
The length of a POST.

`exe_cgi` takes the value of `Content-Length:` from the seventeenth byte of the line on, so it
needs a space after the colon; without one it loses the first digit. Its variable starts as 0,
and a POST without the header passes the test for -1.
-/

namespace WeatherQuery.HttpLength

open WeatherQuery.CText WeatherQuery.Traced WeatherQuery.HttpModel WeatherQuery.HttpHeaders
open WeatherQuery.CgiProtocol WeatherQuery.Newlines

/-- A header line of this name. -/
def HasName (l : Bytes) : Prop := (l.take 15).map tolower = contentLengthName.map tolower

instance (l : Bytes) : Decidable (HasName l) := inferInstanceAs (Decidable (_ = _))

/-- The header block of a request that has arrived, with lines that fit the buffer. -/
structure Block (w : World) where
  lines : List Bytes
  rest : Bytes
  still : Still w
  lines_inline : ∀ l ∈ lines, l ≠ [] ∧ lf ∉ l
  lines_short : ∀ l ∈ lines, l.length + 1 < bufSize
  stream : normalise cr lf w.avail = block lf lines ++ lf :: rest

/-- A line with a length. -/
structure LengthLine where
  name : Bytes
  blanks : Bytes
  n : ℕ
  name_eq : name.map tolower = contentLengthName.map tolower
  blanks_eq : ∀ c ∈ blanks, c = 32 ∨ c = 9
  n_lt : n < 2 ^ 31

def LengthLine.line (h : LengthLine) : Bytes := h.name ++ h.blanks ++ decimal h.n

/-! ### One line -/

/-- The comparison looks for the name at the start of the line. -/
lemma strncasecmp_name_iff {l : Bytes} :
    strncasecmp (cstr (l ++ [lf])) contentLengthName 15 = 0 ↔ HasName l := by
  have hname : contentLengthName.take 15 = contentLengthName := rfl
  have hzero : tolower 0 ∉ contentLengthName.map tolower := by decide
  have hend : tolower lf ∉ contentLengthName.map tolower := by decide
  have hlen : (contentLengthName.map tolower).length = 15 := rfl
  have hnul : NulFree ((cstr (l ++ [lf])).take 15) :=
    fun c hc => nulFree_cstr _ c (List.mem_of_mem_take hc)
  rw [strncasecmp, hname, strcasecmp_eq_zero_iff hnul (by decide), cstr, List.take_takeWhile,
    HasName]
  have hfree {u : Bytes} (hu : u.map tolower = contentLengthName.map tolower) : NulFree u := by
    rintro c hc rfl
    exact hzero (hu ▸ List.mem_map_of_mem hc)
  constructor
  · intro h
    have hpre : ((l ++ [lf]).take 15).takeWhile (· ≠ 0) <+: (l ++ [lf]).take 15 :=
      List.takeWhile_prefix _
    have hall : ((l ++ [lf]).take 15).takeWhile (· ≠ 0) = (l ++ [lf]).take 15 := by
      have hcount := congrArg List.length h
      rw [List.length_map, hlen] at hcount
      refine hpre.eq_of_length_le ?_
      rw [hcount]
      exact List.length_take_le _ _
    rw [hall] at h
    rcases Nat.lt_or_ge l.length 15 with hshort | hlong
    · rw [List.take_of_length_le (by rw [List.length_append]; exact hshort),
        List.map_append] at h
      exact absurd (h ▸ List.mem_append_right _ (List.mem_singleton_self _)) hend
    · rwa [List.take_append_of_le_length hlong] at h
  · intro h
    have hlong : 15 ≤ l.length := by
      have hcount := congrArg List.length h
      rw [List.length_map, List.length_take, hlen] at hcount
      omega
    rw [List.take_append_of_le_length hlong]
    exact (congrArg _ (cstr_of_nulFree (hfree h))).trans h

lemma headerLine_other {l : Bytes} (h : ¬ HasName l) (x : ℤ) : headerLine (l ++ [lf]) x = x :=
  if_neg fun hcmp => h (strncasecmp_name_iff.mp hcmp)

/-- The lines that do not have the name leave the length as it is. -/
lemma foldl_other {ls : List Bytes} (h : ∀ l ∈ ls, ¬ HasName l) (x : ℤ) :
    (ls.map (· ++ [lf])).foldl (fun x p => headerLine p x) x = x := by
  induction ls with
  | nil => rfl
  | cons l ls ih =>
    obtain ⟨hl, hls⟩ := List.forall_mem_cons.mp h
    rw [List.map_cons, List.foldl_cons, headerLine_other hl, ih hls]

section LengthLine

variable (h : LengthLine)

lemma LengthLine.length_name : h.name.length = 15 := by
  have hlen := congrArg List.length h.name_eq
  rwa [List.length_map, List.length_map] at hlen

lemma LengthLine.hasName : HasName h.line := by
  rw [HasName, LengthLine.line, List.append_assoc, List.take_left' h.length_name]
  exact h.name_eq

lemma LengthLine.blanks_space : ∀ c ∈ h.blanks, isspace c = true := by
  intro c hc
  rcases h.blanks_eq c hc with rfl | rfl <;> decide

lemma LengthLine.nulFree : NulFree (h.blanks ++ (decimal h.n ++ [lf])) := by
  refine NulFree.append ?_ (NulFree.append ?_ (by decide))
  · rintro c hc rfl
    exact absurd (h.blanks_eq 0 hc) (by decide)
  · rintro c hc rfl
    exact absurd (decimal_isDigit _ 0 hc).1 (by decide)

/-- The value that is read: without a blank the first digit is lost. -/
lemma LengthLine.headerLine_eq (x : ℤ) :
    headerLine (h.line ++ [lf]) x =
      if h.blanks = [] then (digits (decimal h.n).tail 0 : ℤ) else h.n := by
  have hcmp : strncasecmp (cstr (h.line ++ [lf])) contentLengthName 15 = 0 :=
    strncasecmp_name_iff.mpr h.hasName
  have hdrop : (h.line ++ [lf]).drop 16 = (h.blanks ++ (decimal h.n ++ [lf])).tail := by
    have hassoc : h.line ++ [lf] = h.name ++ (h.blanks ++ (decimal h.n ++ [lf])) := by
      simp only [LengthLine.line, List.append_assoc]
    rw [hassoc, show 16 = 15 + 1 from rfl, ← List.drop_drop, List.drop_left' h.length_name,
      List.drop_one]
  have hnul : NulFree (h.blanks ++ (decimal h.n ++ [lf])).tail :=
    fun c hc => h.nulFree c (List.mem_of_mem_tail hc)
  rw [headerLine, if_pos hcmp, hdrop, cstr_of_nulFree hnul]
  split_ifs with hblanks
  · have htail : (h.blanks ++ (decimal h.n ++ [lf])).tail = [] ++ ((decimal h.n).tail ++ [lf]) := by
      rw [hblanks, List.nil_append, List.nil_append,
        List.tail_append_of_ne_nil (decimal_ne_nil h.n)]
    have hlt : digits (decimal h.n).tail 0 < 2 ^ 31 := by
      rcases Nat.eq_zero_or_pos h.n with h0 | hpos
      · rw [h0]
        decide
      · exact (digits_tail_lt hpos).trans h.n_lt
    rw [htail]
    exact atoi_digits (by simp) (fun c hc => decimal_isDigit _ c (List.mem_of_mem_tail hc))
      (by decide) hlt
  · obtain ⟨b, bs, hbs⟩ := List.exists_cons_of_ne_nil hblanks
    have hspace : ∀ c ∈ bs, isspace c = true :=
      fun c hc => h.blanks_space c (hbs ▸ List.mem_cons_of_mem b hc)
    have hval := digits_decimal h.n
    rw [hbs, List.cons_append, List.tail_cons,
      atoi_digits hspace (decimal_isDigit h.n) (by decide) (hval.symm ▸ h.n_lt), hval]

/-- The value is right when there is a blank, and without one only for 0. -/
lemma LengthLine.headerLine_iff (x : ℤ) :
    headerLine (h.line ++ [lf]) x = h.n ↔ h.blanks ≠ [] ∨ h.n = 0 := by
  rw [h.headerLine_eq]
  split_ifs with hblanks
  · rcases Nat.eq_zero_or_pos h.n with h0 | hpos
    · rw [h0]
      exact iff_of_true rfl (.inr rfl)
    · have hlt := digits_tail_lt hpos
      refine iff_of_false (by omega) ?_
      rintro (hne | h0)
      · exact hne hblanks
      · omega
  · exact iff_of_true rfl (.inl hblanks)

end LengthLine

/-! ### The block -/

/-- The loop takes the lines of a block one by one. -/
lemma Block.postHeader_val {w : World} (b : Block w) {fuel : ℕ} (hfuel : w.avail.length ≤ fuel) :
    (postHeader fuel w).val =
      some ((b.lines.map (· ++ [lf])).foldl (fun x p => headerLine p x) 0) := by
  have hbuf : bufSize = 1024 := rfl
  have hcut : Cut lf (bufSize - 1) (block lf b.lines ++ lf :: b.rest)
      (b.lines.map (· ++ [lf]) ++ [[lf]]) := by
    refine cut_short (by decide) (fun l hl => ?_) b.rest
    obtain ⟨hne, hl'⟩ := b.lines_inline l hl
    have hshort := b.lines_short l hl
    exact ⟨hne, hl', by omega⟩
  rw [← b.stream] at hcut
  have hcount : (b.lines.map (· ++ [lf]) ++ [[lf]]).length ≤ fuel := by
    have hblock : b.lines.length ≤ (block lf b.lines).length := length_le_block _
    have hnorm := congrArg List.length b.stream
    have hraw : (normalise cr lf w.avail).length ≤ w.avail.length := length_normalise_le _
    rw [List.length_append, List.length_cons] at hnorm
    rw [List.length_append, List.length_map, List.length_singleton]
    omega
  have hval := (readLines_cut headerLine b.still hcut hcount 0).1
  have hlast (x : ℤ) : headerLine [lf] x = x := headerLine_other (l := []) (by decide) x
  rw [(postHeader_run fuel w).1, hval, List.foldl_append, List.foldl_cons, List.foldl_nil, hlast]

lemma Block.postHeader_none {w : World} (b : Block w) {fuel : ℕ} (hfuel : w.avail.length ≤ fuel)
    (h : ∀ l ∈ b.lines, ¬ HasName l) : (postHeader fuel w).val = some 0 := by
  rw [b.postHeader_val hfuel, foldl_other h]

/-- With one line of the name, the length is what that line says. -/
lemma Block.postHeader_one {w : World} (b : Block w) {fuel : ℕ} (hfuel : w.avail.length ≤ fuel)
    {before after : List Bytes} {h : LengthLine} (hlines : b.lines = before ++ h.line :: after)
    (hother : ∀ l ∈ before ++ after, ¬ HasName l) :
    (postHeader fuel w).val = some (h.n : ℤ) ↔ h.blanks ≠ [] ∨ h.n = 0 := by
  obtain ⟨hbefore, hafter⟩ := List.forall_mem_append.mp hother
  rw [b.postHeader_val hfuel, hlines, List.map_append, List.map_cons, List.foldl_append,
    foldl_other hbefore, List.foldl_cons, foldl_other hafter, Option.some.injEq, h.headerLine_iff]

/-- The request was stopped by the test for -1. -/
def TurnedAway (log : List Event) : Prop := lengthOfLog log = some (-1)

/-- A request with the header has its value read, and a POST without it is stopped. -/
def LengthRead {w : World} (b : Block w) (fuel : ℕ) : Prop :=
  (∀ (before after : List Bytes) (h : LengthLine), b.lines = before ++ h.line :: after →
      (∀ l ∈ before ++ after, ¬ HasName l) → (postHeader fuel w).val = some (h.n : ℤ)) ∧
    ((∀ l ∈ b.lines, ¬ HasName l) →
      ∀ (host : Host) (path method : Bytes) (query : Option Bytes),
        method.map tolower = post.map tolower →
          TurnedAway (exeCgi host fuel path method query w).log)

/-- A POST without the header goes on with a length of 0. -/
lemma lengthOfLog_none {w : World} (b : Block w) {fuel : ℕ} (hfuel : w.avail.length ≤ fuel)
    (h : ∀ l ∈ b.lines, ¬ HasName l) (host : Host) (path : Bytes) (query : Option Bytes) :
    lengthOfLog (exeCgi host fuel path post query w).log = some 0 := by
  have hread : (readHeader fuel post w).val = some 0 := by
    rw [readHeader, if_neg (by decide), if_pos (by decide), b.postHeader_none hfuel h]
  exact lengthOfLog_exeCgi host path query hread (by decide)

/-- **The length of a POST.** It is read, and its absence noticed, exactly when some line has the
name and the only one, where it holds blanks and digits, has at least one blank or the digit 0. -/
theorem lengthRead_iff (w : World) (b : Block w) (fuel : ℕ) (hfuel : w.avail.length ≤ fuel) :
    LengthRead b fuel ↔
      (∃ l ∈ b.lines, HasName l) ∧
        ∀ (before after : List Bytes) (h : LengthLine), b.lines = before ++ h.line :: after →
          (∀ l ∈ before ++ after, ¬ HasName l) → h.blanks ≠ [] ∨ h.n = 0 := by
  constructor
  · rintro ⟨hvalue, haway⟩
    constructor
    · by_contra hnone
      have hno : ∀ l ∈ b.lines, ¬ HasName l := fun l hl hname => hnone ⟨l, hl, hname⟩
      have haway := haway hno HttpPath.flatHost [] post none rfl
      rw [TurnedAway, lengthOfLog_none b hfuel hno] at haway
      exact absurd haway (by decide)
    · intro before after h hlines hother
      exact (b.postHeader_one hfuel hlines hother).mp (hvalue before after h hlines hother)
  · rintro ⟨⟨l, hl, hname⟩, hblank⟩
    constructor
    · intro before after h hlines hother
      exact (b.postHeader_one hfuel hlines hother).mpr (hblank before after h hlines hother)
    · intro hno
      exact absurd hname (hno l hl)

/-- `content-length: 5` and another header, with five bytes behind them. -/
def fiveBytes : World where
  avail := lit ['c', 'o', 'n', 't', 'e', 'n', 't', '-', 'l', 'e', 'n', 'g', 't', 'h', ':', ' ', '5',
    '\r', '\n', 'A', ':', 'b', '\r', '\n', '\r', '\n', 'h', 'e', 'l', 'l', 'o']
  later := []
  sched := []
  takes := []
  pos := 0

def fiveLine : Bytes :=
  lit ['c', 'o', 'n', 't', 'e', 'n', 't', '-', 'l', 'e', 'n', 'g', 't', 'h', ':', ' ', '5']

def fiveBlock : Block fiveBytes where
  lines := [fiveLine, lit ['A', ':', 'b']]
  rest := lit ['h', 'e', 'l', 'l', 'o']
  still := ⟨rfl, rfl⟩
  lines_inline := by decide
  lines_short := by decide
  stream := by decide

theorem lengthRead_fiveBlock : LengthRead fiveBlock 31 := by
  refine (lengthRead_iff fiveBytes fiveBlock 31 (by decide)).mpr ⟨by decide, ?_⟩
  rintro (_ | ⟨l, before⟩) after h hlines hother
  · -- the byte after the colon is no digit
    refine .inl fun hblanks => ?_
    have hline : fiveLine = h.name ++ decimal h.n := by
      rw [(List.cons.inj hlines).1, LengthLine.line, hblanks, List.append_nil]
    have hdrop := congrArg (List.drop 15) hline
    rw [List.drop_left' h.length_name] at hdrop
    have hmem : (32 : UInt8) ∈ decimal h.n := hdrop ▸ (by decide)
    exact absurd (decimal_isDigit _ _ hmem).1 (by decide)
  · refine absurd ?_ (hother l (by simp))
    rw [← (List.cons.inj hlines).1]
    decide

/-- `Content-Length:5`. -/
def tightBytes : World where
  avail := contentLengthName ++ lit ['5', '\r', '\n', '\r', '\n', 'h', 'e', 'l', 'l', 'o']
  later := []
  sched := []
  takes := []
  pos := 0

def tightLine : LengthLine where
  name := contentLengthName
  blanks := []
  n := 5
  name_eq := rfl
  blanks_eq := by simp
  n_lt := by decide

def tightBlock : Block tightBytes where
  lines := [tightLine.line]
  rest := lit ['h', 'e', 'l', 'l', 'o']
  still := ⟨rfl, rfl⟩
  lines_inline := by decide
  lines_short := by decide
  stream := by decide

/-- The only digit is skipped, and the length is 0. -/
theorem not_lengthRead_tightBlock :
    (postHeader 25 tightBytes).val = some 0 ∧
      ¬ ∀ (w : World) (b : Block w) (fuel : ℕ), w.avail.length ≤ fuel → LengthRead b fuel := by
  have hval : (postHeader 25 tightBytes).val = some 0 := by decide +kernel
  refine ⟨hval, fun h => ?_⟩
  have hfive := (h tightBytes tightBlock 25 (by decide)).1 [] [] tightLine rfl (by simp)
  exact absurd (hval.symm.trans hfive) (by decide)

end WeatherQuery.HttpLength
