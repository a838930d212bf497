import WeatherQuery.CText

/-!
String literals of MySQL.

A statement is a sequence of pieces: text, and string literals with the value they denote. A
literal is closed by the quote that opened it; the quote doubled stands for itself, and a
backslash escapes the byte after it. A statement that ends inside a literal is refused.
-/

namespace WeatherQuery.SqlLex

open WeatherQuery.CText

/-- A piece of a statement. -/
inductive Piece
  | text (t : Bytes)
  | str (v : Bytes)
  deriving DecidableEq

/-- What a byte stands for after a backslash. `\%` and `\_` keep the backslash. -/
def unescape (c : UInt8) : Bytes :=
  if c = '0'.toUInt8 then [0]
  else if c = 'b'.toUInt8 then [8]
  else if c = 'n'.toUInt8 then [10]
  else if c = 'r'.toUInt8 then [13]
  else if c = 't'.toUInt8 then [9]
  else if c = 'Z'.toUInt8 then [26]
  else if c = '%'.toUInt8 ∨ c = '_'.toUInt8 then ['\\'.toUInt8, c]
  else [c]

def isQuote (c : UInt8) : Bool := c = '\''.toUInt8 || c = '"'.toUInt8

/-- A byte of text in front of what follows. -/
def pushText (c : UInt8) : List Piece → List Piece
  | .text t :: ps => .text (c :: t) :: ps
  | ps => .text [c] :: ps

/-- A part of the value of the literal that is being read. -/
def pushStr (bs : Bytes) : List Piece → List Piece
  | .str v :: ps => .str (bs ++ v) :: ps
  | ps => ps

/-- The pieces of a statement; the first argument is the quote of the literal the rest starts
in, when it starts in one. -/
def lex : Option UInt8 → Bytes → Option (List Piece)
  | none, [] => some []
  | none, c :: r => if isQuote c then lex (some c) r else (lex none r).map (pushText c)
  | some _, [] => none
  | some q, [c] => if c = q then some [.str []] else none
  | some q, c :: d :: r =>
    if c = q then
      if d = q then (lex (some q) r).map (pushStr [q])
      else (lex none (d :: r)).map (.str [] :: ·)
    else if c = '\\'.toUInt8 then (lex (some q) r).map (pushStr (unescape d))
    else (lex (some q) (d :: r)).map (pushStr [c])

lemma lex_str_cons (q c d : UInt8) (r : Bytes) :
    lex (some q) (c :: d :: r) =
      if c = q then
        if d = q then (lex (some q) r).map (pushStr [q])
        else (lex none (d :: r)).map (.str [] :: ·)
      else if c = '\\'.toUInt8 then (lex (some q) r).map (pushStr (unescape d))
      else (lex (some q) (d :: r)).map (pushStr [c]) := rfl

/-- A string that stands for itself between two quotes: no such quote in it, and no backslash
that is taken for an escape. -/
def Plain (q : UInt8) : Bytes → Prop
  | [] => True
  | c :: r =>
    c ≠ q ∧ (c = '\\'.toUInt8 → r.head? = some '%'.toUInt8 ∨ r.head? = some '_'.toUInt8) ∧
      Plain q r

instance decidablePlain (q : UInt8) : (t : Bytes) → Decidable (Plain q t)
  | [] => isTrue trivial
  | _ :: r =>
    have := decidablePlain q r
    inferInstanceAs (Decidable (_ ∧ _ ∧ _))

/-! ### Reading a literal -/

/-- `t` starts with the body of a literal of value `v`, and `r` follows its closing quote. A
value is never longer than its body, and as long only when they are the same. -/
def Body (q : UInt8) (t v r : Bytes) : Prop :=
  ∃ raw, t = raw ++ q :: r ∧ v.length ≤ raw.length ∧
    (v.length = raw.length → v = raw ∧ Plain q raw)

lemma Body.closed (q : UInt8) (r : Bytes) : Body q (q :: r) [] r :=
  ⟨[], by simp [Plain]⟩

lemma Body.byte {q c : UInt8} {t v r : Bytes} (hq : c ≠ q) (hc : c ≠ '\\'.toUInt8)
    (h : Body q t v r) : Body q (c :: t) (c :: v) r := by
  obtain ⟨raw, rfl, hle, heq⟩ := h
  refine ⟨c :: raw, by simp, by simpa using hle, fun hlen => ?_⟩
  obtain ⟨rfl, hplain⟩ := heq (by simpa using hlen)
  exact ⟨rfl, hq, fun h => absurd h hc, hplain⟩

lemma Body.doubled {q : UInt8} {t v r : Bytes} (h : Body q t v r) :
    Body q (q :: q :: t) (q :: v) r := by
  obtain ⟨raw, rfl, hle, -⟩ := h
  refine ⟨q :: q :: raw, by simp, ?_, fun hlen => ?_⟩
  · simp only [List.length_cons]
    omega
  · simp only [List.length_cons] at hlen
    omega

lemma length_unescape (c : UInt8) :
    (unescape c).length ≤ 2 ∧
      ((unescape c).length = 2 →
        (c = '%'.toUInt8 ∨ c = '_'.toUInt8) ∧ unescape c = ['\\'.toUInt8, c]) := by
  unfold unescape
  split_ifs with h0 hb hn hr ht hZ hpat <;> simp [*]

lemma Body.escape {q d : UInt8} {t v r : Bytes} (hq : isQuote q = true) (h : Body q t v r) :
    Body q ('\\'.toUInt8 :: d :: t) (unescape d ++ v) r := by
  obtain ⟨raw, rfl, hle, heq⟩ := h
  obtain ⟨hd, hkept⟩ := length_unescape d
  refine ⟨'\\'.toUInt8 :: d :: raw, by simp, ?_, fun hlen => ?_⟩
  · simp only [List.length_append, List.length_cons]
    omega
  · simp only [List.length_append, List.length_cons] at hlen
    obtain ⟨hpat, hval⟩ := hkept (by omega)
    obtain ⟨rfl, hplain⟩ := heq (by omega)
    have hquote : q = '\''.toUInt8 ∨ q = '"'.toUInt8 := by simpa [isQuote] using hq
    have hbs : q ≠ '\\'.toUInt8 := by rcases hquote with rfl | rfl <;> decide
    have hdq : d ≠ q := by rcases hquote with rfl | rfl <;> rcases hpat with rfl | rfl <;> decide
    have hdbs : d ≠ '\\'.toUInt8 := by rcases hpat with rfl | rfl <;> decide
    exact ⟨by simp [hval], hbs.symm, fun _ => by simpa using hpat, hdq, fun h => absurd h hdbs,
      hplain⟩

/-- **Reading a literal.** What the lexer makes of a text that starts inside a literal. -/
theorem lex_body {q : UInt8} {t : Bytes} {ps : List Piece} (hq : isQuote q = true)
    (h : lex (some q) t = some ps) :
    ∃ v r qs, ps = .str v :: qs ∧ Body q t v r ∧ lex none r = some qs := by
  induction hn : t.length using Nat.strong_induction_on generalizing t ps with
  | _ n ih =>
    rcases t with _ | ⟨c, _ | ⟨d, r⟩⟩
    · simp [lex] at h
    · simp only [lex] at h
      split_ifs at h with hc
      subst hc
      obtain rfl : [Piece.str []] = ps := by simpa using h
      exact ⟨[], [], [], rfl, Body.closed c [], rfl⟩
    · rw [lex_str_cons] at h
      split_ifs at h with hc hd hbs
      · subst c d
        obtain ⟨ps, hps, rfl⟩ := Option.map_eq_some_iff.mp h
        obtain ⟨v, s, qs, rfl, hbody, hrest⟩ := ih r.length (by simp at hn; omega) hps rfl
        exact ⟨q :: v, s, qs, rfl, hbody.doubled, hrest⟩
      · subst hc
        obtain ⟨ps, hps, rfl⟩ := Option.map_eq_some_iff.mp h
        exact ⟨[], d :: r, ps, rfl, Body.closed c (d :: r), hps⟩
      · subst hbs
        obtain ⟨ps, hps, rfl⟩ := Option.map_eq_some_iff.mp h
        obtain ⟨v, s, qs, rfl, hbody, hrest⟩ := ih r.length (by simp at hn; omega) hps rfl
        exact ⟨unescape d ++ v, s, qs, rfl, hbody.escape hq, hrest⟩
      · obtain ⟨ps, hps, rfl⟩ := Option.map_eq_some_iff.mp h
        obtain ⟨v, s, qs, rfl, hbody, hrest⟩ := ih (d :: r).length (by simp at hn ⊢; omega) hps rfl
        exact ⟨c :: v, s, qs, rfl, hbody.byte hc hbs, hrest⟩

/-- A plain string between its quotes is read as itself. -/
lemma lex_plain {q : UInt8} {t r : Bytes} (h : Plain q t) (hr : r.head? ≠ some q) :
    lex (some q) (t ++ q :: r) = (lex none r).map (.str t :: ·) := by
  induction hn : t.length using Nat.strong_induction_on generalizing t with
  | _ n ih =>
    have hpush (bs v : Bytes) : pushStr bs ∘ (.str v :: ·) = (.str (bs ++ v) :: ·) := rfl
    rcases t with _ | ⟨c, t⟩
    · rcases r with _ | ⟨d, r⟩
      · simp [lex]
      · have hd : d ≠ q := by simpa using hr
        rw [List.nil_append, lex_str_cons, if_pos rfl, if_neg hd]
    · obtain ⟨hc, hesc, hplain⟩ := h
      by_cases hbs : c = '\\'.toUInt8
      · -- an escape that keeps its backslash
        rcases t with _ | ⟨d, t⟩
        · simp [hbs] at hesc
        · have hpat : d = '%'.toUInt8 ∨ d = '_'.toUInt8 := by simpa using hesc hbs
          have hval : unescape d = [c, d] := by
            rcases hpat with rfl | rfl <;> subst hbs <;> decide
          have ih := ih t.length (by simp at hn; omega) hplain.2.2 rfl
          rw [List.cons_append, List.cons_append, lex_str_cons, if_neg hc, if_pos hbs, hval, ih,
            Option.map_map, hpush]
          rfl
      · have ih := ih t.length (by simp at hn; omega) hplain rfl
        obtain ⟨d, u, hu⟩ : ∃ d u, t ++ q :: r = d :: u := by cases t <;> simp
        rw [List.cons_append, hu, lex_str_cons, if_neg hc, if_neg hbs, ← hu, ih,
          Option.map_map, hpush]
        rfl

/-! ### Reading text -/

/-- The text that starts a statement. -/
lemma lex_text_inv {s t : Bytes} {ps : List Piece} (h : lex none s = some (.text t :: ps)) :
    ∃ r, s = t ++ r ∧ lex none r = some ps := by
  induction s generalizing t with
  | nil => simp [lex] at h
  | cons c r ih =>
    rw [lex] at h
    split_ifs at h with hc
    · obtain ⟨v, _, qs, hps, -⟩ := lex_body hc h
      simp at hps
    · obtain ⟨qs, hqs, hpush⟩ := Option.map_eq_some_iff.mp h
      rcases qs with _ | ⟨u | v, qs⟩
      · obtain ⟨rfl, rfl⟩ : [c] = t ∧ [] = ps := by simpa [pushText] using hpush
        exact ⟨r, rfl, hqs⟩
      · obtain ⟨rfl, rfl⟩ : c :: u = t ∧ qs = ps := by simpa [pushText] using hpush
        obtain ⟨w, rfl, hw⟩ := ih hqs
        exact ⟨w, rfl, hw⟩
      · obtain ⟨rfl, rfl⟩ : [c] = t ∧ .str v :: qs = ps := by simpa [pushText] using hpush
        exact ⟨r, rfl, hqs⟩

lemma lex_str_inv {s v : Bytes} {ps : List Piece} (h : lex none s = some (.str v :: ps)) :
    ∃ q t r, s = q :: t ∧ isQuote q = true ∧ Body q t v r ∧ lex none r = some ps := by
  rcases s with _ | ⟨c, s⟩
  · simp [lex] at h
  · rw [lex] at h
    split_ifs at h with hc
    · obtain ⟨w, r, qs, hps, hbody, hrest⟩ := lex_body hc h
      obtain ⟨rfl, rfl⟩ : v = w ∧ ps = qs := by simpa using hps
      exact ⟨c, s, r, rfl, hc, hbody, hrest⟩
    · obtain ⟨qs, -, hpush⟩ := Option.map_eq_some_iff.mp h
      rcases qs with _ | ⟨u | v, qs⟩ <;> simp [pushText] at hpush

lemma lex_nil_inv {s : Bytes} (h : lex none s = some []) : s = [] := by
  rcases s with _ | ⟨c, s⟩
  · rfl
  · rw [lex] at h
    split_ifs at h with hc
    · obtain ⟨w, r, qs, hps, -⟩ := lex_body hc h
      simp at hps
    · obtain ⟨qs, -, hpush⟩ := Option.map_eq_some_iff.mp h
      rcases qs with _ | ⟨u | v, qs⟩ <;> simp [pushText] at hpush

/-- Text without quotes, up to a quote or the end. -/
lemma lex_text {t r : Bytes} (hne : t ≠ []) (ht : t.all (fun c => !isQuote c) = true)
    (hr : r.head?.all isQuote = true) :
    lex none (t ++ r) = (lex none r).map (.text t :: ·) := by
  induction t with
  | nil => simp at hne
  | cons c t ih =>
    obtain ⟨hc, ht⟩ : isQuote c = false ∧ t.all (fun c => !isQuote c) = true := by simpa using ht
    rw [List.cons_append, lex, if_neg (by simp [hc])]
    rcases t with _ | ⟨d, t⟩
    · rcases r with _ | ⟨q, r⟩
      · simp [lex, pushText]
      · have hq : isQuote q = true := by simpa using hr
        rw [List.nil_append, lex, if_pos hq]
        rcases h : lex (some q) r with _ | ps
        · rfl
        · -- what starts with a quote does not start with text
          obtain ⟨v, s, qs, rfl, -⟩ := lex_body hq h
          rfl
    · rw [ih (by simp) ht, Option.map_map]
      rfl

end WeatherQuery.SqlLex
