import WeatherQuery.SqlLex

/-!
The text of the statements: `select_sql`, `insert_sql` and the loop of the crawler's `main`
that builds what it hands to `insert_sql`.

Both put strings between quotes as they are. A string comes out of its literal as it went in
exactly when it is plain, and then the statement has the literals it was meant to have.
-/

namespace WeatherQuery.SqlText

open WeatherQuery.CText WeatherQuery.SqlLex

abbrev quote : UInt8 := '\''.toUInt8

/-! ### The source -/

/-- `SELECT info from tianqi where cityname=`, before the quote. -/
def selectHead : Bytes :=
  lit ['S', 'E', 'L', 'E', 'C', 'T', ' ', 'i', 'n', 'f', 'o', ' ', 'f', 'r', 'o', 'm', ' ', 't',
    'i', 'a', 'n', 'q', 'i', ' ', 'w', 'h', 'e', 'r', 'e', ' ', 'c', 'i', 't', 'y', 'n', 'a', 'm',
    'e', '=']

/-- The statement of `select_sql`, as `mysql_query` gets it: up to the first NUL. -/
def selectText (cityname : Bytes) : Bytes :=
  cstr (selectHead ++ [quote] ++ cityname ++ [quote])

/-- The class `data` of the crawler. -/
structure Data where
  date : List Bytes
  name : Bytes
  weather : List Bytes
  lowDegree : List Bytes
  highDegree : List Bytes
  deriving DecidableEq

/-- What a turn of the inner loop of `main` adds to `info`. -/
def day (w : Data) (i : ℕ) : Bytes :=
  w.date.getD i [] ++ lit [' '] ++ w.name ++ lit [' '] ++ w.weather.getD i [] ++ lit [' '] ++
    w.lowDegree.getD i [] ++ lit ['~'] ++ w.highDegree.getD i [] ++ lit ['#']

/-- `info`, with the quote it starts with. -/
def info (w : Data) : Bytes :=
  (List.range 7).foldl (fun info i => info ++ day w i) ([quote] ++ w.name ++ lit ['#'])

/-- The argument of `insert_sql`. -/
def insertData (key : Bytes) (w : Data) : Bytes :=
  [quote] ++ key ++ [quote] ++ lit [','] ++ info w ++ [quote]

/-- `insert tianqi (cityname,info) values (`. -/
def insertHead : Bytes :=
  lit ['i', 'n', 's', 'e', 'r', 't', ' ', 't', 'i', 'a', 'n', 'q', 'i', ' ', '(', 'c', 'i', 't',
    'y', 'n', 'a', 'm', 'e', ',', 'i', 'n', 'f', 'o', ')', ' ', 'v', 'a', 'l', 'u', 'e', 's', ' ',
    '(']

/-- The statement of `insert_sql`, as `mysql_query` gets it. -/
def insertText (data : Bytes) : Bytes := cstr (insertHead ++ data ++ lit [')', ';'])

/-! ### What the statements are meant to say -/

/-- The text `info` holds, without its quote. -/
def infoString (w : Data) : Bytes := w.name ++ lit ['#'] ++ (List.range 7).flatMap (day w)

def Data.fields (w : Data) : List Bytes :=
  w.name :: (w.date ++ w.weather ++ w.lowDegree ++ w.highDegree)

/-- A record as `Get_weather_info` makes it: seven days, of C strings. -/
structure Week extends Data where
  seven : date.length = 7 ∧ weather.length = 7 ∧ lowDegree.length = 7 ∧ highDegree.length = 7
  nulFree : ∀ t ∈ toData.fields, NulFree t

/-- The statement of `select_sql` asks for `cityname`. -/
def SelectAsks (cityname : Bytes) : Prop :=
  lex none (selectText cityname) = some [.text selectHead, .str cityname]

/-- The statement the crawler sends inserts `key` and the info of `w`. -/
def InsertSays (key : Bytes) (w : Data) : Prop :=
  lex none (insertText (insertData key w)) =
    some [.text insertHead, .str key, .text (lit [',']), .str (infoString w),
      .text (lit [')', ';'])]

instance (cityname : Bytes) : Decidable (SelectAsks cityname) :=
  inferInstanceAs (Decidable (_ = _))

instance (key : Bytes) (w : Data) : Decidable (InsertSays key w) :=
  inferInstanceAs (Decidable (_ = _))

lemma info_eq (w : Data) : info w = quote :: infoString w := by
  have hfold (is : List ℕ) (t : Bytes) :
      is.foldl (fun info i => info ++ day w i) t = t ++ is.flatMap (day w) := by
    induction is generalizing t with
    | nil => simp
    | cons i is ih => simp [ih]
  rw [info, hfold]
  simp [infoString]

/-! ### Plain strings between separators -/

/-- A byte no escape depends on. -/
def Separates (s : UInt8) : Prop :=
  s ≠ quote ∧ s ≠ '\\'.toUInt8 ∧ s ≠ '%'.toUInt8 ∧ s ≠ '_'.toUInt8

instance (s : UInt8) : Decidable (Separates s) := inferInstanceAs (Decidable (_ ∧ _ ∧ _ ∧ _))

lemma plain_of_forall {q : UInt8} {t : Bytes} (h : ∀ c ∈ t, c ≠ q ∧ c ≠ '\\'.toUInt8) :
    Plain q t := by
  induction t with
  | nil => trivial
  | cons c t ih =>
    obtain ⟨hc, ht⟩ := List.forall_mem_cons.mp h
    exact ⟨hc.1, fun hback => absurd hback hc.2, ih ht⟩

lemma plain_append_cons {s : UInt8} (hs : Separates s) (a b : Bytes) :
    Plain quote (a ++ s :: b) ↔ Plain quote a ∧ Plain quote b := by
  obtain ⟨hq, hbs, hpc, hus⟩ := hs
  induction a with
  | nil => simp [Plain, hq, hbs]
  | cons c a ih =>
    rw [List.cons_append, Plain, Plain, ih]
    have hhead : (a ++ s :: b).head? = some '%'.toUInt8 ∨ (a ++ s :: b).head? = some '_'.toUInt8 ↔
        a.head? = some '%'.toUInt8 ∨ a.head? = some '_'.toUInt8 := by
      cases a <;> simp [hpc, hus]
    rw [hhead, and_assoc, and_assoc]

lemma plain_append_sep {s : UInt8} (hs : Separates s) (a : Bytes) :
    Plain quote (a ++ [s]) ↔ Plain quote a := by
  rw [plain_append_cons hs]
  simp [Plain]

lemma plain_flatMap {f g : ℕ → Bytes} {s : UInt8} (hs : Separates s)
    (h : ∀ i, f i = g i ++ [s]) (is : List ℕ) :
    Plain quote (is.flatMap f) ↔ ∀ i ∈ is, Plain quote (f i) := by
  induction is with
  | nil => simp [Plain]
  | cons i is ih =>
    rw [List.flatMap_cons, h i, List.append_assoc, List.singleton_append, plain_append_cons hs, ih,
      List.forall_mem_cons, h i, plain_append_sep hs]

lemma plain_day (w : Data) (i : ℕ) :
    Plain quote (day w i) ↔
      Plain quote (w.date.getD i []) ∧ Plain quote w.name ∧ Plain quote (w.weather.getD i []) ∧
        Plain quote (w.lowDegree.getD i []) ∧ Plain quote (w.highDegree.getD i []) := by
  have hday : day w i = w.date.getD i [] ++ ' '.toUInt8 :: (w.name ++ ' '.toUInt8 ::
      (w.weather.getD i [] ++ ' '.toUInt8 :: (w.lowDegree.getD i [] ++ '~'.toUInt8 ::
        (w.highDegree.getD i [] ++ ['#'.toUInt8])))) := by
    simp [day, lit]
  have hblank : Separates ' '.toUInt8 := by decide
  have htilde : Separates '~'.toUInt8 := by decide
  have hhash : Separates '#'.toUInt8 := by decide
  rw [hday, plain_append_cons hblank, plain_append_cons hblank, plain_append_cons hblank,
    plain_append_cons htilde, plain_append_sep hhash]

/-- The seven elements of a list, one by one. -/
lemma forall_getD_iff {l : List Bytes} (hl : l.length = 7) (P : Bytes → Prop) :
    (∀ i ∈ List.range 7, P (l.getD i [])) ↔ ∀ t ∈ l, P t := by
  constructor
  · intro h t ht
    obtain ⟨i, hi, rfl⟩ := List.mem_iff_getElem.mp ht
    have := h i (by simp; omega)
    rwa [List.getD_eq_getElem _ _ hi] at this
  · intro h i hi
    have hlt : i < l.length := by simp at hi; omega
    rw [List.getD_eq_getElem _ _ hlt]
    exact h _ (List.getElem_mem hlt)

lemma plain_infoString (w : Week) :
    Plain quote (infoString w.toData) ↔ ∀ t ∈ w.fields, Plain quote t := by
  have hhash : Separates '#'.toUInt8 := by decide
  have hinfo : infoString w.toData =
      w.name ++ '#'.toUInt8 :: (List.range 7).flatMap (day w.toData) := by
    simp [infoString, lit]
  obtain ⟨hdate, hweather, hlow, hhigh⟩ := w.seven
  have hdays : (∀ i ∈ List.range 7, Plain quote (day w.toData i)) ↔
      Plain quote w.name ∧ (∀ t ∈ w.date, Plain quote t) ∧ (∀ t ∈ w.weather, Plain quote t) ∧
        (∀ t ∈ w.lowDegree, Plain quote t) ∧ ∀ t ∈ w.highDegree, Plain quote t := by
    rw [← forall_getD_iff hdate, ← forall_getD_iff hweather, ← forall_getD_iff hlow,
      ← forall_getD_iff hhigh]
    constructor
    · intro h
      have hi (i) (hi : i ∈ List.range 7) := (plain_day w.toData i).mp (h i hi)
      exact ⟨(hi 0 (by simp)).2.1, fun i m => (hi i m).1, fun i m => (hi i m).2.2.1,
        fun i m => (hi i m).2.2.2.1, fun i m => (hi i m).2.2.2.2⟩
    · rintro ⟨hname, hd, hw, hl, hh⟩ i hi
      exact (plain_day w.toData i).mpr ⟨hd i hi, hname, hw i hi, hl i hi, hh i hi⟩
  rw [hinfo, plain_append_cons hhash, plain_flatMap (f := day w.toData) hhash fun i => rfl,
    hdays]
  simp only [Data.fields, List.forall_mem_cons, List.forall_mem_append]
  tauto

lemma nulFree_infoString (w : Week) : NulFree (infoString w.toData) := by
  have hblank : NulFree (lit [' ']) := by decide
  have htilde : NulFree (lit ['~']) := by decide
  have hhash : NulFree (lit ['#']) := by decide
  obtain ⟨hdate, hweather, hlow, hhigh⟩ := w.seven
  have hname : NulFree w.name := w.nulFree _ (by simp [Data.fields])
  have hd := (forall_getD_iff hdate NulFree).mpr fun t ht => w.nulFree t (by simp [Data.fields, ht])
  have hw := (forall_getD_iff hweather NulFree).mpr
    fun t ht => w.nulFree t (by simp [Data.fields, ht])
  have hl := (forall_getD_iff hlow NulFree).mpr fun t ht => w.nulFree t (by simp [Data.fields, ht])
  have hh := (forall_getD_iff hhigh NulFree).mpr fun t ht => w.nulFree t (by simp [Data.fields, ht])
  have hday (i) (hi : i ∈ List.range 7) : NulFree (day w.toData i) :=
    ((((((((hd i hi).append hblank).append hname).append hblank).append (hw i hi)).append
      hblank).append (hl i hi)).append htilde).append (hh i hi) |>.append hhash
  refine (hname.append hhash).append fun c hc => ?_
  obtain ⟨i, hi, hci⟩ := List.mem_flatMap.mp hc
  exact hday i hi c hci

/-! ### The statements -/

lemma selectText_eq {cityname : Bytes} (h : NulFree cityname) :
    selectText cityname = selectHead ++ quote :: (cityname ++ [quote]) := by
  have hhead : NulFree selectHead := by decide
  have hquote : NulFree [quote] := by decide
  rw [selectText, cstr_of_nulFree (((hhead.append hquote).append h).append hquote)]
  simp

lemma insertText_eq {key : Bytes} (h : NulFree key) (w : Week) :
    insertText (insertData key w.toData) =
      insertHead ++ quote :: (key ++ quote :: (lit [','] ++ quote ::
        (infoString w.toData ++ quote :: lit [')', ';']))) := by
  have hhead : NulFree insertHead := by decide
  have hquote : NulFree [quote] := by decide
  have hcomma : NulFree (lit [',']) := by decide
  have hend : NulFree (lit [')', ';']) := by decide
  have hdata : NulFree (insertData key w.toData) := by
    rw [insertData, info_eq]
    exact ((((hquote.append h).append hquote).append hcomma).append
      (hquote.append (nulFree_infoString w))).append hquote
  rw [insertText, cstr_of_nulFree ((hhead.append hdata).append hend), insertData, info_eq]
  simp

lemma lex_quote (t : Bytes) : lex none (quote :: t) = lex (some quote) t := by
  rw [lex, if_pos (by decide)]

lemma lex_selectHead (t : Bytes) :
    lex none (selectHead ++ quote :: t) =
      (lex none (quote :: t)).map (.text selectHead :: ·) :=
  lex_text (by decide) (by decide) (by simp [isQuote, quote])

lemma lex_insertHead (t : Bytes) :
    lex none (insertHead ++ quote :: t) =
      (lex none (quote :: t)).map (.text insertHead :: ·) :=
  lex_text (by decide) (by decide) (by simp [isQuote, quote])

lemma selectAsks_iff {cityname : Bytes} (h : NulFree cityname) :
    SelectAsks cityname ↔ Plain quote cityname := by
  rw [SelectAsks, selectText_eq h, lex_selectHead]
  constructor
  · intro hlex
    have hstr : lex none (quote :: (cityname ++ [quote])) = some [.str cityname] := by
      simpa [Option.map_eq_some_iff] using hlex
    obtain ⟨q, t, r, hcons, -, ⟨raw, rfl, -, hplain⟩, hrest⟩ := lex_str_inv hstr
    obtain rfl := lex_nil_inv hrest
    obtain ⟨rfl, ht⟩ := List.cons.inj hcons
    have hlen := congrArg List.length ht
    simp only [List.length_append, List.length_cons, List.length_nil] at hlen
    obtain ⟨rfl, hplain⟩ := hplain (by omega)
    exact hplain
  · intro hplain
    rw [lex_quote, lex_plain hplain (by simp)]
    rfl

lemma insertSays_iff {key : Bytes} (h : NulFree key) (w : Week) :
    InsertSays key w.toData ↔ Plain quote key ∧ Plain quote (infoString w.toData) := by
  rw [InsertSays, insertText_eq h, lex_insertHead]
  constructor
  · intro hlex
    have hstr : lex none (quote :: (key ++ quote :: (lit [','] ++ quote ::
        (infoString w.toData ++ quote :: lit [')', ';'])))) =
          some [.str key, .text (lit [',']), .str (infoString w.toData),
            .text (lit [')', ';'])] := by
      simpa [Option.map_eq_some_iff] using hlex
    -- the bodies of the two literals are together as long as what was put into them
    obtain ⟨q, t₁, r₁, hcons, -, ⟨raw, rfl, hle, hplain⟩, h₁⟩ := lex_str_inv hstr
    obtain ⟨r₂, rfl, h₂⟩ := lex_text_inv h₁
    obtain ⟨q', t₃, r₃, rfl, -, ⟨raw', rfl, hle', hplain'⟩, h₃⟩ := lex_str_inv h₂
    obtain ⟨r₄, rfl, h₄⟩ := lex_text_inv h₃
    obtain rfl := lex_nil_inv h₄
    obtain ⟨rfl, ht⟩ := List.cons.inj hcons
    have hlen := congrArg List.length ht
    simp only [List.length_append, List.length_cons, List.length_nil] at hlen
    obtain ⟨rfl, hkey⟩ := hplain (by omega)
    obtain ⟨hval, hinfo⟩ := hplain' (by omega)
    subst hval
    obtain rfl : quote = q' := by simpa using ht
    exact ⟨hkey, hinfo⟩
  · rintro ⟨hkey, hinfo⟩
    have hcomma (t : Bytes) : lex none (lit [','] ++ quote :: t) =
        (lex none (quote :: t)).map (.text (lit [',']) :: ·) :=
      lex_text (by decide) (by decide) (by simp [isQuote, quote])
    rw [lex_quote, lex_plain hkey (by simp [lit, quote]; decide), hcomma, lex_quote,
      lex_plain hinfo (by simp [lit, quote]; decide)]
    rfl

/-- **The statements.** A statement of `select_sql` asks for the name it was given, and one of
the crawler inserts the key and the info it was given, exactly when no quote and no escape
stands in what was put between the quotes. -/
theorem says_iff_plain (cityname key : Bytes) (w : Week) (hc : NulFree cityname)
    (hk : NulFree key) :
    (SelectAsks cityname ↔ Plain quote cityname) ∧
      (InsertSays key w.toData ↔ Plain quote key ∧ ∀ t ∈ w.fields, Plain quote t) := by
  refine ⟨selectAsks_iff hc, ?_⟩
  rw [insertSays_iff hk, plain_infoString]

/-- A record of seven equal days. -/
def sunnyWeek : Week where
  date := List.replicate 7 (lit ['1'])
  name := lit ['B', 'J']
  weather := List.replicate 7 (lit ['s', 'u', 'n'])
  lowDegree := List.replicate 7 (lit ['5'])
  highDegree := List.replicate 7 (lit ['9'])
  seven := by decide
  nulFree := by
    intro t ht
    simp only [Data.fields, List.mem_cons, List.mem_append, List.mem_replicate] at ht
    rcases ht with rfl | ((⟨-, rfl⟩ | ⟨-, rfl⟩) | ⟨-, rfl⟩) | ⟨-, rfl⟩ <;> decide

theorem says_iff_plain_sunnyWeek :
    NulFree (lit ['B', '7']) ∧
      (SelectAsks (lit ['B', '7']) ↔ Plain quote (lit ['B', '7'])) ∧
        (InsertSays (lit ['B', '7']) sunnyWeek.toData ↔
          Plain quote (lit ['B', '7']) ∧ ∀ t ∈ sunnyWeek.fields, Plain quote t) :=
  ⟨by decide, says_iff_plain (lit ['B', '7']) (lit ['B', '7']) sunnyWeek (by decide) (by decide)⟩

/-- The name `'` does not stand for itself. -/
theorem not_asks_quote :
    ¬ ∀ cityname key (w : Week), NulFree cityname → NulFree key →
      SelectAsks cityname ∧ InsertSays key w.toData := by
  intro h
  have hasks := (h (lit ['\'']) [] sunnyWeek (by decide) (by decide)).1
  exact absurd hasks (by decide)

end WeatherQuery.SqlText
