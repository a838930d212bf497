import WeatherQuery.CityKey
import WeatherQuery.CrawlModel
import WeatherQuery.Utf8Cut

/-!
The filters for scraped text: `ParseStr` of the CGI, `deleSpace` and `deleSpaceforweather` of the
crawler.

All three work in place. The last two also cut what is left after 30 bytes, and a character that
has bytes on both sides of the cut loses its end.
-/

namespace WeatherQuery.FieldFilters

open WeatherQuery.CText WeatherQuery.InPlace WeatherQuery.KeyModel WeatherQuery.CrawlModel
open WeatherQuery.Utf8Cut

/-- A buffer with a string in it. -/
structure CString where
  buf : Bytes
  ended : 0 ∈ buf

/-- A `char buf[100]` of `Get_weather_info`. -/
structure Field extends CString where
  room : buf.length = 100

/-- The bytes `ParseStr` takes out. -/
def isPercent (c : UInt8) : Bool := c = '%'.toUInt8

/-- The bytes `deleSpace` takes out. -/
def isBlank (c : UInt8) : Bool := c = 9 || c = 32 || c = 20 || c = 10 || c = 13

/-- The bytes `deleSpaceforweather` takes out. -/
def isMark (c : UInt8) : Bool := c = 48 || c = 49 || c = 50

/-- The text a filter that takes out `drop` is to leave. -/
def without (drop : UInt8 → Bool) (t : Bytes) : Bytes := t.filter fun c => !drop c

/-- What is asked of a filter on a buffer: it leaves the string `keep` makes of the one that is
there, its loop comes to an end and reads nothing behind the NUL, and the filter changes nothing
the second time. -/
structure Filters (f : Bytes → Bytes) (drop : UInt8 → Bool) (keep : Bytes → Bytes)
    (buf : Bytes) : Prop where
  string : cstr (f buf) = keep (cstr buf)
  ends : ∃ is, reads drop (buf.length + 2) buf = some is ∧ ∀ i ∈ is, i ≤ strlen buf
  again : f (f buf) = f buf

/-! ### The loop -/

lemma filterInPlace_left {drop : UInt8 → Bool} (h0 : drop 0 = false) {t : Bytes} (ht : NulFree t)
    (r : Bytes) : filterInPlace drop (t ++ 0 :: r) = left drop t r := by
  have hloop : filterInPlace drop (t ++ 0 :: r) =
      (forLoop more (turn drop) ((t ++ 0 :: r).length + 1) 0 (0, t ++ 0 :: r)).2 := rfl
  rw [hloop, forLoop_filter r ht h0]
  rw [List.length_append, List.length_cons]
  omega

lemma without_of_all {drop : UInt8 → Bool} {t : Bytes} :
    ∀ c ∈ without drop t, drop c = false := by
  intro c hc
  simpa using (List.mem_filter.mp hc).2

lemma reads_string {drop : UInt8 → Bool} (h0 : drop 0 = false) (s : CString) :
    ∃ is, reads drop (s.buf.length + 2) s.buf = some is ∧ ∀ i ∈ is, i ≤ strlen s.buf := by
  obtain ⟨r, hr⟩ := exists_nul s.ended
  have hlen := congrArg List.length hr
  rw [List.length_append, List.length_cons] at hlen
  have hfuel : (cstr s.buf).length + 1 < s.buf.length + 2 := by omega
  obtain ⟨is, his, hle⟩ := reads_filter r (nulFree_cstr s.buf) h0 hfuel
  exact ⟨is, by rwa [← hr] at his, hle⟩

/-! ### The cut -/

/-- A NUL at `n` cuts the string there, if it is longer. -/
lemma set_nul {t : Bytes} (n : ℕ) (r : Bytes) :
    ∃ r', (t ++ 0 :: r).set n 0 = t.take n ++ 0 :: r' := by
  rcases Nat.lt_or_ge n t.length with hlt | hge
  · refine ⟨t.drop (n + 1) ++ 0 :: r, ?_⟩
    rw [List.set_append_left _ _ hlt, List.set_eq_take_append_cons_drop, if_pos hlt]
    simp
  · rw [List.set_append_right _ _ hge, List.take_of_length_le hge]
    rcases n - t.length with _ | k
    · exact ⟨r, rfl⟩
    · exact ⟨r.set k 0, rfl⟩

/-- A filter in place and a NUL at 30. -/
def squeeze (drop : UInt8 → Bool) (buf : Bytes) : Bytes := (filterInPlace drop buf).set 30 0

lemma deleSpace_eq : deleSpace = squeeze isBlank := rfl

lemma deleSpaceforweather_eq : deleSpaceforweather = squeeze isMark := rfl

section Squeeze

variable {drop : UInt8 → Bool} (h0 : drop 0 = false) (s : CString)
include h0

lemma squeeze_eq : ∃ r, squeeze drop s.buf = (without drop (cstr s.buf)).take 30 ++ 0 :: r := by
  obtain ⟨r, hr⟩ := exists_nul s.ended
  obtain ⟨r', hleft⟩ := left_eq drop (cstr s.buf) r
  rw [squeeze, hr, filterInPlace_left h0 (nulFree_cstr s.buf), hleft, ← hr]
  exact set_nul 30 r'

lemma ended_squeeze : 0 ∈ squeeze drop s.buf := by
  obtain ⟨r, hr⟩ := squeeze_eq h0 s
  simp [hr]

lemma cstr_squeeze : cstr (squeeze drop s.buf) = (without drop (cstr s.buf)).take 30 := by
  obtain ⟨r, hr⟩ := squeeze_eq h0 s
  have hnul : NulFree (without drop (cstr s.buf)) := (nulFree_cstr s.buf).filter _
  rw [hr, cstr_append_nul fun c hc => hnul c (List.mem_of_mem_take hc)]

lemma squeeze_squeeze : squeeze drop (squeeze drop s.buf) = squeeze drop s.buf := by
  obtain ⟨r, hr⟩ := squeeze_eq h0 s
  have hnul : NulFree (without drop (cstr s.buf)) := (nulFree_cstr s.buf).filter _
  have hsame : filterInPlace drop (squeeze drop s.buf) = squeeze drop s.buf := by
    rw [hr, filterInPlace_left h0 fun c hc => hnul c (List.mem_of_mem_take hc), left_of_all]
    exact fun c hc => without_of_all c (List.mem_of_mem_take hc)
  have hset : (squeeze drop s.buf).set 30 0 = squeeze drop s.buf := by
    rw [squeeze, List.set_set]
  rw [squeeze, hsame, hset]

lemma squeeze_filters : Filters (squeeze drop) drop (fun t => (without drop t).take 30) s.buf where
  string := cstr_squeeze h0 s
  ends := reads_string h0 s
  again := squeeze_squeeze h0 s

end Squeeze

lemma parseStr_filters (s : CString) : Filters parseStr isPercent (without isPercent) s.buf := by
  obtain ⟨r, hr⟩ := exists_nul s.ended
  have hleft : parseStr s.buf = left isPercent (cstr s.buf) r := by
    rw [hr, CityKey.parseStr_left (nulFree_cstr s.buf), ← hr]
    rfl
  refine ⟨?_, reads_string (by decide) s, ?_⟩
  · rw [hleft, cstr_left r (nulFree_cstr s.buf)]
    rfl
  · obtain ⟨r', hr'⟩ := left_eq isPercent (cstr s.buf) r
    rw [hleft, hr', CityKey.parseStr_left ((nulFree_cstr s.buf).filter _)]
    exact left_of_all r' without_of_all

/-- **The filters.** Each of them leaves the bytes it is not to take out, the last two the first
30 of them. The loops come to an end and read nothing behind the NUL, and a second call changes
nothing. -/
theorem filters_filter :
    (∀ s : CString, Filters parseStr isPercent (without isPercent) s.buf) ∧
      (∀ f : Field, Filters deleSpace isBlank (fun t => (without isBlank t).take 30) f.buf) ∧
      ∀ f : Field, Filters deleSpaceforweather isMark (fun t => (without isMark t).take 30) f.buf :=
  ⟨parseStr_filters, fun f => deleSpace_eq ▸ squeeze_filters (by decide) f.toCString,
    fun f => deleSpaceforweather_eq ▸ squeeze_filters (by decide) f.toCString⟩

/-! ### UTF-8 -/

lemma not_blank_of_high (b : UInt8) (hb : 0x80 ≤ b) : (!isBlank b) = true := by
  have hne (k : UInt8) (hk : ¬ 0x80 ≤ k) : b ≠ k := fun h => hk (h ▸ hb)
  simp [isBlank, hne]

lemma not_mark_of_high (b : UInt8) (hb : 0x80 ≤ b) : (!isMark b) = true := by
  have hne (k : UInt8) (hk : ¬ 0x80 ≤ k) : b ≠ k := fun h => hk (h ▸ hb)
  simp [isMark, hne]

/-- The text of a weather field after both filters. -/
lemma cstr_weather (f : Field) :
    cstr (deleSpaceforweather (deleSpace f.buf)) =
      without isMark ((without isBlank (cstr f.buf)).take 30) := by
  have hcut : cstr (squeeze isMark (squeeze isBlank f.buf)) =
      (without isMark (cstr (squeeze isBlank f.buf))).take 30 :=
    cstr_squeeze (by decide) ⟨squeeze isBlank f.buf, ended_squeeze (by decide) f.toCString⟩
  rw [cstr_squeeze (by decide) f.toCString] at hcut
  rw [deleSpace_eq, deleSpaceforweather_eq, hcut]
  refine List.take_of_length_le ?_
  exact (List.length_filter_le _ _).trans (List.length_take_le _ _)

/-- **Characters.** What the filters leave of a text in UTF-8 is UTF-8 exactly when, the blanks
taken out, it has at most 30 bytes or its 31st byte starts a character. -/
theorem valid_iff_starts (f : Field) (hf : Valid (cstr f.buf)) :
    Valid (cstr (deleSpace f.buf)) ∧ Valid (cstr (deleSpaceforweather (deleSpace f.buf))) ↔
      Starts (without isBlank (cstr f.buf)) 30 := by
  have hblank : Valid (without isBlank (cstr f.buf)) := hf.filter not_blank_of_high
  have hdate : Valid (cstr (deleSpace f.buf)) ↔ Starts (without isBlank (cstr f.buf)) 30 := by
    rw [deleSpace_eq, cstr_squeeze (by decide) f.toCString, valid_take_iff hblank]
  have hweather : Valid (cstr (deleSpaceforweather (deleSpace f.buf))) ↔
      Starts (without isBlank (cstr f.buf)) 30 := by
    rw [cstr_weather, without, valid_filter_take_iff not_mark_of_high hblank]
  rw [hdate, hweather, and_self]

section Text

variable {t : Bytes} (ht : t.length < 100)

lemma mem_fieldBuf (t : Bytes) : 0 ∈ t ++ 0 :: List.replicate (100 - (t.length + 1)) 0 := by simp

include ht in
lemma length_fieldBuf : (t ++ 0 :: List.replicate (100 - (t.length + 1)) 0).length = 100 := by
  simp
  omega

/-- A text in its buffer. -/
def fieldOf (t : Bytes) (ht : t.length < 100) : Field :=
  ⟨⟨t ++ 0 :: List.replicate (100 - (t.length + 1)) 0, mem_fieldBuf t⟩, length_fieldBuf ht⟩

lemma cstr_fieldOf (hn : NulFree t) : cstr (fieldOf t ht).buf = t := cstr_append_nul hn _

end Text

/-- A letter and ten characters of three bytes. -/
def longText : Bytes := ('a' :: List.replicate 10 '京').flatMap String.utf8EncodeChar

/-- Blanks, a mark and letters, and twelve characters of three bytes. With the blanks taken out the
31st byte starts the tenth of the characters. -/
def wideText : Bytes :=
  ([' ', '1', 'a', '\t', 'b'] ++ List.replicate 5 '京' ++ [' '] ++
    List.replicate 7 '京').flatMap String.utf8EncodeChar

/-- The date keeps nine of the twelve characters, and the weather loses the mark. -/
theorem valid_iff_starts_wideText :
    cstr (deleSpace (fieldOf wideText (by decide)).buf) =
        (['1', 'a', 'b'] ++ List.replicate 9 '京').flatMap String.utf8EncodeChar ∧
      Valid (cstr (deleSpace (fieldOf wideText (by decide)).buf)) ∧
      Valid (cstr (deleSpaceforweather (deleSpace (fieldOf wideText (by decide)).buf))) := by
  have hcstr : cstr (fieldOf wideText (by decide)).buf = wideText := cstr_fieldOf _ (by decide)
  have hvalid : Valid (cstr (fieldOf wideText (by decide)).buf) := by
    rw [hcstr]
    exact ⟨_, rfl⟩
  have hstarts : Starts (without isBlank (cstr (fieldOf wideText (by decide)).buf)) 30 := by
    rw [hcstr]
    decide
  refine ⟨?_, (valid_iff_starts _ hvalid).mpr hstarts⟩
  rw [deleSpace_eq, cstr_squeeze (by decide) (fieldOf wideText (by decide)).toCString, hcstr]
  decide

/-- The tenth of the characters is cut. -/
theorem not_valid_longText :
    ¬ ∀ f : Field, Valid (cstr f.buf) → Valid (cstr (deleSpace f.buf)) ∧
      Valid (cstr (deleSpaceforweather (deleSpace f.buf))) := by
  intro h
  have hcstr : cstr (fieldOf longText (by decide)).buf = longText :=
    cstr_fieldOf _ (by decide)
  have hcut := (h (fieldOf longText (by decide)) (by rw [hcstr]; exact ⟨_, rfl⟩)).1
  have hblank : Valid (without isBlank longText) := Valid.filter not_blank_of_high ⟨_, rfl⟩
  rw [deleSpace_eq, cstr_squeeze (by decide) (fieldOf longText (by decide)).toCString, hcstr,
    valid_take_iff hblank] at hcut
  exact absurd hcut (by decide)

end WeatherQuery.FieldFilters
