import WeatherQuery.CityKey

/-!
The value in a query string.

`find` of `find_cgi.cpp` copies everything behind the first `=` into the 33 bytes of `str`. It
does not stop at an `&`, it does not look at the length, and without an `=` it copies from NULL.
-/

namespace WeatherQuery.QueryValue

open WeatherQuery.CText WeatherQuery.KeyModel WeatherQuery.CityKey

/-- `str` as `main` hands it to `find`. -/
def emptyStr : Bytes := List.replicate 33 0

/-- The text behind the first `=` of a query string, empty without one. -/
def valueText (query : Bytes) : Bytes := ((cstr query).dropWhile (· ≠ '='.toUInt8)).tail

/-- The value of the first parameter. -/
def firstValue (query : Bytes) : Bytes := (valueText query).takeWhile (· ≠ '&'.toUInt8)

/-- `find` returns with the value in `str`, having written nothing behind it. -/
def Stored (query : Bytes) : Prop :=
  ∃ str, find query emptyStr = some str ∧ cstr str = firstValue query ∧ str.length = 33

/-- Where the scan ends. -/
lemma afterEq_spec (query : Bytes) :
    (∃ r, afterEq query = some r ∧ cstr r = valueText query ∧ '='.toUInt8 ∈ cstr query) ∨
      afterEq query = none ∧ '='.toUInt8 ∉ cstr query := by
  induction query with
  | nil => exact .inr ⟨rfl, by decide⟩
  | cons c query ih =>
    by_cases hnul : c = 0
    · subst hnul
      exact .inr ⟨rfl, by simp [cstr]⟩
    · have hstr : cstr (c :: query) = c :: cstr query := by simp [cstr, hnul]
      rw [afterEq, if_neg hnul, valueText, hstr]
      by_cases heq : c = '='.toUInt8
      · rw [if_pos heq, List.dropWhile_cons_of_neg (by simpa using heq)]
        exact .inl ⟨query, rfl, rfl, by simp [heq]⟩
      · have hmem : '='.toUInt8 ∈ c :: cstr query ↔ '='.toUInt8 ∈ cstr query := by
          rw [List.mem_cons, or_iff_right (Ne.symm heq)]
        rw [if_neg heq, List.dropWhile_cons_of_pos (by simpa using heq), hmem]
        exact ih

lemma length_strcpy_emptyStr (src : Bytes) :
    (strcpy emptyStr src).length = 33 ↔ strlen src ≤ 32 := by
  rw [strcpy, emptyStr, List.drop_replicate, List.length_append, List.length_cons,
    List.length_replicate]
  change strlen src + (33 - (strlen src + 1) + 1) = 33 ↔ _
  omega

lemma takeWhile_eq_self_iff_notMem (t : Bytes) (c : UInt8) :
    t.takeWhile (· ≠ c) = t ↔ c ∉ t := by
  rw [List.takeWhile_eq_self_iff]
  constructor
  · intro h hc
    simpa using h c hc
  · intro h d hd
    simpa using ne_of_mem_of_not_mem hd h

/-- With an `=`, what is behind it must be free of `&` and fit. -/
lemma stored_some_iff {query r : Bytes} (hafter : afterEq query = some r)
    (hr : cstr r = valueText query) :
    Stored query ↔ '&'.toUInt8 ∉ cstr r ∧ (cstr r).length ≤ 32 := by
  have hfind : find query emptyStr = some (strcpy emptyStr r) := by rw [find, hafter]; rfl
  have hcopy : cstr (strcpy emptyStr r) = cstr r := by
    rw [strcpy, cstr_append_nul (nulFree_cstr r)]
  rw [← takeWhile_eq_self_iff_notMem, ← strlen, ← length_strcpy_emptyStr]
  constructor
  · rintro ⟨str, hstr, hval, hsize⟩
    obtain rfl : strcpy emptyStr r = str := Option.some.inj (hfind.symm.trans hstr)
    refine ⟨?_, hsize⟩
    rw [hr, ← firstValue, ← hval, hcopy, hr]
  · rintro ⟨hval, hsize⟩
    exact ⟨_, hfind, by rw [hcopy, firstValue, ← hr, hval], hsize⟩

/-- **The value of a query.** `find` stores the value of the first parameter within its buffer
exactly when there is an `=`, no `&` behind it, and at most 32 bytes. -/
theorem stored_iff (query : Bytes) :
    Stored query ↔
      '='.toUInt8 ∈ cstr query ∧ '&'.toUInt8 ∉ valueText query ∧
        (valueText query).length ≤ 32 := by
  rcases afterEq_spec query with ⟨r, hafter, hr, heq⟩ | ⟨hafter, heq⟩
  · rw [stored_some_iff hafter hr, hr, and_iff_right heq]
  · refine iff_of_false ?_ fun h => heq h.1
    rintro ⟨str, hstr, -⟩
    rw [find, hafter] at hstr
    cases hstr

/-! ### Cities -/

lemma length_percentEncode (name : Bytes) : (percentEncode name).length = 3 * name.length := by
  induction name with
  | nil => rfl
  | cons b name ih =>
    have hcons : percentEncode (b :: name) = '%'.toUInt8 :: digits b ++ percentEncode name := rfl
    rw [hcons, List.length_append, ih]
    simp only [CityKey.digits, List.length_cons, List.length_nil]
    omega

lemma notMem_percentEncode (name : Bytes) : '&'.toUInt8 ∉ percentEncode name := by
  intro h
  obtain ⟨b, -, hb⟩ := List.mem_flatMap.mp h
  have hall : ∀ i < 16, upperHex i ≠ '&'.toUInt8 := by decide
  have hlt := b.toNat_lt
  simp only [CityKey.digits, List.mem_cons, List.not_mem_nil, or_false] at hb
  rcases hb with hb | hb | hb
  · exact absurd hb (by decide)
  · exact hall _ (by omega) hb.symm
  · exact hall _ (by omega) hb.symm

/-- The name of a city is stored in full when it has at most ten bytes: three characters, with
three bytes each. -/
theorem stored_city_iff (name r : Bytes) :
    Stored (query name ++ 0 :: r) ↔ name.length ≤ 10 := by
  have hcstr : cstr (percentEncode name ++ 0 :: r) = percentEncode name :=
    cstr_append_nul (nulFree_percentEncode name) r
  have hvalue : cstr (percentEncode name ++ 0 :: r) = valueText (query name ++ 0 :: r) := by
    rcases afterEq_spec (query name ++ 0 :: r) with ⟨t, hafter, ht, -⟩ | ⟨hafter, -⟩
    · rw [← ht, Option.some.inj ((afterEq_query name r).symm.trans hafter)]
    · cases (afterEq_query name r).symm.trans hafter
  rw [stored_some_iff (afterEq_query name r) hvalue, hcstr, length_percentEncode,
    and_iff_right (notMem_percentEncode name)]
  omega

/-- Urumqi, of `city.txt`. -/
def urumqi : Bytes := [0xE4, 0xB9, 0x8C, 0xE9, 0xB2, 0x81, 0xE6, 0x9C, 0xA8, 0xE9, 0xBD, 0x90]

/-- Its 36 characters overrun `str`. -/
theorem not_stored_urumqi :
    (percentEncode urumqi).length = 36 ∧ ¬ ∀ query : Bytes, Stored query :=
  ⟨by decide, fun h => absurd ((stored_city_iff urumqi []).mp (h _)) (by decide)⟩

end WeatherQuery.QueryValue
