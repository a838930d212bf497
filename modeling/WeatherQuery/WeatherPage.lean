import WeatherQuery.CrawlStore
import WeatherQuery.FieldFilters
import WeatherQuery.TagOrder

/-!
The page of a city, as `Get_weather_info` reads it.

There are 31 searches, one behind the other. When one of them fails the function returns before
it appends anything, and when all succeed the record has a text from every one of the seven days,
in the order of the page.
-/

namespace WeatherQuery.WeatherPage

open WeatherQuery.CText WeatherQuery.SqlText WeatherQuery.TagScan WeatherQuery.TagOrder
open WeatherQuery.CrawlModel WeatherQuery.FieldFilters

/-- `Get_weather_info`: `weather_data` after the call. -/
def callWeatherInfo (resp : Option Bytes) (weatherData : List Data) : Except Stop (List Data) :=
  match getWeatherInfo resp with
  | .ok w => .ok (weatherData ++ [w])
  | .error (.noTag _) => .ok weatherData
  | .error e => .error e

/-! ### The tags and the texts behind them -/

def weekTags (n : ℕ) : List Bytes :=
  (List.replicate n [dateTag, weatherTag, blueTag, orangeTag]).flatten

def pageTags : List Bytes := currCity :: selfQuote :: spanTag :: weekTags 7

/-- The page from behind `<span>` on. -/
def behindSpan (page : Bytes) : Option Bytes :=
  (strstr currCity (cstr page)).bind fun pos =>
    (strstr selfQuote pos).bind fun pos => (strstr spanTag pos).map (·.drop spanTag.length)

/-- The texts up to `<` that are read behind the tags, as far as these are found. -/
def runsFrom : List Bytes → Bytes → List Bytes
  | [], _ => []
  | tag :: tags, pos =>
    match strstr tag pos with
    | none => []
    | some p => upTo '<'.toUInt8 (p.drop tag.length) :: runsFrom tags (p.drop tag.length)

/-- All texts that `Get_weather_info` reads into a buffer. -/
def runs (page : Bytes) : List Bytes :=
  match behindSpan page with
  | none => []
  | some pos => upTo '['.toUInt8 pos :: runsFrom (weekTags 7) pos

/-- Where the four tags of a day stand. -/
structure Day where
  date : ℕ
  weather : ℕ
  low : ℕ
  high : ℕ

def Day.places (d : Day) : List ℕ := [d.date, d.weather, d.low, d.high]

def Day.Occurs (d : Day) (page : Bytes) : Prop :=
  OccursAt dateTag page d.date ∧ OccursAt weatherTag page d.weather ∧
    OccursAt blueTag page d.low ∧ OccursAt orangeTag page d.high

/-- The text behind a tag at this place. -/
def textAt (tag page : Bytes) (p : ℕ) : Bytes := upTo '<'.toUInt8 (page.drop (p + tag.length))

/-- What `deleSpace` leaves of a text. -/
def tidy (t : Bytes) : Bytes := (without isBlank t).take 30

/-- The record is made of the texts of seven days of the page, one after the other. -/
structure Drawn (page : Bytes) (ds : List Day) (w : Data) : Prop where
  seven : ds.length = 7
  increasing : (ds.flatMap Day.places).Pairwise (· < ·)
  occurs : ∀ d ∈ ds, d.Occurs page
  date : w.date = ds.map fun d => tidy (textAt dateTag page d.date)
  weather : w.weather = ds.map fun d => without isMark (tidy (textAt weatherTag page d.weather))
  low : w.lowDegree = ds.map fun d => tidy (textAt blueTag page d.low)
  high : w.highDegree = ds.map fun d => tidy (textAt orangeTag page d.high)

/-! ### One field -/

/-- A text in the buffer it is read into. -/
def inField (t : Bytes) : Bytes := t ++ 0 :: List.replicate (100 - (t.length + 1)) 0

section Field

variable {t : Bytes} (ht : t.length < 100) (hn : NulFree t)
include ht hn

lemma cstr_tidy : cstr (deleSpace (inField t)) = tidy t := by
  have hsqueeze : cstr (squeeze isBlank (fieldOf t ht).buf) = _ :=
    cstr_squeeze (by decide) (fieldOf t ht).toCString
  rwa [cstr_fieldOf ht hn] at hsqueeze

lemma cstr_tidyWeather :
    cstr (deleSpaceforweather (deleSpace (inField t))) = without isMark (tidy t) := by
  have hsqueeze := cstr_weather (fieldOf t ht)
  rwa [cstr_fieldOf ht hn] at hsqueeze

end Field

lemma readField_none {tag pos : Bytes} (h : strstr tag pos = none) (clean : Bytes → Bytes) :
    readField tag clean pos = .error (.noTag tag) := by
  unfold readField findTag
  rw [h, orStop_none_bind]

lemma readField_some {tag pos p : Bytes} (h : strstr tag pos = some p)
    (hlen : (upTo '<'.toUInt8 (p.drop tag.length)).length < 100) (clean : Bytes → Bytes) :
    readField tag clean pos =
      .ok (p.drop tag.length, cstr (clean (inField (upTo '<'.toUInt8 (p.drop tag.length))))) := by
  unfold readField findTag
  rw [h, orStop_some_bind]
  dsimp only
  rw [scanTo_zeros hlen, orStop_some_bind, inField]

lemma readField_long {tag pos p : Bytes} (h : strstr tag pos = some p)
    (hlen : 100 ≤ (upTo '<'.toUInt8 (p.drop tag.length)).length) (clean : Bytes → Bytes) :
    readField tag clean pos = .error .overflow := by
  unfold readField findTag
  rw [h, orStop_some_bind]
  dsimp only
  rw [scanTo_zeros_none (by decide) hlen, orStop_none_bind]

/-- A field that was read: where its tag stands. -/
lemma readField_ok {tag page : Bytes} {clean : Bytes → Bytes} {i : ℕ} {r : Bytes × Bytes}
    (h : readField tag clean (page.drop i) = .ok r) :
    ∃ j, i ≤ j ∧ OccursAt tag page j ∧ (textAt tag page j).length < 100 ∧
      r = (page.drop (j + tag.length), cstr (clean (inField (textAt tag page j)))) := by
  rcases hp : strstr tag (page.drop i) with _ | p
  · rw [readField_none hp] at h
    cases h
  obtain ⟨j, hij, hoccurs, rfl⟩ := strstr_drop hp
  have htext : upTo '<'.toUInt8 ((page.drop j).drop tag.length) = textAt tag page j := by
    rw [textAt, List.drop_drop]
  rcases Nat.lt_or_ge (textAt tag page j).length 100 with hlt | hge
  · rw [readField_some hp (by rwa [htext]), htext, List.drop_drop] at h
    exact ⟨j, hij, hoccurs, hlt, (Except.ok.inj h).symm⟩
  · rw [readField_long hp (by rwa [htext])] at h
    cases h

/-! ### All of the fields -/

/-- The fields were read if the tags are there, else a tag is missing. -/
def Outcome {α : Type} (tags : List Bytes) (pos : Bytes) (x : Except Stop α) : Prop :=
  InOrder tags pos ∧ (∃ a, x = .ok a) ∨ ¬ InOrder tags pos ∧ ∃ tag, x = .error (.noTag tag)

lemma outcome_field {α : Type} {tag : Bytes} {tags : List Bytes} {pos : Bytes}
    (clean : Bytes → Bytes) {f : Bytes × Bytes → Except Stop α}
    (hruns : ∀ r ∈ runsFrom (tag :: tags) pos, r.length < 100)
    (hf : ∀ p t, (∀ r ∈ runsFrom tags p, r.length < 100) → Outcome tags p (f (p, t))) :
    Outcome (tag :: tags) pos (readField tag clean pos >>= f) := by
  rw [runsFrom] at hruns
  unfold Outcome
  rw [inOrder_cons_iff]
  rcases hp : strstr tag pos with _ | p
  · right
    rw [readField_none hp]
    exact ⟨by simp, tag, rfl⟩
  · simp only [hp, List.forall_mem_cons] at hruns
    have hfound : (∃ r, some p = some r ∧ InOrder tags (r.drop tag.length)) ↔
        InOrder tags (p.drop tag.length) := by simp
    rw [readField_some hp hruns.1, hfound]
    exact hf _ _ hruns.2

lemma outcome_readDays (n : ℕ) {pos : Bytes} (w : Data)
    (hruns : ∀ r ∈ runsFrom (weekTags n) pos, r.length < 100) :
    Outcome (weekTags n) pos (readDays n pos w) := by
  induction n generalizing pos w with
  | zero => exact .inl ⟨trivial, w, rfl⟩
  | succ n ih =>
    have htags : weekTags (n + 1) =
        dateTag :: weatherTag :: blueTag :: orangeTag :: weekTags n := rfl
    rw [htags] at hruns ⊢
    unfold readDays
    refine outcome_field _ hruns fun pos date hruns => ?_
    refine outcome_field _ hruns fun pos weath hruns => ?_
    refine outcome_field _ hruns fun pos low hruns => ?_
    exact outcome_field _ hruns fun pos high hruns => ih _ hruns

/-- The record after some more days. -/
def withDays (page : Bytes) (w : Data) (ds : List Day) : Data where
  date := w.date ++ ds.map fun d => tidy (textAt dateTag page d.date)
  name := w.name
  weather := w.weather ++ ds.map fun d => without isMark (tidy (textAt weatherTag page d.weather))
  lowDegree := w.lowDegree ++ ds.map fun d => tidy (textAt blueTag page d.low)
  highDegree := w.highDegree ++ ds.map fun d => tidy (textAt orangeTag page d.high)

/-- **The loop.** What it has read came from places one behind the other. -/
lemma readDays_drawn {page : Bytes} (hpage : NulFree page) {n i : ℕ} {w w' : Data}
    (h : readDays n (page.drop i) w = .ok w') :
    ∃ ds : List Day, ds.length = n ∧ (ds.flatMap Day.places).Pairwise (· < ·) ∧
      (∀ p ∈ ds.flatMap Day.places, i ≤ p) ∧ (∀ d ∈ ds, d.Occurs page) ∧
      w' = withDays page w ds := by
  have hfree (tag : Bytes) (p : ℕ) : NulFree (textAt tag page p) :=
    nulFree_upTo (nulFree_suffix hpage (List.drop_suffix _ _)) _
  induction n generalizing i w with
  | zero =>
    obtain rfl : w = w' := Except.ok.inj h
    exact ⟨[], rfl, .nil, by simp, by simp, by simp [withDays]⟩
  | succ n ih =>
    unfold readDays at h
    obtain ⟨_, hdate, h⟩ := bind_ok h
    obtain ⟨j₁, hj₁, hoccurs₁, hlen₁, rfl⟩ := readField_ok hdate
    obtain ⟨_, hweather, h⟩ := bind_ok h
    obtain ⟨j₂, hj₂, hoccurs₂, hlen₂, rfl⟩ := readField_ok hweather
    obtain ⟨_, hlow, h⟩ := bind_ok h
    obtain ⟨j₃, hj₃, hoccurs₃, hlen₃, rfl⟩ := readField_ok hlow
    obtain ⟨_, hhigh, h⟩ := bind_ok h
    obtain ⟨j₄, hj₄, hoccurs₄, hlen₄, rfl⟩ := readField_ok hhigh
    obtain ⟨ds, hcount, hincreasing, hbehind, hoccurs, rfl⟩ := ih h
    have hdateTag : 0 < dateTag.length := by decide
    have hweatherTag : 0 < weatherTag.length := by decide
    have hblueTag : 0 < blueTag.length := by decide
    have horangeTag : 0 < orangeTag.length := by decide
    refine ⟨⟨j₁, j₂, j₃, j₄⟩ :: ds, by rw [List.length_cons, hcount], ?_, ?_, ?_, ?_⟩
    · rw [List.flatMap_cons, List.pairwise_append]
      refine ⟨?_, hincreasing, fun p hp q hq => ?_⟩
      · simp only [Day.places, List.pairwise_cons, List.mem_cons, List.not_mem_nil, or_false,
          forall_eq_or_imp, forall_eq]
        simp
        omega
      · have hq := hbehind q hq
        simp only [Day.places, List.mem_cons, List.not_mem_nil, or_false] at hp
        omega
    · intro p hp
      rw [List.flatMap_cons, List.mem_append] at hp
      rcases hp with hp | hp
      · simp only [Day.places, List.mem_cons, List.not_mem_nil, or_false] at hp
        omega
      · have := hbehind p hp
        omega
    · exact List.forall_mem_cons.mpr ⟨⟨hoccurs₁, hoccurs₂, hoccurs₃, hoccurs₄⟩, hoccurs⟩
    · simp only [withDays, cstr_tidy hlen₁ (hfree _ _), cstr_tidyWeather hlen₂ (hfree _ _),
        cstr_tidy hlen₃ (hfree _ _), cstr_tidy hlen₄ (hfree _ _), List.append_assoc,
        List.singleton_append, List.map_cons]

/-! ### The page -/

lemma inOrder_pageTags_iff (page : Bytes) :
    InOrder pageTags (cstr page) ↔
      ∃ pos, behindSpan page = some pos ∧ InOrder (weekTags 7) pos := by
  have hself : selfQuote = '_'.toUInt8 :: selfQuote.tail := rfl
  have hspan : spanTag = '<'.toUInt8 :: spanTag.tail := rfl
  have hcity : '_'.toUInt8 ∉ currCity := by decide
  have hquote : '<'.toUInt8 ∉ selfQuote := by decide
  rw [pageTags, hself, inOrder_skip hcity, ← hself]
  simp only [behindSpan, Option.bind_eq_some_iff, Option.map_eq_some_iff]
  constructor
  · rintro ⟨p, hp, hrest⟩
    rw [hspan, inOrder_skip hquote, ← hspan] at hrest
    obtain ⟨q, hq, hrest⟩ := hrest
    obtain ⟨r, hr, hrest⟩ := (inOrder_cons_iff _ _ _).mp hrest
    exact ⟨_, ⟨p, hp, q, hq, r, hr, rfl⟩, hrest⟩
  · rintro ⟨_, ⟨p, hp, q, hq, r, hr, rfl⟩, hrest⟩
    refine ⟨p, hp, ?_⟩
    rw [hspan, inOrder_skip hquote, ← hspan]
    exact ⟨q, hq, (inOrder_cons_iff _ _ _).mpr ⟨r, hr, hrest⟩⟩

lemma behindSpan_suffix {page pos : Bytes} (h : behindSpan page = some pos) :
    pos <:+ cstr page := by
  obtain ⟨p, hp, h⟩ := Option.bind_eq_some_iff.mp h
  obtain ⟨q, hq, h⟩ := Option.bind_eq_some_iff.mp h
  obtain ⟨r, hr, rfl⟩ := Option.map_eq_some_iff.mp h
  exact (List.drop_suffix _ _).trans
    ((strstr_suffix hr).trans ((strstr_suffix hq).trans (strstr_suffix hp)))

/-- What comes after the three searches for the name. -/
def readWeek (pos : Bytes) : Except Stop Data := do
  let cityName ← orStop .overflow (scanTo '['.toUInt8 pos (List.replicate 100 0))
  readDays 7 pos ⟨[], cstr (parseforcityname cityName), [], [], []⟩

lemma getWeatherInfo_none {page : Bytes} (h : behindSpan page = none) :
    ∃ tag, getWeatherInfo (some page) = .error (.noTag tag) := by
  unfold behindSpan at h
  unfold getWeatherInfo findTag
  rw [orStop_some_bind]
  rcases hp : strstr currCity (cstr page) with _ | p
  · exact ⟨currCity, by rw [orStop_none_bind]⟩
  rcases hq : strstr selfQuote p with _ | q
  · exact ⟨selfQuote, by rw [orStop_some_bind, hq, orStop_none_bind]⟩
  rcases hr : strstr spanTag q with _ | r
  · exact ⟨spanTag, by rw [orStop_some_bind, hq, orStop_some_bind, hr, orStop_none_bind]⟩
  · simp [hp, hq, hr] at h

lemma getWeatherInfo_some {page pos : Bytes} (h : behindSpan page = some pos) :
    getWeatherInfo (some page) = readWeek pos := by
  obtain ⟨p, hp, h⟩ := Option.bind_eq_some_iff.mp h
  obtain ⟨q, hq, h⟩ := Option.bind_eq_some_iff.mp h
  obtain ⟨r, hr, rfl⟩ := Option.map_eq_some_iff.mp h
  unfold getWeatherInfo findTag
  rw [orStop_some_bind, hp, orStop_some_bind, hq, orStop_some_bind, hr, orStop_some_bind]
  rfl

/-- With room for every text, the call reads the record if the tags are there, else a tag is
missing. -/
lemma outcome_page {page : Bytes} (hruns : ∀ r ∈ runs page, r.length < 100) :
    Outcome pageTags (cstr page) (getWeatherInfo (some page)) := by
  unfold Outcome
  rw [inOrder_pageTags_iff]
  unfold runs at hruns
  rcases hpos : behindSpan page with _ | pos
  · obtain ⟨tag, htag⟩ := getWeatherInfo_none hpos
    exact .inr ⟨by simp, tag, htag⟩
  · simp only [hpos, List.forall_mem_cons] at hruns
    have hfound : (∃ r, some pos = some r ∧ InOrder (weekTags 7) r) ↔
        InOrder (weekTags 7) pos := by simp
    rw [getWeatherInfo_some hpos, hfound, readWeek, scanTo_zeros hruns.1, orStop_some_bind]
    exact outcome_readDays 7 _ hruns.2

/-- Whatever was read was drawn from the page. -/
lemma getWeatherInfo_drawn {page : Bytes} {w : Data} (h : getWeatherInfo (some page) = .ok w) :
    ∃ ds, Drawn (cstr page) ds w := by
  rcases hpos : behindSpan page with _ | pos
  · obtain ⟨tag, htag⟩ := getWeatherInfo_none hpos
    rw [htag] at h
    cases h
  · rw [getWeatherInfo_some hpos] at h
    obtain ⟨cityName, -, h⟩ := bind_ok h
    obtain ⟨u, hu⟩ := behindSpan_suffix hpos
    have hdrop : pos = (cstr page).drop u.length := by rw [← hu, List.drop_left]
    rw [hdrop] at h
    obtain ⟨ds, hcount, hincreasing, -, hoccurs, rfl⟩ := readDays_drawn (nulFree_cstr page) h
    exact ⟨ds, hcount, hincreasing, hoccurs, rfl, rfl, rfl, rfl⟩

/-- **All or nothing.** On a page none of whose texts is too long for its buffer, a record is
appended exactly when the tags stand on it in order and without overlap, and else nothing is. The
record has seven texts of each kind, taken from places one behind the other. -/
theorem record_iff (page : Bytes) (hruns : ∀ r ∈ runs page, r.length < 100)
    (weatherData : List Data) :
    ((∃ w, callWeatherInfo (some page) weatherData = .ok (weatherData ++ [w])) ↔
        InOrder pageTags (cstr page)) ∧
      (¬ InOrder pageTags (cstr page) →
        callWeatherInfo (some page) weatherData = .ok weatherData) ∧
      ∀ w, callWeatherInfo (some page) weatherData = .ok (weatherData ++ [w]) →
        ∃ ds, Drawn (cstr page) ds w := by
  rcases outcome_page hruns with ⟨hin, w, hw⟩ | ⟨hnot, tag, htag⟩
  · have hcall : callWeatherInfo (some page) weatherData = .ok (weatherData ++ [w]) := by
      simp only [callWeatherInfo, hw]
    refine ⟨iff_of_true ⟨w, hcall⟩ hin, fun hnot => absurd hin hnot, fun w' hw' => ?_⟩
    rw [hcall] at hw'
    obtain rfl : w = w' := by simpa using Except.ok.inj hw'
    exact getWeatherInfo_drawn hw
  · have hcall : callWeatherInfo (some page) weatherData = .ok weatherData := by
      simp only [callWeatherInfo, htag]
    have hnone (w : Data) :
        callWeatherInfo (some page) weatherData ≠ .ok (weatherData ++ [w]) := by
      rw [hcall]
      intro h
      exact absurd (congrArg List.length (Except.ok.inj h)) (by simp)
    exact ⟨iff_of_false (fun ⟨w, hw⟩ => hnone w hw) hnot, fun _ => hcall,
      fun w hw => absurd hw (hnone w)⟩

/-- A page with everything on it: one record is appended. -/
theorem record_iff_weekPage :
    (∀ r ∈ runs CrawlStore.weekPage, r.length < 100) ∧
      ∃ w, callWeatherInfo (some CrawlStore.weekPage) [] = .ok [w] := by
  have hruns : ∀ r ∈ runs CrawlStore.weekPage, r.length < 100 := by decide +kernel
  exact ⟨hruns, (record_iff CrawlStore.weekPage hruns []).1.mpr (by decide +kernel)⟩

end WeatherQuery.WeatherPage
