import WeatherQuery.LookupModel
import WeatherQuery.Newlines
import WeatherQuery.WeatherPage

/-!
The text of a record on its way to the page.

The crawler puts a `#` behind the name and behind each of the seven days, and `show` turns every
`#` into a line break. What stands between them is text of the site, in which a `#` is as good as
any other byte.
-/

namespace WeatherQuery.InfoText

open WeatherQuery.CText WeatherQuery.SqlText WeatherQuery.CrawlModel WeatherQuery.LookupModel
open WeatherQuery.Newlines WeatherQuery.WeatherPage

abbrev hash : UInt8 := '#'.toUInt8

/-- A day of the record, as it is to be shown. -/
def line (w : Data) (i : ℕ) : Bytes :=
  w.date.getD i [] ++ lit [' '] ++ w.name ++ lit [' '] ++ w.weather.getD i [] ++ lit [' '] ++
    w.lowDegree.getD i [] ++ lit ['~'] ++ w.highDegree.getD i []

/-- The name and the seven days. -/
def lines (w : Data) : List Bytes := w.name :: (List.range 7).map (line w)

/-- `</br>` and a line end. -/
def lineBreak : Bytes := lit ['<', '/', 'b', 'r', '>', '\n']

/-- Split at `#` the text gives back the eight lines and an empty rest, and `show` puts out these
lines. -/
def Survives (w : Data) : Prop :=
  (infoString w).splitOn hash = lines w ++ [[]] ∧
    render (infoString w) = (lines w).flatMap (· ++ lineBreak)

lemma infoString_eq (w : Data) : infoString w = block hash (lines w) := by
  have hdays (is : List ℕ) : is.flatMap (day w) = block hash (is.map (line w)) := by
    rw [block, List.flatMap_map]
    rfl
  rw [infoString, lines, block_cons, hdays]
  simp [lit]

lemma render_block {ls : List Bytes} (h : ∀ l ∈ ls, hash ∉ l) :
    render (block hash ls) = ls.flatMap (· ++ lineBreak) := by
  induction ls with
  | nil => rfl
  | cons l ls ih =>
    obtain ⟨hl, hls⟩ := List.forall_mem_cons.mp h
    have hself : render l = l := by
      have hone : ∀ c ∈ l, (if c = hash then lineBreak else [c]) = [c] :=
        fun c hc => if_neg (ne_of_mem_of_not_mem hc hl)
      calc render l = l.flatMap fun c => [c] := List.flatMap_congr hone
        _ = l := by simp
    have happend : render (l ++ hash :: block hash ls) =
        render l ++ (lineBreak ++ render (block hash ls)) := by
      rw [render, List.flatMap_append, List.flatMap_cons]
      rfl
    rw [block_cons, happend, hself, ih hls, List.flatMap_cons, List.append_assoc]

/-- The text survives when no line has a `#` in it. -/
lemma survives_iff_lines (w : Data) : Survives w ↔ ∀ l ∈ lines w, hash ∉ l := by
  rw [Survives, infoString_eq, splitOn_block_iff]
  exact and_iff_left_of_imp render_block

lemma notMem_line (w : Data) (i : ℕ) :
    hash ∉ line w i ↔ hash ∉ w.date.getD i [] ∧ hash ∉ w.name ∧ hash ∉ w.weather.getD i [] ∧
      hash ∉ w.lowDegree.getD i [] ∧ hash ∉ w.highDegree.getD i [] := by
  have hblank : hash ∉ lit [' '] := by decide
  have htilde : hash ∉ lit ['~'] := by decide
  simp only [line, List.mem_append, hblank, htilde, or_false, not_or]
  tauto

lemma notMem_lines_iff {w : Data} (hdate : w.date.length = 7) (hweather : w.weather.length = 7)
    (hlow : w.lowDegree.length = 7) (hhigh : w.highDegree.length = 7) :
    (∀ l ∈ lines w, hash ∉ l) ↔ ∀ t ∈ w.fields, hash ∉ t := by
  have hfields : (∀ t ∈ w.fields, hash ∉ t) ↔ hash ∉ w.name ∧ (∀ t ∈ w.date, hash ∉ t) ∧
      (∀ t ∈ w.weather, hash ∉ t) ∧ (∀ t ∈ w.lowDegree, hash ∉ t) ∧
        ∀ t ∈ w.highDegree, hash ∉ t := by
    simp only [Data.fields, List.forall_mem_cons, List.forall_mem_append]
    tauto
  rw [hfields, ← forall_getD_iff hdate (hash ∉ ·), ← forall_getD_iff hweather (hash ∉ ·),
    ← forall_getD_iff hlow (hash ∉ ·), ← forall_getD_iff hhigh (hash ∉ ·), lines,
    List.forall_mem_cons, List.forall_mem_map]
  simp only [notMem_line]
  constructor
  · rintro ⟨hname, h⟩
    exact ⟨hname, fun i hi => (h i hi).1, fun i hi => (h i hi).2.2.1,
      fun i hi => (h i hi).2.2.2.1, fun i hi => (h i hi).2.2.2.2⟩
  · rintro ⟨hname, hd, hw, hl, hh⟩
    exact ⟨hname, fun i hi => ⟨hd i hi, hname, hw i hi, hl i hi, hh i hi⟩⟩

/-- **The text.** For every record `Get_weather_info` appends, the text made of it comes apart
into the eight lines it was made of, and is shown as these, exactly when no field of the record
has a `#` in it. -/
theorem survives_iff (page : Bytes) (w : Data) (hw : getWeatherInfo (some page) = .ok w) :
    Survives w ↔ ∀ t ∈ w.fields, hash ∉ t := by
  obtain ⟨ds, hdrawn⟩ := getWeatherInfo_drawn hw
  rw [survives_iff_lines]
  refine notMem_lines_iff ?_ ?_ ?_ ?_
  · rw [hdrawn.date, List.length_map, hdrawn.seven]
  · rw [hdrawn.weather, List.length_map, hdrawn.seven]
  · rw [hdrawn.low, List.length_map, hdrawn.seven]
  · rw [hdrawn.high, List.length_map, hdrawn.seven]

/-! ### Two records -/

/-- A record of seven equal days, as `namedPage` has it. -/
def namedWeek (name : Bytes) : Data where
  date := List.replicate 7 (lit ['6'])
  name := name
  weather := List.replicate 7 (lit ['x'])
  lowDegree := List.replicate 7 (lit ['3'])
  highDegree := List.replicate 7 (lit ['9'])

def namedPage (name : Bytes) : Bytes :=
  currCity ++ selfQuote ++ spanTag ++ name ++ lit ['['] ++
    (List.replicate 7 (dateTag ++ lit ['6', '<'] ++ weatherTag ++ lit ['x', '<'] ++ blueTag ++
      lit ['3', '<'] ++ orangeTag ++ lit ['9', '<'])).flatten

lemma of_toOption {x : Except Stop Data} {w : Data} (h : x.toOption = some w) : x = .ok w := by
  rcases x with e | a
  · cases h
  · rw [Option.some.inj h]

theorem survives_A :
    getWeatherInfo (some (namedPage (lit ['A']))) = .ok (namedWeek (lit ['A'])) ∧
      Survives (namedWeek (lit ['A'])) := by
  have hw : getWeatherInfo (some (namedPage (lit ['A']))) = .ok (namedWeek (lit ['A'])) :=
    of_toOption (by decide +kernel)
  exact ⟨hw, (survives_iff _ _ hw).mpr (by decide)⟩

/-- The name `A&#` comes apart in the middle. -/
theorem not_survives_entity :
    ¬ ∀ page w, getWeatherInfo (some page) = .ok w → Survives w := by
  intro h
  have hw : getWeatherInfo (some (namedPage (lit ['A', '&', '#']))) =
      .ok (namedWeek (lit ['A', '&', '#'])) := of_toOption (by decide +kernel)
  have hlines := (survives_iff_lines _).mp (h _ _ hw)
  exact absurd (hlines (lit ['A', '&', '#']) (by simp [lines, namedWeek])) (by decide)

end WeatherQuery.InfoText
