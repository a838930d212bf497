import WeatherQuery.CrawlModel

/-!
The table a run of the crawler leaves.

The rows are written from two vectors, the keys and the records, and nothing is ever put into
the first: a run that gets to the end leaves the table empty. A run does not get to the end when
a page cannot be fetched. `resp` is then as it was, which is the list page for the first city
and a null pointer for every other one, and the program ends before it touches the table.
-/

namespace WeatherQuery.CrawlStore

open WeatherQuery.CText WeatherQuery.SqlLex WeatherQuery.SqlText WeatherQuery.CrawlModel

/-! ### What is to be stored -/

/-- The rows to be stored: for every city whose page is fetched and has the tags, its key and the
text made of that page. -/
def expected (world : World) (cities : List (Bytes × Bytes)) : List (Bytes × Bytes) :=
  cities.filterMap fun city =>
    (world.fetch city).bind fun page =>
      (getWeatherInfo (some page)).toOption.map fun w => (city.1, infoString w)

/-- After the run the table has these rows and no others, in whatever order. -/
def Faithful (world : World) (cities : CityMap) (table : Table) : Prop :=
  ∃ rows, storeCities world cities table = some (some rows) ∧
    rows.Perm (expected world cities.entries)

/-! ### When it is -/

/-- What `Get_weather_info` is handed, city by city. -/
def handed (world : World) : Option Bytes → List (Bytes × Bytes) → List (Option Bytes)
  | _, [] => []
  | resp, city :: cities => (world.fetch city).or resp :: handed world none cities

/-- A page, no text of which is too long for its buffer. -/
def Readable (resp : Option Bytes) : Prop :=
  resp ≠ none ∧ getWeatherInfo resp ≠ .error .overflow

/-- All that is handed over is readable and no city has a row to store, or the first that is not
readable is a null pointer and the table has its rows already. -/
def Spared (world : World) (cities : CityMap) (table : Table) : Prop :=
  (∀ resp ∈ handed world world.list cities.entries, Readable resp) ∧
      expected world cities.entries = [] ∨
    (∃ u v, handed world world.list cities.entries = u ++ none :: v ∧ ∀ resp ∈ u, Readable resp) ∧
      ∃ rows, table = some rows ∧ rows.Perm (expected world cities.entries)

/-! ### A page -/

section Stops

variable {α β : Type} {e : Stop}

lemma bind_ne_error {x : Except Stop α} {f : α → Except Stop β} (hx : x ≠ .error e)
    (hf : ∀ a, f a ≠ .error e) : x >>= f ≠ .error e := by
  rcases x with e' | a
  · exact fun h => hx (by cases h; rfl)
  · exact hf a

lemma orStop_ne_error {e' : Stop} (h : e' ≠ e) (o : Option α) : orStop e' o ≠ .error e := by
  rcases o with _ | a
  · exact fun heq => h (Except.error.inj heq)
  · exact fun heq => by cases heq

end Stops

lemma readField_ne_segv (tag : Bytes) (clean : Bytes → Bytes) (pos : Bytes) :
    readField tag clean pos ≠ .error .segv := by
  refine bind_ne_error (orStop_ne_error (by simp) _) fun p => ?_
  refine bind_ne_error (orStop_ne_error (by simp) _) fun buf => ?_
  simp

lemma readDays_ne_segv (n : ℕ) (pos : Bytes) (w : Data) : readDays n pos w ≠ .error .segv := by
  induction n generalizing pos w with
  | zero => simp [readDays]
  | succ n ih =>
    refine bind_ne_error (readField_ne_segv _ _ _) fun r => ?_
    refine bind_ne_error (readField_ne_segv _ _ _) fun r => ?_
    refine bind_ne_error (readField_ne_segv _ _ _) fun r => ?_
    exact bind_ne_error (readField_ne_segv _ _ _) fun r => ih _ _

lemma getWeatherInfo_ne_segv (page : Bytes) : getWeatherInfo (some page) ≠ .error .segv := by
  unfold getWeatherInfo
  rw [orStop_some_bind]
  refine bind_ne_error (orStop_ne_error (by simp) _) fun pos => ?_
  refine bind_ne_error (orStop_ne_error (by simp) _) fun pos => ?_
  refine bind_ne_error (orStop_ne_error (by simp) _) fun pos => ?_
  refine bind_ne_error (orStop_ne_error (by simp) _) fun buf => ?_
  exact readDays_ne_segv _ _ _

/-- On a readable page `Get_weather_info` appends a record or finds a tag missing. -/
lemma Readable.returns {resp : Option Bytes} (h : Readable resp) :
    (∃ w, getWeatherInfo resp = .ok w) ∨ ∃ tag, getWeatherInfo resp = .error (.noTag tag) := by
  obtain ⟨hsome, hover⟩ := h
  obtain ⟨page, rfl⟩ := Option.ne_none_iff_exists'.mp hsome
  rcases hinfo : getWeatherInfo (some page) with e | w
  · rcases e with tag | _ | _
    · exact .inr ⟨tag, rfl⟩
    · exact absurd hinfo (getWeatherInfo_ne_segv page)
    · exact absurd hinfo hover
  · exact .inl ⟨w, rfl⟩

/-- Everything else does not return. -/
lemma not_readable {resp : Option Bytes} (h : ¬ Readable resp) :
    resp = none ∧ getWeatherInfo resp = .error .segv ∨
      resp ≠ none ∧ getWeatherInfo resp = .error .overflow := by
  rcases resp with _ | page
  · exact .inl ⟨rfl, rfl⟩
  · refine .inr ⟨by simp, ?_⟩
    by_contra hover
    exact h ⟨by simp, hover⟩

/-! ### The cities -/

section Cities

variable {world : World} {count : ℕ} {resp : Option Bytes} {cities : List (Bytes × Bytes)}

lemma visitCities_step {city : Bytes × Bytes} (hcount : count + 1 ≤ 150)
    (h : Readable ((world.fetch city).or resp)) (cities : List (Bytes × Bytes)) (ws : List Data) :
    ∃ ws', visitCities world count resp (city :: cities) ws =
      visitCities world (count + 1) none cities ws' := by
  have hgo : ¬ 150 < count + 1 := by omega
  rcases h.returns with ⟨w, hw⟩ | ⟨tag, htag⟩
  · refine ⟨ws ++ [w], ?_⟩
    simp only [visitCities, hw, if_neg hgo]
  · refine ⟨ws, ?_⟩
    simp only [visitCities, htag, if_neg hgo]

lemma visitCities_readable (hcount : count + cities.length ≤ 150)
    (h : ∀ r ∈ handed world resp cities, Readable r) (ws : List Data) :
    ∃ ws', visitCities world count resp cities ws = .ok ws' := by
  induction cities generalizing count resp ws with
  | nil => exact ⟨ws, by rw [visitCities]⟩
  | cons city cities ih =>
    rw [List.length_cons] at hcount
    rw [handed, List.forall_mem_cons] at h
    have hlt : count + 1 ≤ 150 := by omega
    obtain ⟨ws', hstep⟩ := visitCities_step hlt h.1 cities ws
    rw [hstep]
    exact ih (by omega) h.2 ws'

/-- What does not return ends the loop. -/
lemma visitCities_stop {u v : List (Option Bytes)} {r : Option Bytes} {e : Stop}
    (hcount : count + cities.length ≤ 150) (h : handed world resp cities = u ++ r :: v)
    (hu : ∀ x ∈ u, Readable x) (hr : getWeatherInfo r = .error e) (he : ∀ tag, e ≠ .noTag tag)
    (ws : List Data) : visitCities world count resp cities ws = .error e := by
  induction cities generalizing count resp ws u with
  | nil => simp [handed] at h
  | cons city cities ih =>
    rw [List.length_cons] at hcount
    rw [handed] at h
    rcases u with _ | ⟨x, u⟩
    · obtain ⟨hhead, -⟩ := List.cons.inj h
      subst hhead
      rcases e with tag | _ | _
      · exact absurd rfl (he tag)
      · simp only [visitCities, hr]
      · simp only [visitCities, hr]
    · obtain ⟨rfl, htail⟩ := List.cons.inj h
      have hlt : count + 1 ≤ 150 := by omega
      have hread : Readable ((world.fetch city).or resp) := hu _ (by simp)
      obtain ⟨ws', hstep⟩ := visitCities_step hlt hread cities ws
      rw [hstep]
      exact ih (by omega) htail (fun y hy => hu y (by simp [hy])) ws'

end Cities

/-- A list is good throughout or has a first element that is not. -/
lemma forall_or_first {α : Type} (p : α → Prop) (l : List α) :
    (∀ x ∈ l, p x) ∨ ∃ u x v, l = u ++ x :: v ∧ (∀ y ∈ u, p y) ∧ ¬ p x := by
  induction l with
  | nil => simp
  | cons a l ih =>
    by_cases ha : p a
    · rcases ih with h | ⟨u, x, v, rfl, hu, hx⟩
      · exact .inl (List.forall_mem_cons.mpr ⟨ha, h⟩)
      · exact .inr ⟨a :: u, x, v, rfl, List.forall_mem_cons.mpr ⟨ha, hu⟩, hx⟩
    · exact .inr ⟨[], a, l, rfl, by simp, ha⟩

lemma first_unique {α : Type} {p : α → Prop} {u u' v v' : List α} {x x' : α}
    (h : u ++ x :: v = u' ++ x' :: v') (hu : ∀ y ∈ u, p y) (hu' : ∀ y ∈ u', p y) (hx : ¬ p x)
    (hx' : ¬ p x') : x = x' := by
  induction u generalizing u' with
  | nil =>
    rcases u' with _ | ⟨a, u'⟩
    · exact (List.cons.inj h).1
    · exact absurd (hu' x (by simp [(List.cons.inj h).1])) hx
  | cons a u ih =>
    rcases u' with _ | ⟨b, u'⟩
    · exact absurd (hu x' (by simp [(List.cons.inj h).1])) hx'
    · exact ih (List.cons.inj h).2 (fun y hy => hu y (by simp [hy]))
        (fun y hy => hu' y (by simp [hy]))

/-- **The table.** For every map of at most 150 cities and every pattern of failures, the run
leaves exactly the rows of the cities that were fetched and parsed, if and only if it was spared
the defects: no city had a row to store, or the run ended at a null pointer and left a table
that had the rows already. -/
theorem stored_iff_spared (world : World) (cities : CityMap)
    (hsize : cities.entries.length ≤ 150) (table : Table) :
    Faithful world cities table ↔ Spared world cities table := by
  have hcount : 0 + cities.entries.length ≤ 150 := by omega
  unfold Faithful Spared storeCities
  rcases forall_or_first Readable (handed world world.list cities.entries) with
    hall | ⟨u, r, v, hsplit, hu, hr⟩
  · obtain ⟨ws, hws⟩ := visitCities_readable hcount hall []
    have hnone : ¬ ∃ u v, handed world world.list cities.entries = u ++ none :: v ∧
        ∀ resp ∈ u, Readable resp := by
      rintro ⟨u, v, h, -⟩
      exact (hall none (by rw [h]; simp)).1 rfl
    simp only [hws, insertRows, Option.map_some, Option.some.injEq, exists_eq_left']
    rw [List.nil_perm]
    constructor
    · intro h
      exact .inl ⟨hall, h⟩
    · rintro (⟨-, h⟩ | ⟨h, -⟩)
      · exact h
      · exact absurd h hnone
  · have hnot : ¬ ∀ resp ∈ handed world world.list cities.entries, Readable resp :=
      fun hall => hr (hall r (by rw [hsplit]; simp))
    rcases not_readable hr with ⟨rfl, hinfo⟩ | ⟨hsome, hinfo⟩
    · rw [visitCities_stop hcount hsplit hu hinfo (by simp) []]
      simp only [Option.some.injEq]
      constructor
      · intro h
        exact .inr ⟨⟨u, v, hsplit, hu⟩, h⟩
      · rintro (⟨hall, -⟩ | ⟨-, h⟩)
        · exact absurd hall hnot
        · exact h
    · rw [visitCities_stop hcount hsplit hu hinfo (by simp) []]
      refine iff_of_false (by simp) ?_
      rintro (⟨hall, -⟩ | ⟨⟨u', v', hsplit', hu'⟩, -⟩)
      · exact hnot hall
      · exact hsome (first_unique (hsplit.symm.trans hsplit') hu hu' hr fun h => h.1 rfl)

/-! ### Runs -/

def oneCity : CityMap := ⟨[(lit ['A'], lit ['/', 'a'])], List.pairwise_singleton _ _⟩

/-- A site that has the given page for every city, and a database that stores the two literals of
an `insert`. -/
def site (page : Bytes) : World where
  list := some []
  fetch _ := some page
  insert rows text :=
    match lex none text with
    | some [_, .str key, _, .str info, _] => rows ++ [(key, info)]
    | _ => rows

/-- A page with everything on it. -/
def weekPage : Bytes :=
  currCity ++ selfQuote ++ spanTag ++ lit ['A', '['] ++
    (List.replicate 7 (dateTag ++ lit ['1', '<'] ++ weatherTag ++ lit ['x', '<'] ++ blueTag ++
      lit ['3', '<'] ++ orangeTag ++ lit ['9', '<'])).flatten

/-- A page that ends in the first day. -/
def cutPage : Bytes :=
  currCity ++ selfQuote ++ spanTag ++ lit ['B', '['] ++ dateTag ++ lit ['1', '<'] ++
    weatherTag ++ lit ['x', '<'] ++ blueTag ++ lit ['3', '<']

def cityA : Bytes × Bytes := (lit ['A'], lit ['/', 'a'])
def cityB : Bytes × Bytes := (lit ['B'], lit ['/', 'b'])
def cityC : Bytes × Bytes := (lit ['C'], lit ['/', 'c'])

def threeCities : CityMap := (oneCity.insert cityC).insert cityB

/-- A site whose first city has a week, whose second has a page that breaks off, and whose third
cannot be fetched. -/
def thirdFails : World :=
  { site [] with
    fetch := fun city =>
      if city = cityA then some weekPage else if city = cityB then some cutPage else none }

lemma cutPage_noTag : getWeatherInfo (some cutPage) = .error (.noTag orangeTag) := by decide +kernel

/-- Two runs over three cities. The one whose third city cannot be fetched ends at the null pointer
and leaves the row of the first that was there before; the one that finds a tag missing on every
page comes to its end and leaves an empty table of the old one. -/
theorem stored_iff_spared_threeCities :
    threeCities.entries.length ≤ 150 ∧
      (∃ w, getWeatherInfo (some weekPage) = .ok w ∧
        Faithful thirdFails threeCities (some [(lit ['A'], infoString w)])) ∧
      Faithful (site cutPage) threeCities (some [(lit ['A'], lit ['x'])]) := by
  have hentries : threeCities.entries = [cityA, cityB, cityC] := by decide
  have hsize : threeCities.entries.length ≤ 150 := by rw [hentries]; decide
  have hparsed : (getWeatherInfo (some weekPage)).toOption.isSome = true := by decide +kernel
  rcases hinfo : getWeatherInfo (some weekPage) with e | w
  · simp [hinfo, Except.toOption] at hparsed
  have hcut : Readable (some cutPage) := ⟨by simp, by simp [cutPage_noTag]⟩
  have hA : thirdFails.fetch cityA = some weekPage := rfl
  have hB : thirdFails.fetch cityB = some cutPage := rfl
  have hC : thirdFails.fetch cityC = none := rfl
  refine ⟨hsize, ⟨w, rfl, ?_⟩, ?_⟩
  · refine (stored_iff_spared thirdFails threeCities hsize _).mpr (.inr ⟨?_, _, rfl, ?_⟩)
    · refine ⟨[some weekPage, some cutPage], [], ?_, ?_⟩
      · simp [hentries, handed, hA, hB, hC]
      · simp only [List.forall_mem_cons]
        exact ⟨⟨by simp, by simp [hinfo]⟩, hcut, by simp⟩
    · have hrows : expected thirdFails threeCities.entries = [(cityA.1, infoString w)] := by
        simp [expected, hentries, hA, hB, hC, hinfo, cutPage_noTag, Except.toOption]
      rw [hrows]
      exact .rfl
  · refine (stored_iff_spared (site cutPage) threeCities hsize _).mpr (.inl ⟨?_, ?_⟩)
    · intro resp hresp
      obtain rfl : resp = some cutPage := by simpa [hentries, handed, site] using hresp
      exact hcut
    · simp [expected, hentries, site, cutPage_noTag, Except.toOption]

/-- The page is fetched and parsed, and the table is left empty. -/
theorem not_faithful_weekPage :
    ¬ ∀ (world : World) (cities : CityMap) (table : Table), cities.entries.length ≤ 150 →
      Faithful world cities table := by
  intro h
  have hparsed : (getWeatherInfo (some weekPage)).toOption.isSome = true := by decide +kernel
  obtain ⟨rows, hrows, hperm⟩ := h (site weekPage) oneCity none (by decide)
  rcases hinfo : getWeatherInfo (some weekPage) with e | w
  · simp [hinfo, Except.toOption] at hparsed
  have hstore : storeCities (site weekPage) oneCity none = some (some []) := by
    simp [storeCities, visitCities, oneCity, site, hinfo, insertRows]
  have hexpected : expected (site weekPage) oneCity.entries = [(lit ['A'], infoString w)] := by
    simp [expected, oneCity, site, hinfo, Except.toOption]
  rw [hstore] at hrows
  obtain rfl : [] = rows := by simpa using hrows
  rw [hexpected] at hperm
  simpa using hperm.length_eq

end WeatherQuery.CrawlStore
