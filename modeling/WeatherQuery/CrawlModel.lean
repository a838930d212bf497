import WeatherQuery.KeyModel
import WeatherQuery.SqlText
import WeatherQuery.TagScan

/-!
The crawler, `weather.cpp`: the list of cities, the page of each of them, and the table made of
them.

What the network and the database answer comes in from outside: a page, or nothing where
`GetHttpResponse` fails, and what the server makes of an `insert`.
-/

namespace WeatherQuery.CrawlModel

open WeatherQuery.CText WeatherQuery.KeyModel WeatherQuery.SqlText WeatherQuery.TagScan

/-- What keeps a function from going on. -/
inductive Stop
  /-- It returns, because the page does not have the tag. -/
  | noTag (tag : Bytes)
  /-- It reads through a null pointer. -/
  | segv
  /-- It writes past the end of a buffer, after which nothing is defined. -/
  | overflow
  deriving DecidableEq

def orStop {α : Type} (e : Stop) : Option α → Except Stop α
  | some a => .ok a
  | none => .error e

section Bind

variable {α β : Type}

@[simp] lemma orStop_some_bind (e : Stop) (a : α) (f : α → Except Stop β) :
    orStop e (some a) >>= f = f a := rfl

@[simp] lemma orStop_none_bind (e : Stop) (f : α → Except Stop β) :
    orStop e none >>= f = .error e := rfl

lemma bind_ok {x : Except Stop α} {f : α → Except Stop β} {b : β} (h : x >>= f = .ok b) :
    ∃ a, x = .ok a ∧ f a = .ok b := by
  rcases x with e | a
  · cases h
  · exact ⟨a, rfl, h⟩

end Bind

/-! ### The list of cities -/

def inlandCity : Bytes := lit ['i', 'n', 'l', 'a', 'n', 'd', 'C', 'i', 't', 'y']
def hrefTag : Bytes := lit ['h', 'r', 'e', 'f', '=', '"']
def selfTag : Bytes := lit ['s', 'e', 'l', 'f', '"', '>']

/-- A turn of the loop of `find_resource`: `pos`, `cityname` and `url` after it. A tag that is
missing is only reported, and the pointer made from `NULL` is read. -/
def visitAnchor (pos cityname : Bytes) : Except Stop (Bytes × Bytes × Bytes) := do
  let pos ← orStop .segv (strstr hrefTag pos)
  let pos := pos.drop hrefTag.length
  let url ← orStop .overflow (scanTo '"'.toUInt8 pos (List.replicate 200 0))
  let pos ← orStop .segv (strstr selfTag pos)
  let pos := pos.drop selfTag.length
  let cityName ← orStop .overflow (scanTo '<'.toUInt8 pos (List.replicate 50 0))
  -- `UncodeTostr` has a row for each of twenty bytes
  if 20 < strlen cityName then .error .overflow
  else .ok (pos, uncodeTostr cityName cityname, url)

/-- The loop of `find_resource`, for the turns `count` leaves: what it inserts into
`city_name_url`, in this order, and what keeps it from going on. `url` and `city_name` are
cleared in every turn, `cityname` never is. -/
def findLoop : ℕ → Bytes → Bytes → List (Bytes × Bytes) × Option Stop
  | 0, _, _ => ([], none)
  | n + 1, pos, cityname =>
    match visitAnchor pos cityname with
    | .error e => ([], some e)
    | .ok (pos, cityname, url) =>
      ((cstr cityname, cstr url) :: (findLoop n pos cityname).1, (findLoop n pos cityname).2)

def findResource (resp : Option Bytes) : List (Bytes × Bytes) × Option Stop :=
  match resp with
  | none => ([], some .segv)
  | some resp =>
    match strstr inlandCity (cstr resp) with
    | none => ([], none)
    | some pos => findLoop 2564 pos (List.replicate 50 0)

/-- `map<string,string>`: the entries in the order of their keys. -/
structure CityMap where
  entries : List (Bytes × Bytes)
  sorted : entries.Pairwise fun a b => a.1 < b.1

/-- `insert`, which leaves an entry alone whose key is there. -/
def insertEntry (a : Bytes × Bytes) : List (Bytes × Bytes) → List (Bytes × Bytes)
  | [] => [a]
  | b :: l =>
    if a.1 < b.1 then a :: b :: l
    else if b.1 < a.1 then b :: insertEntry a l
    else b :: l

lemma mem_insertEntry {a c : Bytes × Bytes} {l : List (Bytes × Bytes)}
    (h : c ∈ insertEntry a l) : c = a ∨ c ∈ l := by
  induction l with
  | nil => simpa [insertEntry] using h
  | cons b l ih =>
    rw [insertEntry] at h
    split_ifs at h
    · simpa using h
    · rcases List.mem_cons.mp h with rfl | h
      · simp
      · rcases ih h with h | h <;> simp [h]
    · exact .inr h

lemma sorted_insertEntry (a : Bytes × Bytes) {l : List (Bytes × Bytes)}
    (h : l.Pairwise fun a b => a.1 < b.1) : (insertEntry a l).Pairwise fun a b => a.1 < b.1 := by
  induction l with
  | nil => simp [insertEntry]
  | cons b l ih =>
    have hb := List.pairwise_cons.mp h
    rw [insertEntry]
    split_ifs with hab hba
    · refine List.pairwise_cons.mpr ⟨fun c hc => ?_, h⟩
      rcases List.mem_cons.mp hc with rfl | hc
      · exact hab
      · exact List.lt_trans hab (hb.1 c hc)
    · refine List.pairwise_cons.mpr ⟨fun c hc => ?_, ih hb.2⟩
      rcases mem_insertEntry hc with rfl | hc
      · exact hba
      · exact hb.1 c hc
    · exact h

def CityMap.insert (m : CityMap) (a : Bytes × Bytes) : CityMap :=
  ⟨insertEntry a m.entries, sorted_insertEntry a m.sorted⟩

/-! ### The page of a city -/

def currCity : Bytes := lit ['c', 'u', 'r', 'r', 'C', 'i', 't', 'y']
def selfQuote : Bytes := lit ['_', 's', 'e', 'l', 'f', '"']
def spanTag : Bytes := lit ['<', 's', 'p', 'a', 'n', '>']
def dateTag : Bytes := lit ['d', 'a', 't', 'e', '"', '>']
def weatherTag : Bytes := lit ['w', 'e', 'a', 't', 'h', 'e', 'r', '1', '"', '>']
def blueTag : Bytes := lit ['b', 'l', 'u', 'e', '"', '>']
def orangeTag : Bytes := lit ['o', 'r', 'a', 'n', 'g', 'e', '"', '>']

/-- `deleSpace` and `deleSpaceforweather` up to their last line: the string less the bytes that
`drop` names, in place. The bound is read again before every turn. -/
def filterInPlace (drop : UInt8 → Bool) (buf : Bytes) : Bytes :=
  (forLoop (fun i (st : ℕ × Bytes) => i < strlen st.2 + 1)
    (fun i st => if drop (st.2.getD i 0) then st else put st (st.2.getD i 0))
    (buf.length + 1) 0 (0, buf)).2

def deleSpace (buf : Bytes) : Bytes :=
  (filterInPlace (fun c => c = 9 || c = 32 || c = 20 || c = 10 || c = 13) buf).set 30 0

def deleSpaceforweather (buf : Bytes) : Bytes :=
  (filterInPlace (fun c => c = 48 || c = 49 || c = 50) buf).set 30 0

/-- `Parseforcityname`: the string is cut at its first `7`. -/
def parseforcityname : Bytes → Bytes
  | [] => []
  | c :: buf =>
    if c = 0 then c :: buf
    else if c = '7'.toUInt8 then 0 :: buf
    else c :: parseforcityname buf

def findTag (tag pos : Bytes) : Except Stop Bytes := orStop (.noTag tag) (strstr tag pos)

/-- `pos = strstr(pos,tag)`, `pos += strlen(tag)`, `sscanf` up to `<` into a new
`char buf[100]`, and `clean(buf)`. -/
def readField (tag : Bytes) (clean : Bytes → Bytes) (pos : Bytes) :
    Except Stop (Bytes × Bytes) := do
  let pos ← findTag tag pos
  let pos := pos.drop tag.length
  let buf ← orStop .overflow (scanTo '<'.toUInt8 pos (List.replicate 100 0))
  .ok (pos, cstr (clean buf))

/-- The loop of `Get_weather_info`, for `n` days. -/
def readDays : ℕ → Bytes → Data → Except Stop Data
  | 0, _, w => .ok w
  | n + 1, pos, w => do
    let (pos, date) ← readField dateTag deleSpace pos
    let (pos, weath) ← readField weatherTag (fun buf => deleSpaceforweather (deleSpace buf)) pos
    let (pos, low) ← readField blueTag deleSpace pos
    let (pos, high) ← readField orangeTag deleSpace pos
    readDays n pos { w with
      date := w.date ++ [date], weather := w.weather ++ [weath]
      lowDegree := w.lowDegree ++ [low], highDegree := w.highDegree ++ [high] }

/-- `Get_weather_info`: the record it appends. -/
def getWeatherInfo (resp : Option Bytes) : Except Stop Data := do
  let resp ← orStop .segv resp
  let pos ← findTag currCity (cstr resp)
  let pos ← findTag selfQuote pos
  let pos ← findTag spanTag pos
  let pos := pos.drop spanTag.length
  let cityName ← orStop .overflow (scanTo '['.toUInt8 pos (List.replicate 100 0))
  readDays 7 pos ⟨[], cstr (parseforcityname cityName), [], [], []⟩

/-! ### The program -/

/-- What is outside the program: the pages, where they can be fetched, and what the database
makes of an `insert`. -/
structure World where
  list : Option Bytes
  fetch : Bytes × Bytes → Option Bytes
  insert : List (Bytes × Bytes) → Bytes → List (Bytes × Bytes)

/-- The table `tianqi`: the keys and texts of its rows, or `none` where there is no such table. -/
abbrev Table := Option (List (Bytes × Bytes))

/-- The loop of `main` over `city_name_url`. `GetHttpResponse` leaves `resp` alone when it fails,
and its result is not looked at. -/
def visitCities (world : World) : ℕ → Option Bytes → List (Bytes × Bytes) → List Data →
    Except Stop (List Data)
  | _, _, [], weatherData => .ok weatherData
  | count, resp, city :: cities, weatherData =>
    let next (weatherData : List Data) :=
      if 150 < count + 1 then .ok weatherData
      else visitCities world (count + 1) none cities weatherData
    match getWeatherInfo ((world.fetch city).or resp) with
    | .ok w => next (weatherData ++ [w])
    | .error (.noTag _) => next weatherData
    | .error e => .error e

/-- The loop of `main` over `city_name`, with `none` where `weather_data` is read past its end. -/
def insertRows (world : World) : List Bytes → List Data → List (Bytes × Bytes) →
    Option (List (Bytes × Bytes))
  | [], _, rows => some rows
  | _ :: _, [], _ => none
  | key :: cityName, w :: weatherData, rows =>
    insertRows world cityName weatherData (world.insert rows (insertText (insertData key w)))

/-- `main` once `find_resource` has returned: the table it leaves, with `none` where nothing is
defined. `handle` ends the program when it reads through a null pointer. The table is dropped
and made anew; `city_name` is never filled, the line that would is commented out. -/
def storeCities (world : World) (cities : CityMap) (table : Table) : Option Table :=
  match visitCities world 0 world.list cities.entries [] with
  | .error .segv => some table
  | .error _ => none
  | .ok weatherData => (insertRows world [] weatherData []).map some

def main (world : World) (table : Table) : Option Table :=
  match findResource world.list with
  | (inserted, none) =>
    storeCities world (inserted.foldl CityMap.insert ⟨[], .nil⟩) table
  | (_, some .segv) => some table
  | (_, some _) => none

end WeatherQuery.CrawlModel
