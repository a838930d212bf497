import WeatherQuery.Runs
import WeatherQuery.SqlText

/-!
A lookup of the CGI, from the key on: `main` of `find_cgi.cpp` with `MemcacheGet`,
`MemcacheSet` and `select_sql`.

Every call of memcached and of MySQL is a step of its own, so that lookups of different
processes, evictions and the crawler's refresh of the table interleave as they may. Of
memcached it is assumed that a get gives the value last set for the key or a miss, and that
an entry may go at any time. Of MySQL, that a statement that asks for one name gives the rows of
that name, and fails when the table does not exist; `mysql_store_result` gives NULL for a query
that failed.
-/

namespace WeatherQuery.LookupModel

open WeatherQuery.CText WeatherQuery.SqlLex WeatherQuery.SqlText

abbrev Cache := Bytes → Option Bytes

/-- Table `tianqi`: the `info` of the rows with a given `cityname`, in the order of the result
set; `none` when the table does not exist. -/
abbrev Table := Option (Bytes → List Bytes)

/-- `show`. -/
def render (sqlData : Bytes) : Bytes :=
  sqlData.flatMap fun c =>
    if c = '#'.toUInt8 then lit ['<', '/', 'b', 'r', '>', '\n'] else [c]

def notFind : Bytes :=
  lit ['<', 'p', '>', 'n', 'o', 't', ' ', 'f', 'i', 'n', 'd', '<', '/', 'p', '>']

/-- `MemcacheGet`: the value comes back as a C string. -/
def memcacheGet (cache : Cache) (key : Bytes) : Option Bytes := (cache key).map cstr

def memcacheSet (cache : Cache) (key value : Bytes) : Cache :=
  Function.update cache key (some value)

/-- What MySQL gives for the other statements that a name with quotes or escapes in it can make:
the infos of the result set, `none` for NULL. -/
abbrev Others := Table → Bytes → Option (List Bytes)

/-- A MySQL that refuses them all. -/
def refusing : Others := fun _ _ => none

/-- `mysql_query` and `mysql_store_result`. A statement with one literal at its end asks for the
rows of the value of that literal. -/
def queryResult (others : Others) (table : Table) (statement : Bytes) : Option (List Bytes) :=
  match lex none statement with
  | some [.text _, .str name] => table.map (· name)
  | _ => others table statement

/-- `select_sql`, with `data` as it was. The result of `mysql_query` is not looked at; when it
failed the source goes on with a NULL result, here `none`. -/
def selectSql (others : Others) (table : Table) (data cityname : Bytes) : Option (Bool × Bytes) :=
  match queryResult others table (selectText cityname) with
  | none => none
  | some [] => some (false, data)
  | some (row :: _) => some (true, cstr row)

/-- `city_name+jia`. -/
def plus (key : Bytes) : Bytes := key ++ ['+'.toUInt8]

/-- Where a lookup stands. -/
inductive Pc
  | getKey
  | getPlus
  | selectKey
  | selectPlus
  /-- Shown; about to call `MemcacheSet`. -/
  | set (key value : Bytes)
  | finished
  | crashed
  deriving DecidableEq

/-- A process of the CGI, with what it has written of the result. -/
structure Proc where
  key : Bytes
  pc : Pc
  out : Bytes
  deriving DecidableEq

structure St where
  table : Table
  cache : Cache
  procs : List Proc

/-- The next call of a lookup. -/
def procStep (others : Others) (table : Table) (cache : Cache) (p : Proc) : Option (Cache × Proc) :=
  match p.pc with
  | .getKey =>
    match memcacheGet cache p.key with
    | some v => some (cache, { p with pc := .finished, out := render v })
    | none => some (cache, { p with pc := .getPlus })
  | .getPlus =>
    match memcacheGet cache (plus p.key) with
    | some v => some (cache, { p with pc := .finished, out := render v })
    | none => some (cache, { p with pc := .selectKey })
  | .selectKey =>
    match selectSql others table [] p.key with
    | some (true, v) => some (cache, { p with pc := .set p.key v, out := render v })
    | some (false, _) => some (cache, { p with pc := .selectPlus })
    | none => some (cache, { p with pc := .crashed })
  | .selectPlus =>
    match selectSql others table [] (plus p.key) with
    | some (true, v) => some (cache, { p with pc := .set (plus p.key) v, out := render v })
    | some (false, _) => some (cache, { p with pc := .finished, out := notFind })
    | none => some (cache, { p with pc := .crashed })
  | .set key value => some (memcacheSet cache key value, { p with pc := .finished })
  | .finished | .crashed => none

inductive Act
  | lookup (key : Bytes)
  | go (i : ℕ)
  | evict (key : Bytes)
  /-- `delete_table`. -/
  | drop
  /-- `creat_table`. -/
  | create
  /-- `insert_sql`. -/
  | insert (key info : Bytes)

/-- No refresh of the table. -/
def Act.Reads : Act → Prop
  | .lookup _ | .go _ | .evict _ => True
  | .drop | .create | .insert _ _ => False

instance (a : Act) : Decidable a.Reads :=
  match a with
  | .lookup _ | .go _ | .evict _ => isTrue trivial
  | .drop | .create | .insert _ _ => isFalse id

def step (others : Others) (s : St) : Act → Option St
  | .lookup key => some { s with procs := s.procs ++ [⟨key, .getKey, []⟩] }
  | .go i =>
    match s.procs[i]? with
    | some p => (procStep others s.table s.cache p).map fun r =>
        { s with cache := r.1, procs := s.procs.set i r.2 }
    | none => none
  | .evict key => some { s with cache := Function.update s.cache key none }
  | .drop => some { s with table := none }
  | .create => some { s with table := some (s.table.getD fun _ => []) }
  | .insert key info =>
    match s.table with
    | some rows => some { s with table := some (Function.update rows key (rows key ++ [info])) }
    | none => some s

/-- A table whose content is the partial map `db`, and nothing cached. -/
def start (db : Bytes → Option Bytes) : St where
  table := some fun key => (db key).toList
  cache := fun _ => none
  procs := []

/-- The result a lookup without a cache renders. -/
def uncached (db : Bytes → Option Bytes) (key : Bytes) : Bytes :=
  match db key with
  | some v => render v
  | none =>
    match db (plus key) with
    | some v => render v
    | none => notFind

/-! ### Names that stand for themselves -/

/-- A name that stands for itself between quotes. -/
def Tame (t : Bytes) : Prop := NulFree t ∧ Plain quote t

instance (t : Bytes) : Decidable (Tame t) := inferInstanceAs (Decidable (_ ∧ _))

/-- The name of a lookup is tame. -/
def Act.Asks : Act → Prop
  | .lookup key => Tame key
  | _ => True

lemma Tame.plus {key : Bytes} (h : Tame key) : Tame (plus key) :=
  ⟨h.1.append (by decide), (plain_append_sep (by decide) key).mpr h.2⟩

lemma Tame.asks {key : Bytes} (h : Tame key) : SelectAsks key := (selectAsks_iff h.1).mpr h.2

section Asks

variable {others : Others} {table : Table} {key : Bytes}

/-- A statement that asks for its name gives the rows of the table. -/
lemma queryResult_asks (h : SelectAsks key) :
    queryResult others table (selectText key) = table.map (· key) := by
  unfold SelectAsks at h
  simp only [queryResult, h]

lemma selectSql_hit (h : SelectAsks key) {rows : Bytes → List Bytes} {row : Bytes}
    {more : List Bytes} (hrow : rows key = row :: more) (data : Bytes) :
    selectSql others (some rows) data key = some (true, cstr row) := by
  have hresult : queryResult others (some rows) (selectText key) = some (row :: more) := by
    rw [queryResult_asks h, Option.map_some, hrow]
  unfold selectSql
  rw [hresult]

lemma selectSql_miss (h : SelectAsks key) {rows : Bytes → List Bytes} (hrow : rows key = [])
    (data : Bytes) : selectSql others (some rows) data key = some (false, data) := by
  have hresult : queryResult others (some rows) (selectText key) = some [] := by
    rw [queryResult_asks h, Option.map_some, hrow]
  unfold selectSql
  rw [hresult]

lemma selectSql_gone (h : SelectAsks key) (data : Bytes) :
    selectSql others none data key = none := by
  have hresult : queryResult others none (selectText key) = none := queryResult_asks h
  unfold selectSql
  rw [hresult]

end Asks

end WeatherQuery.LookupModel
