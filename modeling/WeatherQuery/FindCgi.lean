import WeatherQuery.ClientRequest
import WeatherQuery.InfoText
import WeatherQuery.LookupCache
import WeatherQuery.QueryValue

/-!
`find_cgi` as a whole, and a query from the request to the page.

The program writes the head of its page, decodes the request, makes the key, looks it up and
writes what it found. The lookup runs beside those of other processes; what it comes to is taken
from any run of them.
-/

namespace WeatherQuery.FindCgi

open WeatherQuery.CText WeatherQuery.KeyModel WeatherQuery.CityKey WeatherQuery.QueryValue
open WeatherQuery.LookupModel WeatherQuery.LookupCache WeatherQuery.SqlText WeatherQuery.InfoText
open WeatherQuery.HttpModel (Host World acceptRequest okHeader docPath servePath Stat)
open WeatherQuery.CgiProtocol WeatherQuery.ClientRequest WeatherQuery.Delivery
open WeatherQuery.HttpAnswer (sentOf)

/-! ### The program -/

/-- The page up to `<body>`, each line with its `endl`. -/
def pageHead : Bytes :=
  lit ['<', 'h', 't', 'm', 'l', '>', '\n'] ++
  lit ['<', 'm', 'e', 't', 'a', ' ', 'h', 't', 't', 'p', '-', 'e', 'q', 'u', 'i', 'v', '=', '"',
    'C', 'o', 'n', 't', 'e', 'n', 't', '-', 'T', 'y', 'p', 'e', '"', ' ', 'c', 'o', 'n', 't', 'e',
    'n', 't', '=', '"', 't', 'e', 'x', 't', '/', 'h', 't', 'm', 'l', ';', 'c', 'h', 'a', 'r', 's',
    'e', 't', '=', 'u', 't', 'f', '-', '8', '"', '/', '>', '\n'] ++
  lit ['<', 'h', 'e', 'a', 'd', '>', ' ', 'C', 'i', 't', 'y', '_', 'W', 'e', 'a', 't', 'h', 'e',
    'r', ' ', '<', '/', 'h', 'e', 'a', 'd', '>', '\n'] ++
  lit ['<', 't', 'i', 't', 'l', 'e', '>', ' '] ++
  [0xE6, 0x9C, 0xAA, 0xE6, 0x9D, 0xA5, 0xE4, 0xB8, 0xA4, 0xE5, 0x91, 0xA8, 0xE5, 0xA4, 0xA9, 0xE6,
    0xB0, 0x94] ++
  lit ['<', '/', 't', 'i', 't', 'l', 'e', '>', ' ', '\n'] ++
  lit ['<', '/', 'b', 'r', '>', '\n'] ++
  lit ['<', 'b', 'o', 'd', 'y', '>', '\n']

def pageTail : Bytes :=
  lit ['<', '/', 'b', 'o', 'd', 'y', '>', '\n', '\n'] ++
  lit ['<', '/', 'h', 't', 'm', 'l', '>', '\n', '\n']

/-- The key `find` and `ParseStr` make of a buffer; `none` where `find` copies from NULL or past
the end of `str`. -/
def requestKey (data : Bytes) : Option Bytes :=
  if (valueText data).length < 33 then queryKey data emptyStr else none

/-- The page for what the request has in its buffer. -/
def page (lookup : Bytes → Option Bytes) (data : Bytes) : Option Bytes :=
  (requestKey data).bind fun key => (lookup key).map fun out => pageHead ++ out ++ pageTail

/-- `main`: what it writes to its stdout, with `none` where it does not come to its end. A lookup
gives what it rendered, or `none` where it crashed. -/
def main (env : Env) (stdin : Bytes) (lookup : Bytes → Option Bytes) : Option Bytes :=
  (decode env stdin).bind fun
    | .get query => page lookup (strcpy (List.replicate 1024 0) query)
    | .post _ data => page lookup (data ++ List.replicate (4096 - data.length) 0)
    | .other => some pageHead

/-! ### A GET for a city -/

lemma decode_get (env : Env) {query : Bytes} (hq : query.length < 1024) (stdin : Bytes) :
    decode (envWith env HttpModel.get query) stdin = some (.get query) := by
  rw [decode, copyenv_fits (envWith_method _ _ _) (by decide), Option.bind_some,
    if_pos (by decide), copyenv_fits (envWith_query _ _ _) hq]
  rfl

lemma nulFree_query (name : Bytes) : NulFree (query name) :=
  NulFree.append (by decide) (nulFree_percentEncode name)

lemma length_query (name : Bytes) : (query name).length = 9 + 3 * name.length := by
  rw [query, List.length_append, length_percentEncode]
  rfl

/-- The value of a query for a city. -/
lemma valueText_query (name r : Bytes) : valueText (query name ++ 0 :: r) = percentEncode name := by
  have hcstr : cstr (percentEncode name ++ 0 :: r) = percentEncode name :=
    cstr_append_nul (nulFree_percentEncode name) r
  rcases afterEq_spec (query name ++ 0 :: r) with ⟨t, hafter, ht, -⟩ | ⟨hafter, -⟩
  · rw [← ht, ← Option.some.inj ((afterEq_query name r).symm.trans hafter), hcstr]
  · cases (afterEq_query name r).symm.trans hafter

/-- The name of a city fits `str` with ten bytes or less, and its key are its digits. -/
lemma requestKey_query {name : Bytes} (hname : name.length ≤ 10) (dst : Bytes) :
    requestKey (strcpy dst (query name)) = some (nameDigits name) := by
  have hcopy : strcpy dst (query name) =
      query name ++ 0 :: dst.drop (strlen (query name) + 1) := by
    rw [strcpy, cstr_of_nulFree (nulFree_query name)]
  rw [requestKey, hcopy, valueText_query, length_percentEncode, if_pos (by omega), queryKey_eq]

lemma main_query (env : Env) {name : Bytes} (hname : name.length ≤ 10)
    (lookup : Bytes → Option Bytes) (stdin : Bytes) :
    main (envWith env HttpModel.get (query name)) stdin lookup =
      (lookup (nameDigits name)).map fun out => pageHead ++ out ++ pageTail := by
  have hlen : (query name).length < 1024 := by
    rw [length_query]
    omega
  rw [main, decode_get env hlen, Option.bind_some]
  change page _ _ = _
  rw [page, requestKey_query hname, Option.bind_some]

/-! ### Lookups beside each other -/

/-- In some run of lookups of tame names, with whatever others beside it and whatever was evicted, a
lookup of the key came to its end with this result. -/
def Came (others : Others) (db : Bytes → Option Bytes) (key out : Bytes) : Prop :=
  ∃ as s p, (∀ a ∈ as, Act.Reads a ∧ Act.Asks a) ∧
    Runs.run (step others) (start db) as = some s ∧
      p ∈ s.procs ∧ p.key = key ∧ p.pc = .finished ∧ p.out = out

lemma upperHex_spec {n : ℕ} (h : n < 16) :
    upperHex n ≠ 0 ∧ upperHex n ≠ quote ∧ upperHex n ≠ '\\'.toUInt8 := by
  have hall : ∀ n < 16, upperHex n ≠ 0 ∧ upperHex n ≠ quote ∧ upperHex n ≠ '\\'.toUInt8 := by
    decide
  exact hall n h

/-- The digits of a name stand for themselves in a statement. -/
lemma tame_nameDigits (name : Bytes) : Tame (nameDigits name) := by
  have hall : ∀ c ∈ nameDigits name, c ≠ 0 ∧ c ≠ quote ∧ c ≠ '\\'.toUInt8 := by
    intro c hc
    obtain ⟨b, -, hb⟩ := List.mem_flatMap.mp hc
    have hlt := b.toNat_lt
    simp only [CityKey.digits, List.mem_cons, List.not_mem_nil, or_false] at hb
    rcases hb with rfl | rfl
    · exact upperHex_spec (by omega)
    · exact upperHex_spec (by omega)
  exact ⟨fun c hc => (hall c hc).1, plain_of_forall fun c hc => (hall c hc).2⟩

section Lookups

variable {others : Others}

lemma procStep_key {table : Table} {cache : Cache} {p : Proc} {r : Cache × Proc}
    (h : procStep others table cache p = some r) : r.2.key = p.key := by
  obtain ⟨key, pc, out⟩ := p
  cases pc with
  | getKey => rcases hk : memcacheGet cache key with _ | v <;> simp [procStep, hk] at h <;> rw [← h]
  | getPlus =>
    rcases hk : memcacheGet cache (plus key) with _ | v <;> simp [procStep, hk] at h <;> rw [← h]
  | selectKey =>
    rcases hk : selectSql others table [] key with _ | ⟨_ | _, v⟩ <;> simp [procStep, hk] at h <;>
      rw [← h]
  | selectPlus =>
    rcases hk : selectSql others table [] (plus key) with _ | ⟨_ | _, v⟩ <;>
      simp [procStep, hk] at h <;> rw [← h]
  | set key' v =>
    simp only [procStep, Option.some.injEq] at h
    rw [← h]
  | finished => cases h
  | crashed => cases h

/-- Who looks up what does not change. -/
lemma step_go_keys {s t : St} {i : ℕ} (h : step others s (.go i) = some t) :
    t.procs.map Proc.key = s.procs.map Proc.key := by
  simp only [step] at h
  rcases hi : s.procs[i]? with _ | p
  · simp [hi] at h
  · rw [hi] at h
    obtain ⟨r, hr, rfl⟩ := Option.map_eq_some_iff.mp h
    obtain ⟨hlt, rfl⟩ := List.getElem?_eq_some_iff.mp hi
    have hself : (s.procs.map Proc.key).set i s.procs[i].key = s.procs.map Proc.key := by
      rw [← List.map_set, List.set_getElem_self]
    rw [List.map_set, procStep_key hr, hself]

variable {db : Bytes → Option Bytes} (hp : PlainRows db) (hu : Unhidden db)
include hp hu

lemma Came.eq {key out : Bytes} (h : Came others db key out) : out = uncached db key := by
  obtain ⟨as, s, p, hok, hrun, hps, rfl, hpc, rfl⟩ := h
  refine (transparent_of_unhidden hp hu as s hok hrun p hps).2 ?_
  rw [Shown, hpc]
  trivial

variable (others) in
/-- A lookup that is alone comes to its end. -/
lemma came_uncached {key : Bytes} (ht : Tame key) : Came others db key (uncached db key) := by
  have hfirst : step others (start db) (.lookup key) =
      some { start db with procs := [⟨key, .getKey, []⟩] } := rfl
  obtain ⟨n, -, t, q, hrun, hq, hleft⟩ :=
    @lookup_ends others { start db with procs := [⟨key, .getKey, []⟩] } 0 ⟨key, .getKey, []⟩ rfl
  have hok : ∀ a ∈ Act.lookup key :: List.replicate n (.go 0), a.Reads ∧ a.Asks := by
    refine List.forall_mem_cons.mpr ⟨⟨trivial, ht⟩, fun a ha => ?_⟩
    rw [List.eq_of_mem_replicate ha]
    exact ⟨trivial, trivial⟩
  have hall : Runs.run (step others) (start db) (.lookup key :: List.replicate n (.go 0)) =
      some t := Runs.run_cons_iff.mpr ⟨_, hfirst, hrun⟩
  have hkeys : t.procs.map Proc.key = [key] :=
    Runs.run_invariant (I := fun s => s.procs.map Proc.key = [key])
      (fun s a t (ha : a = .go 0) hs h => by rw [ha] at h; rw [step_go_keys h, hs]) rfl
      (fun a ha => List.eq_of_mem_replicate ha) hrun
  have hmem : q ∈ t.procs := List.mem_of_getElem? hq
  have hkey : q.key = key := by
    have hin : q.key ∈ t.procs.map Proc.key := List.mem_map_of_mem hmem
    rw [hkeys] at hin
    exact List.mem_singleton.mp hin
  obtain ⟨halive, hshown⟩ := transparent_of_unhidden hp hu _ t hok hall q hmem
  have hpc : q.pc = .finished := by
    rcases hcase : q.pc with _ | _ | _ | _ | ⟨k, v⟩ | _ | _ <;>
      first | rfl | exact absurd hcase halive | (rw [hcase] at hleft; simp [left] at hleft)
  refine ⟨_, t, q, hok, hall, hmem, hkey, hpc, ?_⟩
  rw [← hkey]
  exact hshown (by rw [Shown, hpc]; trivial)

end Lookups

/-! ### From the request to the page -/

/-- What a GET gives the program at `path` as its environment. -/
def getEnv (env : Env) (path query : Bytes) : Option Env :=
  childEnv (fun _ => none) ⟨path, HttpModel.get, some query⟩ 0 env

/-- The program at `path` is `find_cgi`: for every query it writes what `main` does, after a
lookup that came to its end in some run, where the key is tame. -/
def Installed (others : Others) (db : Bytes → Option Bytes) (env : Env) (path : Bytes)
    (host : Host) : Prop :=
  ∀ query env', getEnv env path query = some env' →
    ∃ lookup : Bytes → Option Bytes,
      (∀ key, Tame key → ∃ out, lookup key = some out ∧ Came others db key out) ∧
        ∀ out, main env' [] lookup = some out →
          host.cgi ⟨path, HttpModel.get, some query⟩ [] = out

def cgiPath : Bytes :=
  lit ['/', 'c', 'g', 'i', '_', 'b', 'i', 'n', '/', 'f', 'i', 'n', 'd', '_', 'c', 'g', 'i']

/-- The page a browser is shown for a result. -/
def shownPage (out : Bytes) : Bytes := okHeader ++ (pageHead ++ out ++ pageTail)

section City

variable {others : Others} {db : Bytes → Option Bytes} (hp : PlainRows db) (hu : Unhidden db)
  {env : Env} {host : Host} {st : Stat} (hst : host.stat (docPath cgiPath) = some st)
  (hhost : (host.pipeInput && host.pipeOutput && host.fork) = true)
  (hfind : Installed others db env (servePath st (docPath cgiPath)) host)
include hp hu hfind

/-- What `find_cgi` writes for a city. -/
lemma cgi_city {name : Bytes} (hname : name.length ≤ 10) :
    host.cgi ⟨servePath st (docPath cgiPath), HttpModel.get, some (query name)⟩ [] =
      pageHead ++ uncached db (nameDigits name) ++ pageTail := by
  have hfits : (query name).length + 14 ≤ HttpModel.bufSize / 10 := by
    have hbuf : HttpModel.bufSize / 10 = 102 := rfl
    rw [length_query]
    omega
  have henv : getEnv env (servePath st (docPath cgiPath)) (query name) =
      some (envWith env HttpModel.get (query name)) := childEnv_get (by decide) _ _ _ _ hfits
  obtain ⟨lookup, hcame, hcgi⟩ := hfind _ _ henv
  obtain ⟨out, hlookup, hout⟩ := hcame (nameDigits name) (tame_nameDigits name)
  refine hcgi _ ?_
  rw [main_query env hname, hlookup, Option.map_some, hout.eq hp hu]

include hst hhost

lemma chunks_city {q : Get} (hpath : q.path = cgiPath) {name : Bytes} (hname : name.length ≤ 10)
    (hquery : q.query = some (query name)) :
    chunks host q.toGetParts =
      some (okHeader ::
        (pageHead ++ uncached db (nameDigits name) ++ pageTail).map ([·])) := by
  have hcgi : HttpModel.serveCgi st true = true := rfl
  rw [chunks, hpath, hquery, hst, Option.map_some, Option.isSome_some, if_pos hcgi, if_pos hhost,
    Option.getD_some, cgi_city hp hu hfind hname]

end City

/-- A host on which `find_cgi` is the only program, and every lookup gives what the table has. -/
def findCgiHost (db : Bytes → Option Bytes) (env : Env) : Host where
  stat := fun _ => some ⟨false, true, true, true, 0⟩
  openFile := fun _ => none
  pipeInput := true
  pipeOutput := true
  fork := true
  cgi := fun child stdin =>
    ((childEnv (fun _ => none) child 0 env).bind fun env' =>
      main env' stdin fun key => some (uncached db key)).getD []

lemma installed_findCgiHost {db : Bytes → Option Bytes} (hp : PlainRows db) (hu : Unhidden db)
    (env : Env) (path : Bytes) : Installed refusing db env path (findCgiHost db env) := by
  intro query env' henv
  refine ⟨fun key => some (uncached db key),
    fun key ht => ⟨_, rfl, came_uncached refusing hp hu ht⟩, ?_⟩
  intro out hout
  rw [getEnv] at henv
  change ((childEnv _ _ _ _).bind _).getD [] = out
  rw [henv, Option.bind_some, hout, Option.getD_some]

/-- What a browser or `http_load` puts into a query for a city has no spaces in it. -/
lemma word_query (name : Bytes) : ∀ c ∈ query name, HttpArrival.Word c := by
  have hhex : ∀ i < 16, HttpArrival.Word (upperHex i) := by
    unfold HttpArrival.Word
    decide
  have hhead : ∀ c ∈ lit ['c', 'i', 't', 'y', 'n', 'a', 'm', 'e', '='], HttpArrival.Word c := by
    simp [lit, HttpArrival.Word, isspace]
    decide
  intro c hc
  rcases List.mem_append.mp hc with hc | hc
  · exact hhead c hc
  · obtain ⟨b, -, hb⟩ := List.mem_flatMap.mp hc
    have hlt := b.toNat_lt
    simp only [CityKey.digits, List.mem_cons, List.not_mem_nil, or_false] at hb
    rcases hb with rfl | rfl | rfl
    · exact ⟨by decide, by decide⟩
    · exact hhex _ (by omega)
    · exact hhex _ (by omega)

lemma length_cityHead {name : Bytes} (hname : name.length ≤ 10) :
    (GetParts.head ⟨cgiPath, some (query name), [], []⟩).length < 1023 := by
  have hpath : cgiPath.length = 17 := rfl
  have hget : HttpModel.get.length = 3 := rfl
  simp only [GetParts.head, List.length_append, List.length_cons, List.length_nil, hpath, hget,
    Option.elim_some, length_query]
  omega

lemma word_cgiPath : ∀ c ∈ cgiPath, HttpArrival.Word c ∧ c ≠ '?'.toUInt8 := by
  have hall : cgiPath.all (fun c => !isspace c && c ≠ 0 && c ≠ '?'.toUInt8) = true := by decide
  intro c hc
  simpa [HttpArrival.Word, and_assoc] using List.all_eq_true.mp hall c hc

lemma query_mem {name t : Bytes} (ht : t ∈ some (query name)) : ∀ c ∈ t, HttpArrival.Word c := by
  obtain rfl : query name = t := Option.some.inj ht
  exact word_query name

lemma length_cityQuery {name t : Bytes} (hname : name.length ≤ 10) (ht : t ∈ some (query name)) :
    t.length ≤ 88 := by
  obtain rfl : query name = t := Option.some.inj ht
  rw [length_query]
  omega

/-- A GET for a city, with nothing else in it. -/
def cityGet (name : Bytes) (hname : name.length ≤ 10) : Get where
  path := cgiPath
  query := some (query name)
  version := []
  headers := []
  path_ne := List.cons_ne_nil _ _
  path_word := word_cgiPath
  query_word := fun _ ht => query_mem ht
  version_inline := fun _ hc => absurd hc List.not_mem_nil
  headers_inline := fun _ hh => absurd hh List.not_mem_nil
  headers_read := fun _ hh => absurd hh List.not_mem_nil
  fits := length_cityHead hname
  path_fits := by decide
  query_fits := fun _ ht => length_cityQuery hname ht

/-- The record of one city alone. -/
def oneCity (name : Bytes) (d : Data) : Bytes → Option Bytes := fun key =>
  if key = nameDigits name then some (infoString d) else none

lemma plain_oneCity {name : Bytes} {d : Data} (hne : infoString d ≠ [])
    (hnul : NulFree (infoString d)) : PlainRows (oneCity name d) := by
  intro key v h
  unfold oneCity at h
  split_ifs at h
  cases h
  exact ⟨hne, hnul⟩

lemma unhidden_oneCity (name : Bytes) (d : Data) : Unhidden (oneCity name d) := by
  intro key v w _ hv hw
  unfold oneCity at hv hw
  split_ifs at hv hw with hkey hplus
  have hlen := congrArg List.length (hkey.trans hplus.symm)
  simp [plus] at hlen

end WeatherQuery.FindCgi
