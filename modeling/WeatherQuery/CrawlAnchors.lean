import WeatherQuery.CrawlKeys
import WeatherQuery.TagOrder

/-!
How far `find_resource` gets.

Its loop is left after 2564 anchors and in no other way: a search that fails is only reported,
and the next one starts at an address made from a null pointer. A page with fewer anchors ends
the program.
-/

namespace WeatherQuery.CrawlAnchors

open WeatherQuery.CText WeatherQuery.CityKey WeatherQuery.TagScan WeatherQuery.CrawlModel
open WeatherQuery.CrawlKeys WeatherQuery.Overwrite WeatherQuery.TagOrder

/-! ### Complete anchors -/

/-- The first `n` anchors that have all their parts, the `<` behind the name included. -/
def completeFrom : ℕ → Bytes → List Anchor
  | 0, _ => []
  | n + 1, pos =>
    match nextAnchor pos with
    | none => []
    | some (a, rest) => if '<'.toUInt8 ∈ rest then a :: completeFrom n rest else []

/-- The complete anchors after `inlandCity`. An anchor takes at least a byte of the page. -/
def complete (page : Bytes) : List Anchor :=
  match strstr inlandCity (cstr page) with
  | none => []
  | some pos => completeFrom pos.length pos

/-- What a visit of these anchors inserts: the key of each name, written over the one before, and
its url. -/
def visits (as : List Anchor) : List (Bytes × Bytes) :=
  (overlays [] (as.map fun a => keyOf a.name)).zip (as.map Anchor.url)

/-- `find_resource` returns, having visited the first 2564 complete anchors, or all of them. -/
def Handles (page : Bytes) : Prop :=
  findResource (some page) = (visits ((complete page).take 2564), none)

lemma nextAnchor_shorter {pos rest : Bytes} {a : Anchor} (h : nextAnchor pos = some (a, rest)) :
    rest.length < pos.length := by
  obtain ⟨p, q, hp, hq, -, rfl⟩ := nextAnchor_some h
  have hle : p.length ≤ pos.length := (strstr_suffix hp).length_le
  have htag := (strstr_starts hp).length_le
  have hle' : q.length ≤ (p.drop hrefTag.length).length := (strstr_suffix hq).length_le
  have hpos : 0 < hrefTag.length := by decide
  rw [List.length_drop] at hle' ⊢
  omega

lemma length_completeFrom_le (n : ℕ) (pos : Bytes) : (completeFrom n pos).length ≤ pos.length := by
  induction n generalizing pos with
  | zero => exact Nat.zero_le _
  | succ n ih =>
    rw [completeFrom]
    rcases h : nextAnchor pos with _ | ⟨a, rest⟩
    · exact Nat.zero_le _
    · have hlt := nextAnchor_shorter h
      have hrest := ih rest
      dsimp only
      split_ifs
      · rw [List.length_cons]
        omega
      · exact Nat.zero_le _

lemma completeFrom_take {n m : ℕ} (h : n ≤ m) (pos : Bytes) :
    (completeFrom m pos).take n = completeFrom n pos := by
  induction n generalizing m pos with
  | zero => rfl
  | succ n ih =>
    obtain ⟨m, rfl⟩ : ∃ k, m = k + 1 := ⟨m - 1, by omega⟩
    rw [completeFrom, completeFrom]
    rcases nextAnchor pos with _ | ⟨a, rest⟩
    · rfl
    · dsimp only
      split_ifs
      · rw [List.take_succ_cons, ih (by omega)]
      · rfl

/-- How many turns are allowed does not matter once there is one for each byte. -/
lemma take_completeFrom (n : ℕ) (pos : Bytes) :
    (completeFrom pos.length pos).take n = completeFrom n pos := by
  rcases Nat.le_total n pos.length with h | h
  · exact completeFrom_take h pos
  · have hall := completeFrom_take h pos
    rw [List.take_of_length_le (length_completeFrom_le n pos)] at hall
    rw [← hall, List.take_of_length_le ((length_completeFrom_le n pos).trans h)]

/-- A complete anchor is one of those `find_resource` finds. -/
lemma anchorsFrom_eq {n : ℕ} {pos : Bytes} (h : (completeFrom n pos).length = n) :
    anchorsFrom n pos = completeFrom n pos := by
  induction n generalizing pos with
  | zero => rfl
  | succ n ih =>
    rw [completeFrom] at h ⊢
    rw [anchorsFrom]
    rcases hnext : nextAnchor pos with _ | ⟨a, rest⟩
    · simp [hnext] at h
    · simp only [hnext] at h ⊢
      split_ifs at h ⊢
      rw [ih (by simpa using h)]

/-! ### The loop -/

lemma visitAnchor_long {pos rest : Bytes} {a : Anchor} (hpos : NulFree pos)
    (h : nextAnchor pos = some (a, rest)) (hname : 20 < a.name.length) (cityname : Bytes) :
    ∃ e, visitAnchor pos cityname = .error e := by
  obtain ⟨-, hn, -⟩ := nextAnchor_nulFree hpos h
  obtain ⟨p, q, hp, hq, rfl, rfl⟩ := nextAnchor_some h
  refine ⟨.overflow, ?_⟩
  unfold visitAnchor
  rcases hurl : scanTo '"'.toUInt8 (p.drop hrefTag.length) (List.replicate 200 0) with _ | url
  · simp only [hp, hurl, orStop_some_bind, orStop_none_bind]
  · simp only [hp, hq, hurl, orStop_some_bind]
    rcases Nat.lt_or_ge (upTo '<'.toUInt8 (q.drop selfTag.length)).length 50 with hlt | hge
    · rw [scanTo_zeros hlt, orStop_some_bind, strlen_append_nul hn, if_pos hname]
    · rw [scanTo_zeros_none (by decide) hge, orStop_none_bind]

/-- A loop that is not stopped takes all its turns. -/
lemma findLoop_length {n : ℕ} {pos cityname : Bytes} (h : (findLoop n pos cityname).2 = none) :
    (findLoop n pos cityname).1.length = n := by
  induction n generalizing pos cityname with
  | zero => rfl
  | succ n ih =>
    rw [findLoop] at h ⊢
    rcases hvisit : visitAnchor pos cityname with e | ⟨pos, cityname, url⟩
    · simp [hvisit] at h
    · simp only [hvisit] at h ⊢
      rw [List.length_cons, ih h]

/-- And it can only take them while the names are short enough. -/
lemma findLoop_names {n : ℕ} {pos cityname : Bytes} (hpos : NulFree pos)
    (h : (findLoop n pos cityname).2 = none) : ∀ a ∈ anchorsFrom n pos, a.name.length ≤ 20 := by
  induction n generalizing pos cityname with
  | zero => simp [anchorsFrom]
  | succ n ih =>
    rw [findLoop] at h
    rw [anchorsFrom]
    rcases hnext : nextAnchor pos with _ | ⟨a, rest⟩
    · simp
    · obtain ⟨-, -, hrest⟩ := nextAnchor_nulFree hpos hnext
      rcases Nat.lt_or_ge 20 a.name.length with hlong | hshort
      · obtain ⟨e, he⟩ := visitAnchor_long hpos hnext hlong cityname
        simp [he] at h
      · rw [visitAnchor_some hpos hnext hshort] at h
        split_ifs at h with hurl
        exact List.forall_mem_cons.mpr ⟨hshort, ih hrest h⟩

lemma findLoop_none {n : ℕ} {pos cityname : Bytes} (hpos : NulFree pos)
    (hcount : (anchorsFrom n pos).length = n)
    (h : ∀ a ∈ anchorsFrom n pos, a.url.length < 200 ∧ a.name.length ≤ 20) :
    (findLoop n pos cityname).2 = none := by
  induction n generalizing pos cityname with
  | zero => rfl
  | succ n ih =>
    rw [anchorsFrom] at hcount h
    rcases hnext : nextAnchor pos with _ | ⟨a, rest⟩
    · simp [hnext] at hcount
    · simp only [hnext] at hcount h
      obtain ⟨⟨hurl, hname⟩, hothers⟩ := List.forall_mem_cons.mp h
      obtain ⟨-, -, hrest⟩ := nextAnchor_nulFree hpos hnext
      rw [findLoop, visitAnchor_some hpos hnext hname, if_pos hurl]
      exact ih hrest (by simpa using hcount) hothers

/-! ### The page -/

/-- There is nothing to visit, or enough, with names that fit into the table of `UncodeTostr`. -/
def Enough (page : Bytes) : Prop :=
  strstr inlandCity (cstr page) = none ∨
    2564 ≤ (complete page).length ∧ ∀ a ∈ (complete page).take 2564, a.name.length ≤ 20

lemma visits_length (as : List Anchor) : (visits as).length = as.length := by
  rw [visits, List.length_zip, length_overlays, List.length_map, List.length_map, min_self]

lemma reached_eq_self {as : List Anchor} (h : ∀ a ∈ as, a.url.length < 200) : reached as = as :=
  List.takeWhile_eq_self_iff.mpr fun a ha => decide_eq_true (h a ha)

/-- **The list page.** `find_resource` returns, having visited the first 2564 complete anchors or
all of them, exactly when the page has no `inlandCity` or at least 2564 complete anchors after it,
the first 2564 with names of at most 20 bytes. -/
theorem handles_iff (page : Bytes)
    (hfit : ∀ a ∈ complete page, a.url.length < 200 ∧ a.name.length < 50) :
    Handles page ↔ Enough page := by
  unfold Handles Enough
  rcases hcity : strstr inlandCity (cstr page) with _ | pos
  · have hnone : complete page = [] := by simp only [complete, hcity]
    have hfind : findResource (some page) = ([], none) := by simp only [findResource, hcity]
    rw [hfind, hnone]
    exact iff_of_true rfl (.inl rfl)
  have hpos : NulFree pos := nulFree_suffix (nulFree_cstr page) (strstr_suffix hcity)
  have hfind : findResource (some page) = findLoop 2564 pos (List.replicate 50 0) := by
    simp only [findResource, hcity]
  have htake : (complete page).take 2564 = completeFrom 2564 pos := by
    simp only [complete, hcity, take_completeFrom]
  have hanchors : anchors page = anchorsFrom 2564 pos := by simp only [anchors, hcity]
  have hlength : (completeFrom 2564 pos).length = min 2564 (complete page).length := by
    rw [← htake, List.length_take]
  have hsome : ¬ (some pos = none) := by simp
  rw [or_iff_right hsome, hfind, htake]
  constructor
  · intro h
    have hstop : (findLoop 2564 pos (List.replicate 50 0)).2 = none := by rw [h]
    have hcount := findLoop_length hstop
    rw [h, visits_length, hlength] at hcount
    have hall : anchorsFrom 2564 pos = completeFrom 2564 pos :=
      anchorsFrom_eq (by rw [hlength, hcount])
    refine ⟨by omega, ?_⟩
    rw [← hall]
    exact findLoop_names hpos hstop
  · rintro ⟨hmany, hnames⟩
    have hall : anchorsFrom 2564 pos = completeFrom 2564 pos :=
      anchorsFrom_eq (by rw [hlength, Nat.min_eq_left hmany])
    have hurls : ∀ a ∈ completeFrom 2564 pos, a.url.length < 200 := by
      intro a ha
      rw [← htake] at ha
      exact (hfit a (List.mem_of_mem_take ha)).1
    have hstop : (findLoop 2564 pos (List.replicate 50 0)).2 = none := by
      refine findLoop_none hpos (by rw [hall, hlength, Nat.min_eq_left hmany]) ?_
      rw [hall]
      exact fun a ha => ⟨hurls a ha, hnames a ha⟩
    have hinserted : (findResource (some page)).1 = _ :=
      findResource_eq (by rw [hanchors, hall]; exact hnames)
    rw [hanchors, hall, reached_eq_self hurls, hfind] at hinserted
    exact Prod.ext hinserted hstop

/-! ### Two pages -/

def links (n : ℕ) : Bytes := (List.replicate n (anchorText beijingAnchor)).flatten

/-- A list page of `n` anchors for Beijing. -/
def linkPage (n : ℕ) : Bytes := inlandCity ++ links n

/-- What is left of an anchor behind the tags. -/
def linkRest : Bytes := beijing ++ lit ['<', '/', 'a', '>']

lemma nextAnchor_link {u : Bytes} (hu : 'h'.toUInt8 ∉ u) (r : Bytes) :
    nextAnchor (u ++ (anchorText beijingAnchor ++ r)) = some (beijingAnchor, linkRest ++ r) := by
  have hhref : strstr hrefTag (u ++ (anchorText beijingAnchor ++ r)) =
      strstr hrefTag (anchorText beijingAnchor ++ r) := strstr_append hu _
  rw [nextAnchor, hhref]
  rfl

lemma completeFrom_links (n m : ℕ) {u : Bytes} (hu : 'h'.toUInt8 ∉ u) :
    completeFrom n (u ++ links m) = List.replicate (min n m) beijingAnchor := by
  induction m generalizing n u with
  | zero =>
    have hnone : nextAnchor (u ++ links 0) = none := by
      have hstop : strstr hrefTag (u ++ links 0) = strstr hrefTag [] := strstr_append hu []
      rw [nextAnchor, hstop]
      rfl
    rcases n with _ | n
    · rfl
    · rw [completeFrom, hnone, Nat.min_zero]
      rfl
  | succ m ih =>
    rcases n with _ | n
    · rw [Nat.zero_min]
      rfl
    · have hlinks : links (m + 1) = anchorText beijingAnchor ++ links m := by
        rw [links, List.replicate_succ, List.flatten_cons, ← links]
      have hend : '<'.toUInt8 ∈ linkRest ++ links m := List.mem_append_left _ (by decide)
      rw [completeFrom, hlinks, nextAnchor_link hu]
      dsimp only
      rw [if_pos hend, ih n (u := linkRest) (by decide), Nat.succ_min_succ, List.replicate_succ]

lemma nulFree_linkPage (n : ℕ) : NulFree (linkPage n) := by
  have hlink : NulFree (anchorText beijingAnchor) := by decide
  refine NulFree.append (by decide) fun c hc => ?_
  obtain ⟨l, hl, hcl⟩ := List.mem_flatten.mp hc
  obtain rfl := List.eq_of_mem_replicate hl
  exact hlink c hcl

lemma complete_linkPage (n : ℕ) : complete (linkPage n) = List.replicate n beijingAnchor := by
  have hcity : strstr inlandCity (cstr (linkPage n)) = some (linkPage n) := by
    rw [cstr_of_nulFree (nulFree_linkPage n)]
    exact if_pos (List.prefix_append _ _)
  have hlong : n ≤ (linkPage n).length := by
    have hlinks : (links n).length = n * (anchorText beijingAnchor).length := by
      rw [links, List.length_flatten, List.map_replicate, List.sum_replicate_nat]
    have hpos : 0 < (anchorText beijingAnchor).length := by decide
    have hle := Nat.le_mul_of_pos_right n hpos
    rw [linkPage, List.length_append, hlinks]
    omega
  have hall := completeFrom_links (linkPage n).length n (u := inlandCity) (by decide)
  rw [Nat.min_eq_right hlong] at hall
  simp only [complete, hcity]
  exact hall

/-- A list page of 2564 links is handled to its end. -/
theorem handles_linkPage :
    (∀ a ∈ complete (linkPage 2564), a.url.length < 200 ∧ a.name.length < 50) ∧
      (complete (linkPage 2564)).length = 2564 ∧ Handles (linkPage 2564) := by
  have hall : ∀ a ∈ complete (linkPage 2564), a = beijingAnchor := by
    rw [complete_linkPage]
    exact fun a ha => List.eq_of_mem_replicate ha
  have hlength : (complete (linkPage 2564)).length = 2564 := by
    rw [complete_linkPage, List.length_replicate]
  have hfit : ∀ a ∈ complete (linkPage 2564), a.url.length < 200 ∧ a.name.length < 50 := by
    intro a ha
    rw [hall a ha]
    decide
  refine ⟨hfit, hlength, (handles_iff _ hfit).mpr (.inr ⟨hlength.ge, fun a ha => ?_⟩)⟩
  rw [hall a (List.mem_of_mem_take ha)]
  decide

/-- A page without an anchor: the loop reads through a null pointer. -/
theorem not_handles_inlandCity :
    ¬ ∀ page : Bytes, (∀ a ∈ complete page, a.url.length < 200 ∧ a.name.length < 50) →
      Handles page := by
  intro h
  have hcomplete : complete inlandCity = [] := by decide
  have hfind : findResource (some inlandCity) = ([], some .segv) := by decide
  have hhandles := h inlandCity (by rw [hcomplete]; simp)
  rw [Handles, hfind] at hhandles
  exact absurd (congrArg Prod.snd hhandles) (by simp)

end WeatherQuery.CrawlAnchors
