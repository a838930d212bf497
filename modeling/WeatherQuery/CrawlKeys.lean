import WeatherQuery.CityKey
import WeatherQuery.CrawlModel

/-!
The keys `find_resource` inserts, over a whole list page.

The buffer the key is made in is never cleared, and `UncodeTostr` does not end what it writes:
behind the key of a name stands what an earlier, longer key has left there.
-/

namespace WeatherQuery.CrawlKeys

open WeatherQuery.CText WeatherQuery.KeyModel WeatherQuery.CityKey WeatherQuery.TagScan
open WeatherQuery.CrawlModel WeatherQuery.Overwrite

/-! ### The anchors of a page -/

structure Anchor where
  url : Bytes
  name : Bytes
  deriving DecidableEq

/-- The next anchor of a page, and the page from its name on. -/
def nextAnchor (pos : Bytes) : Option (Anchor × Bytes) :=
  (strstr hrefTag pos).bind fun p =>
    (strstr selfTag (p.drop hrefTag.length)).map fun q =>
      (⟨upTo '"'.toUInt8 (p.drop hrefTag.length), upTo '<'.toUInt8 (q.drop selfTag.length)⟩,
        q.drop selfTag.length)

/-- The first `n` anchors. -/
def anchorsFrom : ℕ → Bytes → List Anchor
  | 0, _ => []
  | n + 1, pos =>
    match nextAnchor pos with
    | none => []
    | some (a, pos) => a :: anchorsFrom n pos

/-- The anchors after `inlandCity`, of which `find_resource` takes 2564 at most. -/
def anchors (page : Bytes) : List Anchor :=
  match strstr inlandCity (cstr page) with
  | none => []
  | some pos => anchorsFrom 2564 pos

/-- The key of a name in a buffer of zeros. -/
def freshKey (name : Bytes) : Bytes :=
  crawlKey (name ++ 0 :: List.replicate (50 - (name.length + 1)) 0) (List.replicate 50 0)

/-- The hexadecimal digits of a name's bytes from `0x80` on, `F` not counted. -/
def marks (name : Bytes) : ℕ :=
  ((name.filter (0x80 ≤ ·)).flatMap digits).countP (· ≠ 'F'.toUInt8)

/-! ### One name -/

lemma length_keyOf (name : Bytes) : (keyOf name).length = marks name := by
  unfold keyOf marks
  rw [List.length_map]
  induction name with
  | nil => rfl
  | cons b name ih =>
    rw [copied, List.flatMap_cons, List.length_append, ← copied, ih]
    by_cases hb : 0x80 ≤ b
    · have hone := congrArg List.length (map_upper_kept b hb)
      rw [List.length_map, ← List.countP_eq_length_filter] at hone
      rw [List.filter_cons_of_pos (by simpa using hb), List.flatMap_cons, List.countP_append, hone]
    · rw [List.filter_cons_of_neg (by simpa using hb), kept_low b hb, List.length_nil, Nat.zero_add]

lemma freshKey_eq {name : Bytes} (hn : NulFree name) (hlen : name.length ≤ 20) :
    freshKey name = keyOf name :=
  crawlKey_zeros hn hlen (by omega) _

lemma upper_upper (c : UInt8) : upper (upper c) = upper c :=
  forall_byte (P := fun c => upper (upper c) = upper c) (by decide +kernel) c

lemma map_upper_keyOf (name : Bytes) : (keyOf name).map upper = keyOf name := by
  rw [keyOf, List.map_map]
  exact List.map_congr_left fun c _ => upper_upper c

/-- What stands in `cityname` between two turns. -/
structure Written (c : Bytes) : Prop where
  nulFree : NulFree c
  upper : c.map upper = c
  short : c.length ≤ 40

lemma Written.overlay {c name : Bytes} (hc : Written c) (hlen : name.length ≤ 20) :
    Written (overlay (keyOf name) c) where
  nulFree := nulFree_overlay (nulFree_keyOf name) hc.nulFree
  upper := by rw [map_overlay, map_upper_keyOf, hc.upper]
  short := by
    have hle := length_keyOf_le name
    have hshort := hc.short
    rw [length_overlay]
    omega

/-- A turn writes the new key over the old one. -/
lemma uncodeTostr_written {c name : Bytes} (hc : Written c) (hn : NulFree name)
    (hlen : name.length ≤ 20) (r : Bytes) :
    uncodeTostr (name ++ 0 :: r) (c ++ List.replicate (50 - c.length) 0) =
      overlay (keyOf name) c ++ List.replicate (50 - (overlay (keyOf name) c).length) 0 := by
  have hshort := hc.short
  have hmap : (overlay (copied name) c).map upper = overlay (keyOf name) c := by
    rw [map_overlay, hc.upper, keyOf]
  have hlength : (overlay (copied name) c).length = (overlay (keyOf name) c).length := by
    rw [← hmap, List.length_map]
  have hroom : c.length + (50 - c.length) = 50 := by omega
  rw [uncodeTostr_eq hn hlen r hc.nulFree (by omega) (by omega), hmap, hlength, hroom]

/-! ### The loop -/

lemma nextAnchor_some {pos rest : Bytes} {a : Anchor} (h : nextAnchor pos = some (a, rest)) :
    ∃ p q, strstr hrefTag pos = some p ∧ strstr selfTag (p.drop hrefTag.length) = some q ∧
      a = ⟨upTo '"'.toUInt8 (p.drop hrefTag.length), upTo '<'.toUInt8 (q.drop selfTag.length)⟩ ∧
      rest = q.drop selfTag.length := by
  obtain ⟨p, hp, h⟩ := Option.bind_eq_some_iff.mp h
  obtain ⟨q, hq, h⟩ := Option.map_eq_some_iff.mp h
  obtain ⟨ha, hrest⟩ := Prod.mk.inj h
  exact ⟨p, q, hp, hq, ha.symm, hrest.symm⟩

lemma nextAnchor_nulFree {pos rest : Bytes} {a : Anchor} (hpos : NulFree pos)
    (h : nextAnchor pos = some (a, rest)) : NulFree a.url ∧ NulFree a.name ∧ NulFree rest := by
  obtain ⟨p, q, hp, hq, rfl, rfl⟩ := nextAnchor_some h
  have hp' := nulFree_suffix (nulFree_suffix hpos (strstr_suffix hp))
    (List.drop_suffix hrefTag.length p)
  have hq' := nulFree_suffix (nulFree_suffix hp' (strstr_suffix hq))
    (List.drop_suffix selfTag.length q)
  exact ⟨nulFree_upTo hp' _, nulFree_upTo hq' _, hq'⟩

lemma visitAnchor_none {pos : Bytes} (h : nextAnchor pos = none) (cityname : Bytes) :
    ∃ e, visitAnchor pos cityname = .error e := by
  unfold visitAnchor
  rcases hp : strstr hrefTag pos with _ | p
  · exact ⟨.segv, rfl⟩
  rcases hurl : scanTo '"'.toUInt8 (p.drop hrefTag.length) (List.replicate 200 0) with _ | url
  · refine ⟨.overflow, ?_⟩
    simp only [orStop_some_bind, orStop_none_bind, hurl]
  · have hq : strstr selfTag (p.drop hrefTag.length) = none := by
      simpa [nextAnchor, hp] using h
    refine ⟨.segv, ?_⟩
    simp only [orStop_some_bind, orStop_none_bind, hurl, hq]

lemma visitAnchor_some {pos rest : Bytes} {a : Anchor} (hpos : NulFree pos)
    (h : nextAnchor pos = some (a, rest)) (hname : a.name.length ≤ 20) (cityname : Bytes) :
    visitAnchor pos cityname =
      if a.url.length < 200 then
        .ok (rest,
          uncodeTostr (a.name ++ 0 :: List.replicate (50 - (a.name.length + 1)) 0) cityname,
          a.url ++ 0 :: List.replicate (200 - (a.url.length + 1)) 0)
      else .error .overflow := by
  obtain ⟨-, hn, -⟩ := nextAnchor_nulFree hpos h
  obtain ⟨p, q, hp, hq, rfl, rfl⟩ := nextAnchor_some h
  simp only at hname hn ⊢
  unfold visitAnchor
  split_ifs with hurl
  · have hcity : scanTo '<'.toUInt8 (q.drop selfTag.length) (List.replicate 50 0) = _ :=
      scanTo_zeros (by omega)
    simp only [hp, hq, scanTo_zeros hurl, hcity, orStop_some_bind, strlen_append_nul hn]
    rw [if_neg (by omega)]
  · have hover : scanTo '"'.toUInt8 (p.drop hrefTag.length) (List.replicate 200 0) = none :=
      scanTo_zeros_none (by omega) (by omega)
    simp only [hp, hover, orStop_some_bind, orStop_none_bind]

/-- The anchors `find_resource` comes to: it does not survive a url that does not fit. -/
def reached (as : List Anchor) : List Anchor := as.takeWhile fun a => a.url.length < 200

/-- **The loop.** The keys inserted are the keys of the names, each written over the one before. -/
lemma findLoop_eq (n : ℕ) {pos c : Bytes} (hpos : NulFree pos) (hc : Written c)
    (hnames : ∀ a ∈ anchorsFrom n pos, a.name.length ≤ 20) :
    (findLoop n pos (c ++ List.replicate (50 - c.length) 0)).1 =
      (overlays c ((reached (anchorsFrom n pos)).map fun a => keyOf a.name)).zip
        ((reached (anchorsFrom n pos)).map Anchor.url) := by
  induction n generalizing pos c with
  | zero => simp [findLoop, anchorsFrom, reached, overlays]
  | succ n ih =>
    rcases hnext : nextAnchor pos with _ | ⟨a, rest⟩
    · obtain ⟨e, he⟩ := visitAnchor_none hnext (c ++ List.replicate (50 - c.length) 0)
      simp [findLoop, he, anchorsFrom, hnext, reached, overlays]
    · rw [anchorsFrom, hnext] at hnames ⊢
      simp only at hnames ⊢
      have hname := hnames a (by simp)
      obtain ⟨hurl, hn, hrest⟩ := nextAnchor_nulFree hpos hnext
      rw [findLoop, visitAnchor_some hpos hnext hname, uncodeTostr_written hc hn hname, reached]
      by_cases hfits : a.url.length < 200
      · have hover := hc.overlay hname
        have hnul : 0 < 50 - (overlay (keyOf a.name) c).length := by
          have := hover.short
          omega
        obtain ⟨m, hm⟩ := Nat.exists_eq_succ_of_ne_zero hnul.ne'
        rw [if_pos hfits, List.takeWhile_cons_of_pos (by simpa using hfits), ← reached,
          List.map_cons, overlays, List.map_cons, List.zip_cons_cons,
          ← ih hrest hover fun b hb => hnames b (by simp [hb])]
        simp only [cstr_append_nul hurl]
        congr 2
        rw [hm, List.replicate_succ, cstr_append_nul hover.nulFree]
      · rw [if_neg hfits, List.takeWhile_cons_of_neg (by simpa using hfits)]
        simp [overlays]

/-! ### The page -/

lemma anchorsFrom_nulFree {n : ℕ} {pos : Bytes} (hpos : NulFree pos) {a : Anchor}
    (ha : a ∈ anchorsFrom n pos) : NulFree a.name := by
  induction n generalizing pos with
  | zero => simp [anchorsFrom] at ha
  | succ n ih =>
    rw [anchorsFrom] at ha
    rcases h : nextAnchor pos with _ | ⟨b, rest⟩
    · simp [h] at ha
    · obtain ⟨-, hname, hrest⟩ := nextAnchor_nulFree hpos h
      rw [h] at ha
      rcases List.mem_cons.mp ha with rfl | ha
      · exact hname
      · exact ih hrest ha

lemma written_nil : Written [] := ⟨by simp [NulFree], rfl, Nat.zero_le _⟩

lemma findResource_eq {page : Bytes} (hnames : ∀ a ∈ anchors page, a.name.length ≤ 20) :
    (findResource (some page)).1 =
      (overlays [] ((reached (anchors page)).map fun a => keyOf a.name)).zip
        ((reached (anchors page)).map Anchor.url) := by
  rcases h : strstr inlandCity (cstr page) with _ | pos
  · have hnone : anchors page = [] := by simp only [anchors, h]
    simp only [findResource, h, hnone]
    rfl
  · have hsome : anchors page = anchorsFrom 2564 pos := by simp only [anchors, h]
    rw [hsome] at hnames ⊢
    have hpos := nulFree_suffix (nulFree_cstr page) (strstr_suffix h)
    have hloop := findLoop_eq 2564 hpos written_nil hnames
    rw [List.nil_append, List.length_nil, Nat.sub_zero] at hloop
    simp only [findResource, h]
    exact hloop

lemma nulFree_name {page : Bytes} {a : Anchor} (ha : a ∈ anchors page) : NulFree a.name := by
  unfold anchors at ha
  split at ha
  · cases ha
  · rename_i pos h
    exact anchorsFrom_nulFree (nulFree_suffix (nulFree_cstr page) (strstr_suffix h)) ha

lemma getElem?_reached {as : List Anchor} {k : ℕ} (h : k < (reached as).length) :
    (reached as)[k]? = as[k]? := by
  obtain ⟨t, ht⟩ := List.takeWhile_prefix (l := as) fun a => decide (a.url.length < 200)
  conv_rhs => rw [← ht]
  exact (List.getElem?_append_left h).symm

lemma lt_length_reached {as : List Anchor} {k : ℕ} (hk : k < as.length)
    (hfits : ∀ j ≤ k, ∀ b, as[j]? = some b → b.url.length < 200) : k < (reached as).length := by
  have hall : ∀ b ∈ as.take (k + 1), decide (b.url.length < 200) = true := by
    intro b hb
    obtain ⟨j, hj, rfl⟩ := List.mem_iff_getElem.mp hb
    rw [List.length_take] at hj
    exact decide_eq_true (hfits j (by omega) _ (by simp))
  rw [reached, ← List.take_append_drop (k + 1) as, List.takeWhile_append_of_pos hall,
    List.length_append, List.length_take]
  omega

/-- **The keys.** On a list page whose names have at most 20 bytes, the key inserted for the
`k`-th anchor is the key of its name in a buffer of zeros exactly if no name before it has more
digits to leave behind. The anchor's key is inserted with its url unless a url so far does not
fit its buffer. -/
theorem key_fresh_iff (page : Bytes) (hnames : ∀ a ∈ anchors page, a.name.length ≤ 20) (k : ℕ)
    (a : Anchor) (ha : (anchors page)[k]? = some a) :
    (∀ p, (findResource (some page)).1[k]? = some p →
      (p.1 = freshKey a.name ↔
        ∀ j < k, ∀ b, (anchors page)[j]? = some b → marks b.name ≤ marks a.name)) ∧
    ((∀ j ≤ k, ∀ b, (anchors page)[j]? = some b → b.url.length < 200) →
      ∃ p, (findResource (some page)).1[k]? = some p ∧ p.2 = a.url) := by
  have hk : k < (anchors page).length := (List.getElem?_eq_some_iff.mp ha).1
  constructor
  · intro p hp
    rw [findResource_eq hnames, List.getElem?_zip_eq_some] at hp
    obtain ⟨hkey, hurl⟩ := hp
    have hreached : k < (reached (anchors page)).length := by
      simpa using (List.getElem?_eq_some_iff.mp hurl).1
    have hdigits (j) (hj : j ≤ k) : ((reached (anchors page)).map fun a => keyOf a.name)[j]? =
        (anchors page)[j]?.map fun a => keyOf a.name := by
      rw [List.getElem?_map, getElem?_reached (by omega)]
    have hmem := List.mem_of_getElem? ha
    rw [freshKey_eq (nulFree_name hmem) (hnames a hmem),
      overlays_eq_iff (by rw [hdigits k le_rfl, ha]; rfl) hkey]
    simp only [List.length_nil, Nat.zero_le, true_and, length_keyOf]
    refine forall_congr' fun j => forall_congr' fun hj => ?_
    rw [hdigits j hj.le]
    constructor
    · intro h b hb
      have := h _ (by rw [hb]; rfl)
      rwa [length_keyOf] at this
    · rintro h e he
      obtain ⟨b, hb, rfl⟩ := Option.map_eq_some_iff.mp he
      rw [length_keyOf]
      exact h b hb
  · intro hfits
    have hreached := lt_length_reached hk hfits
    have hlt : k < (overlays [] ((reached (anchors page)).map fun a => keyOf a.name)).length := by
      simpa [length_overlays] using hreached
    rw [findResource_eq hnames]
    refine ⟨(_, a.url), List.getElem?_zip_eq_some.mpr ⟨List.getElem?_eq_getElem hlt, ?_⟩, rfl⟩
    rw [List.getElem?_map, getElem?_reached hreached, ha]
    rfl

/-! ### Two pages -/

/-- An anchor as the site writes it. -/
def anchorText (a : Anchor) : Bytes :=
  hrefTag ++ a.url ++ lit ['"', ' '] ++ selfTag ++ a.name ++ lit ['<', '/', 'a', '>']

def jingAnchor : Anchor := ⟨lit ['/', 'j'], [0xE4, 0xBA, 0xAC]⟩

def beijingAnchor : Anchor := ⟨lit ['/', 'b'], beijing⟩

def longerLast : Bytes := inlandCity ++ anchorText jingAnchor ++ anchorText beijingAnchor

def longerFirst : Bytes := inlandCity ++ anchorText beijingAnchor ++ anchorText jingAnchor

theorem key_fresh_iff_longerLast :
    ∃ p, (findResource (some longerLast)).1[1]? = some p ∧ p.1 = freshKey beijing := by
  have has : anchors longerLast = [jingAnchor, beijingAnchor] := by decide +kernel
  obtain ⟨hkey, hinserted⟩ := key_fresh_iff longerLast (by rw [has]; decide) 1 beijingAnchor
    (by rw [has]; rfl)
  obtain ⟨p, hp, -⟩ := hinserted fun j _ b hb => by
    rw [has] at hb
    have hmem := List.mem_of_getElem? hb
    simp only [List.mem_cons, List.not_mem_nil, or_false] at hmem
    rcases hmem with rfl | rfl <;> decide
  refine ⟨p, hp, (hkey p hp).mpr fun j hj b hb => ?_⟩
  obtain rfl : j = 0 := by omega
  rw [has] at hb
  obtain rfl : jingAnchor = b := by simpa using hb
  decide

/-- The key of the second city has the end of the first one's behind it. -/
theorem not_fresh_longerFirst :
    ¬ ∀ (page : Bytes) (k : ℕ) (a : Anchor) (p : Bytes × Bytes),
      (∀ a ∈ anchors page, a.name.length ≤ 20) → (anchors page)[k]? = some a →
        (findResource (some page)).1[k]? = some p → p.1 = freshKey a.name := by
  intro h
  have has : anchors longerFirst = [beijingAnchor, jingAnchor] := by decide +kernel
  have hkey : (findResource (some longerFirst)).1[1]? =
      some (lit ['E', '4', 'B', 'A', 'A', 'C', 'E', '4', 'B', 'A', 'A', 'C'], lit ['/', 'j']) := by
    decide +kernel
  have hfresh : freshKey jingAnchor.name = lit ['E', '4', 'B', 'A', 'A', 'C'] := by decide +kernel
  have := h longerFirst 1 jingAnchor _ (by rw [has]; decide) (by rw [has]; rfl) hkey
  rw [hfresh] at this
  exact absurd this (by decide)

end WeatherQuery.CrawlKeys
