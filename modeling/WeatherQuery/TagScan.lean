import WeatherQuery.CText

/-!
Looking for tags in a page: `strstr`, and `sscanf` with a conversion `%[^c]`.

A pointer into a page is the part of the page's string from there on.
-/

namespace WeatherQuery.TagScan

open WeatherQuery.CText

/-- `strstr(s, tag)`. -/
def strstr (tag : Bytes) : Bytes → Option Bytes
  | [] => if tag = [] then some [] else none
  | c :: s => if tag <+: c :: s then some (c :: s) else strstr tag s

/-- What the conversion `%[^c]` takes from the front of a string. -/
def upTo (c : UInt8) (s : Bytes) : Bytes := s.takeWhile (· ≠ c)

/-- `sscanf(s, "%[^c]", buf)`: without a byte to take the conversion fails and `buf` stays as it
is. A text that does not fit with its NUL is undefined behaviour, here `none`. -/
def scanTo (c : UInt8) (s buf : Bytes) : Option Bytes :=
  if upTo c s = [] then some buf
  else if (upTo c s).length < buf.length then
    some (upTo c s ++ 0 :: buf.drop ((upTo c s).length + 1))
  else none

lemma strstr_suffix {tag s r : Bytes} (h : strstr tag s = some r) : r <:+ s := by
  induction s with
  | nil =>
    rw [strstr] at h
    split_ifs at h
    obtain rfl := Option.some.inj h
    exact List.suffix_rfl
  | cons c s ih =>
    rw [strstr] at h
    split_ifs at h
    · obtain rfl := Option.some.inj h
      exact List.suffix_rfl
    · exact (ih h).trans (List.suffix_cons c s)

/-- What is found starts with the tag. -/
lemma strstr_starts {tag s r : Bytes} (h : strstr tag s = some r) : tag <+: r := by
  induction s with
  | nil =>
    rw [strstr] at h
    split_ifs at h with htag
    rw [htag]
    exact List.nil_prefix
  | cons c s ih =>
    rw [strstr] at h
    split_ifs at h with htag
    · obtain rfl := Option.some.inj h
      exact htag
    · exact ih h

lemma nulFree_suffix {s r : Bytes} (hs : NulFree s) (h : r <:+ s) : NulFree r :=
  fun c hc => hs c (h.subset hc)

lemma nulFree_upTo {s : Bytes} (hs : NulFree s) (c : UInt8) : NulFree (upTo c s) :=
  fun b hb => hs b ((List.takeWhile_prefix _).subset hb)

/-- In a buffer of zeros the text ends where it ends. -/
lemma scanTo_zeros {c : UInt8} {s : Bytes} {k : ℕ} (h : (upTo c s).length < k) :
    scanTo c s (List.replicate k 0) =
      some (upTo c s ++ 0 :: List.replicate (k - ((upTo c s).length + 1)) 0) := by
  unfold scanTo
  split_ifs with hnil hlt
  · rw [hnil]
    obtain ⟨k, rfl⟩ := Nat.exists_eq_succ_of_ne_zero (show k ≠ 0 by omega)
    simp [List.replicate_succ]
  · rw [List.drop_replicate]
  · rw [List.length_replicate] at hlt
    exact absurd h hlt

lemma scanTo_zeros_none {c : UInt8} {s : Bytes} {k : ℕ} (hk : 0 < k) (h : k ≤ (upTo c s).length) :
    scanTo c s (List.replicate k 0) = none := by
  unfold scanTo
  rw [if_neg, if_neg]
  · simpa using h
  · intro hnil
    simp [hnil] at h
    omega

end WeatherQuery.TagScan
