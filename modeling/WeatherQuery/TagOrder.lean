import WeatherQuery.TagScan

/-!
Several tags, one after the other.

A reader looks for the first place of a tag and goes on behind it. That it takes the first one
loses nothing: when the tags stand on the page in order and without overlap anywhere, the reader
finds them all.
-/

namespace WeatherQuery.TagOrder

open WeatherQuery.CText WeatherQuery.TagScan

/-- The tags stand in `t`, in this order and without overlap. -/
def InOrder : List Bytes → Bytes → Prop
  | [], _ => True
  | tag :: tags, t => ∃ a b, t = a ++ tag ++ b ∧ InOrder tags b

/-- The tag stands in the page at this place. -/
def OccursAt (tag page : Bytes) (p : ℕ) : Prop := tag <+: page.drop p

lemma InOrder.of_suffix {tags : List Bytes} {t u : Bytes} (h : InOrder tags t) (hu : t <:+ u) :
    InOrder tags u := by
  rcases tags with _ | ⟨tag, tags⟩
  · trivial
  · obtain ⟨a, b, rfl, hb⟩ := h
    obtain ⟨v, rfl⟩ := hu
    exact ⟨v ++ a, b, by simp, hb⟩

/-- Where the tag is, `strstr` finds it, there or before. -/
lemma strstr_first {tag : Bytes} (a b : Bytes) :
    ∃ r, strstr tag (a ++ tag ++ b) = some r ∧ tag ++ b <:+ r := by
  induction a with
  | nil =>
    refine ⟨tag ++ b, ?_, List.suffix_rfl⟩
    rw [List.nil_append]
    rcases h : tag ++ b with _ | ⟨c, s⟩
    · obtain ⟨rfl, -⟩ := List.append_eq_nil_iff.mp h
      rfl
    · rw [strstr, if_pos]
      rw [← h]
      exact List.prefix_append tag b
  | cons c a ih =>
    obtain ⟨r, hr, hsuffix⟩ := ih
    rw [List.cons_append, List.cons_append, strstr]
    split_ifs with htag
    · refine ⟨_, rfl, ?_⟩
      rw [← List.cons_append, ← List.cons_append, List.append_assoc]
      exact List.suffix_append _ _
    · exact ⟨r, hr, hsuffix⟩

/-- **The first place is as good as any.** -/
theorem inOrder_cons_iff (tag : Bytes) (tags : List Bytes) (t : Bytes) :
    InOrder (tag :: tags) t ↔
      ∃ r, strstr tag t = some r ∧ InOrder tags (r.drop tag.length) := by
  constructor
  · rintro ⟨a, b, rfl, htags⟩
    obtain ⟨r, hr, v, rfl⟩ := strstr_first a b
    refine ⟨_, hr, htags.of_suffix ?_⟩
    obtain ⟨b', hb'⟩ := strstr_starts hr
    -- `b` is what is behind a later place of the tag
    rw [← hb', List.drop_left]
    have hlen := congrArg List.length hb'
    simp only [List.length_append] at hlen
    have hb : b <:+ v ++ (tag ++ b) := by
      rw [← List.append_assoc]
      exact List.suffix_append _ _
    have hb'' : b' <:+ v ++ (tag ++ b) := by
      rw [← hb']
      exact List.suffix_append _ _
    exact List.suffix_of_suffix_length_le hb hb'' (by omega)
  · rintro ⟨r, hr, htags⟩
    obtain ⟨a, ha⟩ := strstr_suffix hr
    obtain ⟨b, hb⟩ := strstr_starts hr
    rw [← hb, List.drop_left] at htags
    exact ⟨a, b, by rw [← ha, ← hb, List.append_assoc], htags⟩

/-- The reader: each tag is looked for behind the one before. -/
def findsAll : List Bytes → Bytes → Bool
  | [], _ => true
  | tag :: tags, t =>
    match strstr tag t with
    | none => false
    | some r => findsAll tags (r.drop tag.length)

lemma findsAll_iff (tags : List Bytes) (t : Bytes) : findsAll tags t = true ↔ InOrder tags t := by
  induction tags generalizing t with
  | nil => exact iff_of_true rfl trivial
  | cons tag tags ih =>
    rw [findsAll, inOrder_cons_iff]
    rcases strstr tag t with _ | r
    · simp
    · simpa using ih _

instance (tags : List Bytes) (t : Bytes) : Decidable (InOrder tags t) :=
  decidable_of_iff _ (findsAll_iff tags t)

/-- A search does not stop in a text without the first byte of the tag. -/
lemma strstr_append {c : UInt8} {tag u : Bytes} (hu : c ∉ u) (s : Bytes) :
    strstr (c :: tag) (u ++ s) = strstr (c :: tag) s := by
  induction u with
  | nil => rfl
  | cons d u ih =>
    have hcd : c ≠ d := fun h => hu (by simp [h])
    have hrest : c ∉ u := fun h => hu (List.mem_cons_of_mem d h)
    rw [List.cons_append, strstr, if_neg, ih hrest]
    intro hpre
    exact hcd (List.cons_prefix_cons.mp hpre).1

/-- The next search may start at the tag that was found, when its own tag cannot start there. -/
lemma inOrder_skip {tag tag' : Bytes} {c : UInt8} (hc : c ∉ tag) (tags : List Bytes) (t : Bytes) :
    InOrder (tag :: (c :: tag') :: tags) t ↔
      ∃ r, strstr tag t = some r ∧ InOrder ((c :: tag') :: tags) r := by
  rw [inOrder_cons_iff]
  refine exists_congr fun r => and_congr_right fun hr => ?_
  obtain ⟨s, rfl⟩ := strstr_starts hr
  rw [List.drop_left, inOrder_cons_iff, inOrder_cons_iff, strstr_append hc]

/-- A search from a place on the page ends at a later one. -/
lemma strstr_drop {tag page r : Bytes} {i : ℕ} (h : strstr tag (page.drop i) = some r) :
    ∃ j, i ≤ j ∧ OccursAt tag page j ∧ r = page.drop j := by
  obtain ⟨a, ha⟩ := strstr_suffix h
  have hr : r = page.drop (i + a.length) := by
    rw [← List.drop_drop, ← ha, List.drop_left]
  refine ⟨i + a.length, Nat.le_add_right _ _, ?_, hr⟩
  rw [OccursAt, ← hr]
  exact strstr_starts h

end WeatherQuery.TagOrder
