import Mathlib.Data.List.Basic
import Mathlib.Data.Nat.Bitwise
import Mathlib.Data.Nat.Notation

/-!
Byte strings that are UTF-8, filtered and cut.

A byte below `0x80` is a character of its own, so taking such bytes out leaves UTF-8. A cut leaves
UTF-8 when the byte behind it starts a character.
-/

namespace WeatherQuery.Utf8Cut

/-- The string is UTF-8. -/
def Valid (t : List UInt8) : Prop := ∃ cs : List Char, cs.flatMap String.utf8EncodeChar = t

lemma valid_nil : Valid [] := ⟨[], rfl⟩

/-- What follows a character is UTF-8 when the whole is. -/
lemma valid_encode_append_iff (c : Char) (t : List UInt8) :
    Valid (String.utf8EncodeChar c ++ t) ↔ Valid t := by
  have hvalid (t : List UInt8) : Valid t ↔ t.toByteArray.IsValidUTF8 := by
    constructor
    · rintro ⟨cs, rfl⟩
      exact ⟨cs, rfl⟩
    · rintro ⟨cs, h⟩
      exact ⟨cs, by simpa [List.utf8Encode] using h.symm⟩
  have hone : (String.utf8EncodeChar c ++ t).toByteArray = [c].utf8Encode ++ t.toByteArray := by
    simp [List.utf8Encode_singleton]
  rw [hvalid, hvalid, hone, ByteArray.isValidUTF8_utf8Encode_singleton_append_iff]

/-- What follows UTF-8 is UTF-8 when the whole is. -/
lemma valid_append_iff {u : List UInt8} (hu : Valid u) (t : List UInt8) :
    Valid (u ++ t) ↔ Valid t := by
  obtain ⟨cs, rfl⟩ := hu
  induction cs with
  | nil => rfl
  | cons c cs ih => rw [List.flatMap_cons, List.append_assoc, valid_encode_append_iff, ih]

/-! ### Cutting -/

/-- The byte at `n`, where there is one, starts a character. -/
def Starts (t : List UInt8) (n : ℕ) : Prop := ∀ b, t[n]? = some b → b.IsUTF8FirstByte

lemma starts_of_none {t : List UInt8} {n : ℕ} (h : t[n]? = none) : Starts t n := by
  intro b hb
  rw [h] at hb
  cases hb

lemma isFirst_iff_starts {t : List UInt8} {n : ℕ} {b : UInt8} (h : t[n]? = some b) :
    b.IsUTF8FirstByte ↔ Starts t n := by
  constructor
  · intro hb c hc
    rw [h] at hc
    exact Option.some.inj hc ▸ hb
  · exact fun hstarts => hstarts b h

instance (t : List UInt8) (n : ℕ) : Decidable (Starts t n) :=
  match h : t[n]? with
  | none => .isTrue (starts_of_none h)
  | some b => decidable_of_iff b.IsUTF8FirstByte (isFirst_iff_starts h)

lemma Valid.starts_zero {t : List UInt8} (ht : Valid t) : Starts t 0 := by
  intro b hb
  obtain ⟨cs, rfl⟩ := ht
  rcases cs with _ | ⟨c, cs⟩
  · cases hb
  · have hlt : 0 < (String.utf8EncodeChar c).length := List.length_pos_iff.mpr (by simp)
    rw [List.flatMap_cons, List.getElem?_append_left hlt, List.getElem?_eq_getElem hlt] at hb
    obtain rfl := Option.some.inj hb
    exact UInt8.isUTF8FirstByte_getElem_utf8EncodeChar.mpr rfl

/-- **Cutting.** The first `n` bytes of UTF-8 are UTF-8 exactly when no character goes on behind
them. -/
theorem valid_take_iff {t : List UInt8} (ht : Valid t) (n : ℕ) : Valid (t.take n) ↔ Starts t n := by
  constructor
  · intro hcut b hb
    have hrest : Valid (t.drop n) := by
      rwa [← valid_append_iff hcut, List.take_append_drop]
    refine hrest.starts_zero b ?_
    rwa [List.getElem?_drop, Nat.add_zero]
  · obtain ⟨cs, rfl⟩ := ht
    induction cs generalizing n with
    | nil => exact fun _ => ⟨[], by simp⟩
    | cons c cs ih =>
      intro hstarts
      rw [List.flatMap_cons] at hstarts ⊢
      rcases Nat.lt_or_ge n (String.utf8EncodeChar c).length with hlt | hge
      · -- inside a character only its first byte starts one
        have hfirst := hstarts _
          (by rw [List.getElem?_append_left hlt, List.getElem?_eq_getElem hlt])
        obtain rfl := UInt8.isUTF8FirstByte_getElem_utf8EncodeChar.mp hfirst
        exact valid_nil
      · rw [List.take_append, List.take_of_length_le hge, valid_encode_append_iff]
        refine ih _ fun b hb => hstarts b ?_
        rwa [List.getElem?_append_right hge]

/-! ### Filtering -/

/-- An ASCII byte starts a character. -/
lemma starts_of_low {b : UInt8} (h : ¬ 0x80 ≤ b) : b.IsUTF8FirstByte := by
  have hlt : b.toNat < 2 ^ 7 := by
    rw [UInt8.le_iff_toNat_le, not_le] at h
    exact h
  refine .inl (UInt8.toNat.inj ?_)
  have hbit := Nat.and_two_pow b.toNat 7
  rw [Nat.testBit_lt_two_pow hlt] at hbit
  simpa using hbit

lemma high_encode {c : Char} (hc : c.utf8Size ≠ 1) : ∀ b ∈ String.utf8EncodeChar c, 0x80 ≤ b := by
  have hor (x k : UInt8) (hk : 0x80 ≤ k) : 0x80 ≤ x ||| k := by
    rw [UInt8.le_iff_toNat_le] at hk ⊢
    rw [UInt8.toNat_or]
    exact hk.trans Nat.right_le_or
  have hle := c.utf8Size_le_four
  have hpos := c.utf8Size_pos
  obtain h | h | h : c.utf8Size = 2 ∨ c.utf8Size = 3 ∨ c.utf8Size = 4 := by omega
  · rw [String.utf8EncodeChar_eq_cons_cons h]
    simp [hor]
  · rw [String.utf8EncodeChar_eq_cons_cons_cons h]
    simp [hor]
  · rw [String.utf8EncodeChar_eq_cons_cons_cons_cons h]
    simp [hor]

section Filter

variable {keep : UInt8 → Bool} (hkeep : ∀ b, 0x80 ≤ b → keep b = true) {t : List UInt8}
include hkeep

/-- **Filtering.** Without some of its ASCII bytes UTF-8 is UTF-8. -/
theorem Valid.filter (ht : Valid t) : Valid (t.filter keep) := by
  obtain ⟨cs, rfl⟩ := ht
  induction cs with
  | nil => exact valid_nil
  | cons c cs ih =>
    rw [List.flatMap_cons, List.filter_append]
    by_cases hc : c.utf8Size = 1
    · rw [String.utf8EncodeChar_eq_singleton hc]
      rcases hb : keep c.val.toUInt8 with _ | _
      · rwa [List.filter_cons_of_neg (by rw [hb]; exact Bool.false_ne_true)]
      · rwa [List.filter_cons_of_pos hb, List.filter_nil,
          ← String.utf8EncodeChar_eq_singleton hc, valid_encode_append_iff]
    · rwa [List.filter_eq_self.mpr fun b hb => hkeep b (high_encode hc b hb),
        valid_encode_append_iff]

/-- A cut through a character is still one after the filter. -/
lemma valid_filter_take_iff (ht : Valid t) (n : ℕ) :
    Valid ((t.take n).filter keep) ↔ Starts t n := by
  constructor
  · intro h b hb
    have hsplit : t.filter keep = (t.take n).filter keep ++ (t.drop n).filter keep := by
      rw [← List.filter_append, List.take_append_drop]
    have hrest : Valid ((t.drop n).filter keep) := by
      rw [← valid_append_iff h, ← hsplit]
      exact ht.filter hkeep
    by_cases hhigh : 0x80 ≤ b
    · refine hrest.starts_zero b ?_
      have hdrop : t.drop n = b :: t.drop (n + 1) := by
        obtain ⟨hn, rfl⟩ := List.getElem?_eq_some_iff.mp hb
        exact List.drop_eq_getElem_cons hn
      rw [hdrop, List.filter_cons_of_pos (hkeep b hhigh)]
      rfl
    · exact starts_of_low hhigh
  · intro h
    exact ((valid_take_iff ht n).mpr h).filter hkeep

end Filter

end WeatherQuery.Utf8Cut
