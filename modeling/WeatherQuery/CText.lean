import Mathlib.Algebra.Order.Ring.Int
import Mathlib.Data.List.GetD
import Mathlib.Data.List.TakeWhile

/-!
Text in C buffers.

A buffer is the list of its bytes and the string in it ends at the first NUL. `char` is signed:
a byte from `0x80` on is a negative number wherever the language promotes it to `int`.
-/

namespace WeatherQuery.CText

abbrev Bytes := List UInt8

/-- The bytes of a string literal, written as its characters. -/
def lit (cs : List Char) : Bytes := cs.map Char.toUInt8

/-- The string at the start of a buffer. -/
def cstr (buf : Bytes) : Bytes := buf.takeWhile (· ≠ 0)

def strlen (buf : Bytes) : ℕ := (cstr buf).length

/-- `strcpy`: the string of `src` and its NUL, over the start of `dst`. -/
def strcpy (dst src : Bytes) : Bytes := cstr src ++ 0 :: dst.drop (strlen src + 1)

/-- A `char` as an `int`. -/
def promote (c : UInt8) : ℤ := c.toInt8.toInt

/-- `%x` of an `int`. -/
def hex (z : ℤ) : Bytes := lit (Nat.toDigits 16 (z % 2 ^ 32).toNat)

/-- `isspace`, in the C locale. -/
def isspace (c : UInt8) : Bool := c = 32 || (9 ≤ c && c ≤ 13)

def tolower (c : UInt8) : UInt8 := if 65 ≤ c ∧ c ≤ 90 then c + 32 else c

/-- `strcasecmp` on two strings without their NULs: the difference at the first place where the
lowered bytes differ, the NUL included. -/
def strcasecmp : Bytes → Bytes → ℤ
  | [], [] => 0
  | [], d :: _ => -(tolower d).toNat
  | c :: _, [] => (tolower c).toNat
  | c :: s, d :: t =>
    if tolower c = tolower d then strcasecmp s t else (tolower c).toNat - (tolower d).toNat

def strncasecmp (s t : Bytes) (n : ℕ) : ℤ := strcasecmp (s.take n) (t.take n)

/-- The value of the digits at the start of a string. -/
def digits : Bytes → ℕ → ℕ
  | [], acc => acc
  | c :: s, acc => if 48 ≤ c ∧ c ≤ 57 then digits s (acc * 10 + (c.toNat - 48)) else acc

/-- `atoi`, which is `(int)strtol(s, NULL, 10)` with a `long` of 64 bits. -/
def atoi (s : Bytes) : ℤ :=
  match s.dropWhile isspace with
  | [] => 0
  | c :: t =>
    if c = '-'.toUInt8 then (max (-2 ^ 63) (-(digits t 0 : ℤ))).bmod (2 ^ 32)
    else (min (2 ^ 63 - 1) (digits (if c = '+'.toUInt8 then t else c :: t) 0 : ℤ)).bmod (2 ^ 32)

/-- A `for` loop whose condition is evaluated before every turn. -/
def forLoop {σ : Type*} (guard : ℕ → σ → Bool) (body : ℕ → σ → σ) : ℕ → ℕ → σ → σ
  | 0, _, s => s
  | fuel + 1, i, s => if guard i s then forLoop guard body fuel (i + 1) (body i s) else s

lemma forLoop_done {σ : Type*} {guard : ℕ → σ → Bool} {body : ℕ → σ → σ} {i : ℕ} {s : σ}
    (h : guard i s = false) (fuel : ℕ) : forLoop guard body fuel i s = s := by
  cases fuel <;> simp [forLoop, h]

/-- No NUL among the bytes. -/
def NulFree (t : Bytes) : Prop := ∀ c ∈ t, c ≠ 0

-- over the bytes of the string; deciding it over all bytes would take too long
instance (t : Bytes) : Decidable (NulFree t) := List.decidableBAll (fun c => c ≠ 0) t

lemma NulFree.append {t u : Bytes} (ht : NulFree t) (hu : NulFree u) : NulFree (t ++ u) := by
  intro c hc
  rcases List.mem_append.mp hc with h | h
  · exact ht c h
  · exact hu c h

lemma NulFree.filter {t : Bytes} (h : NulFree t) (keep : UInt8 → Bool) : NulFree (t.filter keep) :=
  fun c hc => h c (List.mem_filter.mp hc).1

lemma cstr_of_nulFree {t : Bytes} (h : NulFree t) : cstr t = t :=
  List.takeWhile_eq_self_iff.mpr fun c hc => by simpa using h c hc

@[simp] lemma cstr_append_nul {t : Bytes} (h : NulFree t) (r : Bytes) : cstr (t ++ 0 :: r) = t := by
  unfold cstr
  rw [List.takeWhile_append_of_pos fun c hc => by simpa using h c hc]
  simp

@[simp] lemma strlen_append_nul {t : Bytes} (h : NulFree t) (r : Bytes) :
    strlen (t ++ 0 :: r) = t.length := by
  unfold strlen
  rw [cstr_append_nul h]

lemma strcpy_nul {t : Bytes} (h : NulFree t) (dst r : Bytes) :
    strcpy dst (t ++ 0 :: r) = t ++ 0 :: dst.drop (t.length + 1) := by
  simp [strcpy, h]

/-- A buffer with a NUL in it: the string, the NUL and what is behind it. -/
lemma exists_nul {buf : Bytes} (h : 0 ∈ buf) : ∃ r, buf = cstr buf ++ 0 :: r := by
  induction buf with
  | nil => cases h
  | cons c buf ih =>
    by_cases hc : c = 0
    · exact ⟨buf, by simp [cstr, hc]⟩
    · obtain ⟨r, hr⟩ := ih ((List.mem_cons.mp h).resolve_left (Ne.symm hc))
      refine ⟨r, ?_⟩
      rw [cstr, List.takeWhile_cons_of_pos (by simpa using hc), ← cstr, List.cons_append, ← hr]

lemma nulFree_cstr (buf : Bytes) : NulFree (cstr buf) :=
  fun c hc => by simpa using List.mem_takeWhile_imp hc

/-! ### Letters in either case -/

lemma tolower_ne_zero {c : UInt8} (h : c ≠ 0) : tolower c ≠ 0 := by
  unfold tolower
  split_ifs with hc
  · intro h0
    have hval := congrArg UInt8.toNat h0
    rw [UInt8.le_iff_toNat_le, UInt8.le_iff_toNat_le] at hc
    simp only [UInt8.toNat_add, UInt8.reduceToNat] at hval hc
    omega
  · exact h

lemma toNat_ne_zero {c : UInt8} (h : c ≠ 0) : ((tolower c).toNat : ℤ) ≠ 0 := by
  intro h0
  exact tolower_ne_zero h (UInt8.toNat.inj (by simpa using h0))

/-- `strcasecmp` finds two strings equal when they differ in case only. -/
lemma strcasecmp_eq_zero_iff {s t : Bytes} (hs : NulFree s) (ht : NulFree t) :
    strcasecmp s t = 0 ↔ s.map tolower = t.map tolower := by
  induction s generalizing t with
  | nil =>
    rcases t with _ | ⟨d, t⟩
    · simp [strcasecmp]
    · simpa [strcasecmp] using toNat_ne_zero (ht d (by simp))
  | cons c s ih =>
    rcases t with _ | ⟨d, t⟩
    · simpa [strcasecmp] using toNat_ne_zero (hs c (by simp))
    · have ih := ih (t := t) (fun e he => hs e (by simp [he])) fun e he => ht e (by simp [he])
      rw [strcasecmp, List.map_cons, List.map_cons, List.cons.injEq]
      by_cases hcd : tolower c = tolower d
      · rw [if_pos hcd, ih]
        simp [hcd]
      · have hnat : (tolower c).toNat ≠ (tolower d).toNat := fun h => hcd (UInt8.toNat.inj h)
        rw [if_neg hcd]
        simp only [hcd, false_and, iff_false]
        omega

lemma strcasecmp_comm {s t : Bytes} (hs : NulFree s) (ht : NulFree t) :
    strcasecmp s t = 0 ↔ strcasecmp t s = 0 := by
  rw [strcasecmp_eq_zero_iff hs ht, strcasecmp_eq_zero_iff ht hs]
  exact eq_comm

/-! ### Decimal numbers -/

/-- The digits of a number, as they are written. -/
def decimal (n : ℕ) : Bytes := lit (Nat.toDigits 10 n)

def IsDigit (c : UInt8) : Prop := 48 ≤ c ∧ c ≤ 57

/-- The digit of a value below ten. -/
def digitOf (d : ℕ) : UInt8 := UInt8.ofNat (48 + d)

lemma toNat_digitOf {d : ℕ} (h : d < 10) : (digitOf d).toNat = 48 + d := by
  rw [digitOf, UInt8.toNat_ofNat']
  omega

lemma isDigit_digitOf {d : ℕ} (h : d < 10) : IsDigit (digitOf d) := by
  rw [IsDigit, UInt8.le_iff_toNat_le, UInt8.le_iff_toNat_le, toNat_digitOf h]
  exact ⟨Nat.le_add_right _ _, Nat.add_le_add_left (Nat.le_of_lt_succ h) 48⟩

lemma digitChar_toUInt8 {d : ℕ} (h : d < 10) : (Nat.digitChar d).toUInt8 = digitOf d := by
  have hall : ∀ d < 10, (Nat.digitChar d).toUInt8 = digitOf d := by decide
  exact hall d h

lemma decimal_one {n : ℕ} (h : n < 10) : decimal n = [digitOf n] := by
  rw [decimal, Nat.toDigits_of_lt_base h, ← digitChar_toUInt8 h]
  rfl

lemma decimal_more {n : ℕ} (h : 10 ≤ n) : decimal n = decimal (n / 10) ++ [digitOf (n % 10)] := by
  have hlast : n % 10 < 10 := Nat.mod_lt n (by decide)
  rw [decimal, Nat.toDigits_of_base_le (by decide) h, lit, List.map_append, List.map_singleton,
    digitChar_toUInt8 hlast]
  rfl

/-- One digit, or one digit more. -/
lemma decimal_induction {P : ℕ → Prop} (one : ∀ n < 10, P n)
    (more : ∀ n, 10 ≤ n → P (n / 10) → P n) (n : ℕ) : P n := by
  induction n using Nat.strong_induction_on with
  | _ n ih =>
    rcases Nat.lt_or_ge n 10 with h | h
    · exact one n h
    · exact more n h (ih (n / 10) (by omega))

lemma decimal_ne_nil (n : ℕ) : decimal n ≠ [] := by
  rcases Nat.lt_or_ge n 10 with h | h
  · simp [decimal_one h]
  · simp [decimal_more h]

lemma decimal_isDigit (n : ℕ) : ∀ c ∈ decimal n, IsDigit c := by
  induction n using decimal_induction with
  | one n h =>
    intro c hc
    rw [decimal_one h] at hc
    obtain rfl := List.mem_singleton.mp hc
    exact isDigit_digitOf h
  | more n h ih =>
    intro c hc
    rw [decimal_more h] at hc
    rcases List.mem_append.mp hc with hc | hc
    · exact ih c hc
    · obtain rfl := List.mem_singleton.mp hc
      exact isDigit_digitOf (Nat.mod_lt n (by decide))

lemma digits_cons {c : UInt8} (hc : IsDigit c) (t : Bytes) (acc : ℕ) :
    digits (c :: t) acc = digits t (acc * 10 + (c.toNat - 48)) := if_pos hc

lemma digits_append {s : Bytes} (hs : ∀ c ∈ s, IsDigit c) (t : Bytes) (acc : ℕ) :
    digits (s ++ t) acc = digits t (digits s acc) := by
  induction s generalizing acc with
  | nil => rfl
  | cons c s ih =>
    obtain ⟨hc, hs⟩ := List.forall_mem_cons.mp hs
    rw [List.cons_append, digits_cons hc, digits_cons hc, ih hs]

lemma digits_snoc {s : Bytes} (hs : ∀ c ∈ s, IsDigit c) {d : ℕ} (hd : d < 10) :
    digits (s ++ [digitOf d]) 0 = digits s 0 * 10 + d := by
  rw [digits_append hs, digits_cons (isDigit_digitOf hd), toNat_digitOf hd, digits]
  omega

lemma digits_decimal (n : ℕ) : digits (decimal n) 0 = n := by
  induction n using decimal_induction with
  | one n h =>
    rw [decimal_one h, digits_cons (isDigit_digitOf h), toNat_digitOf h, digits]
    omega
  | more n h ih =>
    rw [decimal_more h, digits_snoc (decimal_isDigit _) (Nat.mod_lt n (by decide)), ih]
    omega

/-- Without its first digit a number is smaller, unless it is zero. -/
lemma digits_tail_lt {n : ℕ} (hn : 0 < n) : digits (decimal n).tail 0 < n := by
  induction n using decimal_induction with
  | one n h =>
    rw [decimal_one h]
    exact hn
  | more n h ih =>
    have hdigits : ∀ c ∈ (decimal (n / 10)).tail, IsDigit c :=
      fun c hc => decimal_isDigit _ c (List.mem_of_mem_tail hc)
    rw [decimal_more h, List.tail_append_of_ne_nil (decimal_ne_nil _),
      digits_snoc hdigits (Nat.mod_lt n (by decide))]
    have := ih (by omega)
    omega

lemma IsDigit.not_space {c : UInt8} (hc : IsDigit c) : isspace c = false := by
  obtain ⟨hge, -⟩ := hc
  rw [UInt8.le_iff_toNat_le] at hge
  simp only [isspace, Bool.or_eq_false_iff, Bool.and_eq_false_iff, decide_eq_false_iff_not,
    UInt8.le_iff_toNat_le]
  refine ⟨?_, .inr ?_⟩
  · rintro rfl
    exact absurd hge (by decide)
  · exact fun h => absurd (hge.trans h) (by decide)

lemma IsDigit.not_sign {c : UInt8} (hc : IsDigit c) : c ≠ '-'.toUInt8 ∧ c ≠ '+'.toUInt8 := by
  constructor <;> rintro rfl <;> exact absurd hc.1 (by decide)

/-- `atoi` on digits between a space and another: their value, as far as an `int` holds it. -/
lemma atoi_digits {s t : Bytes} (hs : ∀ c ∈ s, isspace c = true) (ht : ∀ c ∈ t, IsDigit c)
    {d : UInt8} (hd : isspace d = true) (hlt : digits t 0 < 2 ^ 31) :
    atoi (s ++ (t ++ [d])) = digits t 0 := by
  have hspace : (s ++ (t ++ [d])).dropWhile isspace = (t ++ [d]).dropWhile isspace :=
    List.dropWhile_append_of_pos hs
  have hstop : digits [d] (digits t 0) = digits t 0 := by
    refine if_neg fun h => ?_
    have hno := IsDigit.not_space h
    rw [hd] at hno
    cases hno
  unfold atoi
  rw [hspace]
  rcases t with _ | ⟨c, t⟩
  · rw [List.nil_append, List.dropWhile_cons_of_pos hd]
    rfl
  · have hc : IsDigit c := ht c (by simp)
    have hword : ¬ isspace c = true := by
      rw [hc.not_space]
      decide
    have hval : digits (c :: (t ++ [d])) 0 = digits (c :: t) 0 := by
      rw [← List.cons_append, digits_append ht, hstop]
    rw [List.cons_append, List.dropWhile_cons_of_neg hword]
    simp only [if_neg hc.not_sign.1, if_neg hc.not_sign.2, hval]
    rw [min_eq_right (by omega), Int.bmod_eq_of_le (by omega) (by omega)]

/-! ### Writing a buffer from left to right -/

/-- `buf[cur++] = c`. -/
def put (st : ℕ × Bytes) (c : UInt8) : ℕ × Bytes := (st.1 + 1, st.2.set st.1 c)

lemma foldl_put (t done room : Bytes) (h : t.length ≤ room.length) :
    t.foldl put (done.length, done ++ room) =
      (done.length + t.length, done ++ t ++ room.drop t.length) := by
  induction t generalizing done room with
  | nil => simp
  | cons c t ih =>
    rcases room with _ | ⟨d, room⟩
    · simp at h
    · have hput : put (done.length, done ++ d :: room) c =
          ((done ++ [c]).length, (done ++ [c]) ++ room) := by
        simp [put, List.set_append_right]
      rw [List.foldl_cons, hput, ih (done ++ [c]) room (by simpa using h)]
      simp
      omega

end WeatherQuery.CText
