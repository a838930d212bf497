import WeatherQuery.InPlace
import WeatherQuery.KeyModel
import WeatherQuery.Overwrite
import WeatherQuery.Slots

/-!
The key the crawler stores against the key the CGI looks up.

Both are the hexadecimal digits of the name's bytes. The CGI gets them by deleting `%` from the
escapes of the query string. The crawler prints every byte sign-extended to 32 bits and deletes
each `f`, which takes the six digits of the sign extension away and any `f` of the byte itself
with them: its key is the CGI's key less every `F`.
-/

namespace WeatherQuery.CityKey

open WeatherQuery.CText WeatherQuery.InPlace WeatherQuery.KeyModel WeatherQuery.Overwrite

/-- A fact about every byte, from a fact about the numbers below 256. -/
lemma forall_byte {P : UInt8 → Prop} (h : ∀ i : Fin 256, P (UInt8.ofNat i)) (b : UInt8) : P b := by
  simpa using h ⟨b.toNat, b.toNat_lt⟩

/-! ### The in-place loops -/

lemma upper_ne_zero (c : UInt8) : c ≠ 0 → upper c ≠ 0 :=
  forall_byte (P := fun c => c ≠ 0 → upper c ≠ 0) (by decide +kernel) c

/-- The buffer before turn `j` of the third loop of `UncodeTostr`. -/
def upcaseAt (t r : Bytes) (j : ℕ) : Bytes := (t.take j).map upper ++ (t.drop j ++ 0 :: r)

lemma nulFree_map_upper {t : Bytes} (h : NulFree t) : NulFree (t.map upper) := by
  intro c hc
  obtain ⟨x, hx, rfl⟩ := List.mem_map.mp hc
  exact upper_ne_zero x (h x hx)

lemma strlen_upcaseAt {t : Bytes} (ht : NulFree t) (r : Bytes) (j : ℕ) :
    strlen (upcaseAt t r j) = t.length := by
  have htake : NulFree (t.take j) := fun c hc => ht c (List.mem_of_mem_take hc)
  have hdrop : NulFree (t.drop j) := fun c hc => ht c (List.mem_of_mem_drop hc)
  rw [upcaseAt, ← List.append_assoc, strlen_append_nul ((nulFree_map_upper htake).append hdrop)]
  simp
  omega

/-- The turns of the loop. -/
lemma upcase_turns {t : Bytes} (ht : NulFree t) (r : Bytes) :
    (∀ j < t.length, decide (j < strlen (upcaseAt t r j)) = true ∧
      (upcaseAt t r j).set j (upper ((upcaseAt t r j).getD j 0)) = upcaseAt t r (j + 1)) ∧
    decide (t.length < strlen (upcaseAt t r t.length)) = false := by
  constructor
  · intro j hj
    refine ⟨by rw [strlen_upcaseAt ht]; simpa using hj, ?_⟩
    have hlen : ((t.take j).map upper).length = j := by simp [hj.le]
    have hat : upcaseAt t r j = (t.take j).map upper ++ (t[j] :: t.drop (j + 1) ++ 0 :: r) := by
      rw [upcaseAt, List.drop_eq_getElem_cons hj]
    have hbyte : (upcaseAt t r j).getD j 0 = t[j] := by
      rw [hat, List.getD_append_right _ _ _ _ hlen.le, hlen, Nat.sub_self]
      rfl
    rw [hbyte, hat, List.set_append_right _ _ hlen.le, hlen, Nat.sub_self, upcaseAt,
      List.take_succ_eq_append_getElem hj, List.map_append, List.append_assoc]
    rfl
  · rw [strlen_upcaseAt ht]
    simp

lemma upcase_append {t : Bytes} (ht : NulFree t) (r : Bytes) :
    upcase (t ++ 0 :: r) = t.map upper ++ 0 :: r := by
  obtain ⟨hgo, hstop⟩ := upcase_turns ht r
  have hstart : upcaseAt t r 0 = t ++ 0 :: r := by simp [upcaseAt]
  rw [upcase, ← hstart, forLoop_states (s := upcaseAt t r) hgo hstop (Nat.zero_le _)]
  · simp [upcaseAt]
  · simp [hstart]

/-- `ParseStr` as the filter it is. -/
lemma parseStr_eq (str : Bytes) :
    parseStr str =
      (forLoop more (turn fun c => c = '%'.toUInt8) (str.length + 1) 0 (0, str)).2 := by
  have hbody : (fun i (st : ℕ × Bytes) =>
      if st.2.getD i 0 ≠ '%'.toUInt8 then put st (st.2.getD i 0) else st) =
        turn fun c => c = '%'.toUInt8 := by
    funext i st
    simp [turn]
  rw [parseStr, hbody]
  rfl

lemma parseStr_left {t : Bytes} (ht : NulFree t) (r : Bytes) :
    parseStr (t ++ 0 :: r) = left (fun c => c = '%'.toUInt8) t r := by
  rw [parseStr_eq, forLoop_filter r ht (by decide)]
  rw [List.length_append, List.length_cons]
  omega

lemma parseStr_append {t : Bytes} (ht : NulFree t) (r : Bytes) :
    cstr (parseStr (t ++ 0 :: r)) = t.filter (· ≠ '%'.toUInt8) := by
  rw [parseStr_left ht, cstr_left r ht]
  exact List.filter_congr fun c _ => by simp

/-! ### The rows of the crawler -/

/-- What the second loop of `UncodeTostr` copies from a row. -/
def kept (row : Bytes) : Bytes :=
  if 8 ≤ strlen row then
    ((List.range 9).map (row.getD · 0)).filter fun c => c ≠ 'f'.toUInt8 ∧ c ≠ 0
  else []

section Rows

variable {σ : Type*} (f : σ → UInt8 → σ)

/-- The inner loop does something with each byte it keeps. -/
lemma foldl_row {row : Bytes} (h : 8 ≤ strlen row) (s : σ) :
    (List.range 9).foldl (fun s j =>
      if row.getD j 0 ≠ 'f'.toUInt8 ∧ row.getD j 0 ≠ 0 then f s (row.getD j 0) else s) s =
        (kept row).foldl f s := by
  rw [kept, if_pos h, List.foldl_filter, List.foldl_map]
  simp

lemma foldl_rows {buf : List Bytes} (h : buf.length = 20) (s : σ) :
    (List.range 20).foldl (fun s i =>
      if 8 ≤ strlen (buf.getD i []) then
        (List.range 9).foldl (fun s j =>
          if (buf.getD i []).getD j 0 ≠ 'f'.toUInt8 ∧ (buf.getD i []).getD j 0 ≠ 0 then
            f s ((buf.getD i []).getD j 0) else s) s
      else s) s = (buf.flatMap kept).foldl f s := by
  have hbuf : buf = (List.range 20).map (buf.getD · []) := by
    refine List.ext_getElem (by simp [h]) fun i h1 h2 => ?_
    simp [h1]
  conv_rhs => rw [hbuf, List.flatMap_map, List.foldl_flatMap]
  congr 1
  funext s i
  split_ifs with hi
  · exact foldl_row f hi s
  · rw [kept, if_neg hi, List.foldl_nil]

end Rows

lemma copyRows_eq (buf : List Bytes) (h : buf.length = 20) (out : Bytes) :
    copyRows buf out = ((buf.flatMap kept).foldl put (0, out)).2 :=
  congrArg Prod.snd (foldl_rows put h (0, out))

/-- A row as `sprintf` leaves it. -/
def printed (b : UInt8) : Bytes := strcpy (List.replicate 30 0) (hex (promote b))

lemma printRows_eq {name : Bytes} (hn : NulFree name) (hlen : name.length ≤ 20) (r : Bytes) :
    printRows (name ++ 0 :: r) =
      name.map printed ++ List.replicate (20 - name.length) (List.replicate 30 0) := by
  unfold printRows
  rw [strlen_append_nul hn, Slots.foldl_set_range
    (fun i row => strcpy row (hex (promote ((name ++ 0 :: r).getD i 0)))) [] _ hlen]
  congr 1
  refine List.ext_getElem (by simp) fun i h1 h2 => ?_
  have hi : i < name.length := by simpa using h1
  have hget : (name ++ 0 :: r).getD i 0 = name[i] := by
    rw [List.getD_append _ _ _ _ hi, List.getD_eq_getElem _ _ hi]
  rw [List.getElem_map, List.getElem_range, List.getElem_map, hget, printed]

/-! ### Byte by byte -/

/-- A hexadecimal digit as a browser writes it in an escape. -/
def upperHex (n : ℕ) : UInt8 := if n < 10 then UInt8.ofNat (48 + n) else UInt8.ofNat (55 + n)

/-- The two digits of a byte. -/
def digits (b : UInt8) : Bytes := [upperHex (b.toNat / 16), upperHex (b.toNat % 16)]

/-- The upper-case percent-encoding. -/
def percentEncode (name : Bytes) : Bytes := name.flatMap fun b => '%'.toUInt8 :: digits b

/-- Neither digit of the byte is `F`. -/
def NoF (b : UInt8) : Prop := b.toNat / 16 ≠ 15 ∧ b.toNat % 16 ≠ 15

instance (b : UInt8) : Decidable (NoF b) := inferInstanceAs (Decidable (_ ∧ _))

/-- `%x` writes the digits from ten on as small letters. -/
def lowerHex (n : ℕ) : UInt8 := if n < 10 then UInt8.ofNat (48 + n) else UInt8.ofNat (87 + n)

lemma lowerHex_spec {n : ℕ} (h : n < 16) :
    lowerHex n ≠ 0 ∧ upper (lowerHex n) = upperHex n ∧
      (lowerHex n = 'f'.toUInt8 ↔ upperHex n = 'F'.toUInt8) := by
  have hall : ∀ n < 16, lowerHex n ≠ 0 ∧ upper (lowerHex n) = upperHex n ∧
      (lowerHex n = 'f'.toUInt8 ↔ upperHex n = 'F'.toUInt8) := by decide
  exact hall n h

/-- A byte from `0x80` on is negative, and six digits `f` stand before its own. -/
lemma hex_high (b : UInt8) : 0x80 ≤ b → hex (promote b) =
    List.replicate 6 'f'.toUInt8 ++ [lowerHex (b.toNat / 16), lowerHex (b.toNat % 16)] :=
  forall_byte (P := fun b => 0x80 ≤ b → hex (promote b) =
    List.replicate 6 'f'.toUInt8 ++ [lowerHex (b.toNat / 16), lowerHex (b.toNat % 16)])
    (by decide +kernel) b

/-- The row of such a byte. -/
lemma kept_high {c d : UInt8} (hc : c ≠ 0) (hd : d ≠ 0) :
    kept (strcpy (List.replicate 30 0) (List.replicate 6 'f'.toUInt8 ++ [c, d])) =
      [c, d].filter (· ≠ 'f'.toUInt8) := by
  have hnul : NulFree (List.replicate 6 'f'.toUInt8 ++ [c, d]) := by
    refine NulFree.append (by decide) ?_
    intro e he
    rcases List.mem_pair.mp he with rfl | rfl
    · exact hc
    · exact hd
  have hcopy : strcpy (List.replicate 30 0) (List.replicate 6 'f'.toUInt8 ++ [c, d]) =
      List.replicate 6 'f'.toUInt8 ++ [c, d] ++ 0 :: List.replicate 21 0 := by
    rw [strcpy, strlen, cstr_of_nulFree hnul]
    rfl
  have hrow : (List.range 9).map ((List.replicate 6 'f'.toUInt8 ++ [c, d] ++
      0 :: List.replicate 21 0).getD · 0) = List.replicate 6 'f'.toUInt8 ++ [c, d, 0] := rfl
  rw [hcopy, kept, strlen_append_nul hnul, if_pos (by simp), hrow]
  simp [List.filter_cons, hc, hd]

/-- The one line of the crawler's key: the digits of the byte, less every `F`. -/
lemma map_upper_kept (b : UInt8) (hb : 0x80 ≤ b) :
    (kept (printed b)).map upper = (digits b).filter (· ≠ 'F'.toUInt8) := by
  have hlt := b.toNat_lt
  obtain ⟨hc, hupc, hFc⟩ := lowerHex_spec (n := b.toNat / 16) (by omega)
  obtain ⟨hd, hupd, hFd⟩ := lowerHex_spec (n := b.toNat % 16) (by omega)
  rw [printed, hex_high b hb, kept_high hc hd, digits]
  simp only [List.filter_cons, List.filter_nil, hFc, hFd, ne_eq]
  split_ifs <;> simp [hupc, hupd]

lemma nulFree_kept (row : Bytes) : NulFree (kept row) := by
  intro c hc
  unfold kept at hc
  split_ifs at hc
  · exact (of_decide_eq_true (List.mem_filter.mp hc).2).2
  · cases hc

/-- A row of an ASCII byte is too short to be copied. -/
lemma kept_low (b : UInt8) : ¬ 0x80 ≤ b → kept (printed b) = [] :=
  forall_byte (P := fun b => ¬ 0x80 ≤ b → kept (printed b) = []) (by decide +kernel) b

lemma length_kept_le (b : UInt8) : (kept (printed b)).length ≤ 2 := by
  by_cases hb : 0x80 ≤ b
  · have hle := List.length_filter_le (· ≠ 'F'.toUInt8) (digits b)
    rw [← map_upper_kept b hb, List.length_map] at hle
    exact hle
  · rw [kept_low b hb]
    exact Nat.zero_le 2

lemma digits_ne_zero (b : UInt8) : ∀ c ∈ digits b, c ≠ 0 ∧ c ≠ '%'.toUInt8 := by
  have h : (digits b).all (fun c => c ≠ 0 ∧ c ≠ '%'.toUInt8) = true :=
    forall_byte (P := fun b => (digits b).all (fun c => c ≠ 0 ∧ c ≠ '%'.toUInt8) = true)
      (by decide +kernel) b
  simpa using h

lemma noF_iff (b : UInt8) : NoF b ↔ ∀ c ∈ digits b, c ≠ 'F'.toUInt8 := by
  have h : decide (NoF b) = (digits b).all (fun c => c ≠ 'F'.toUInt8) :=
    forall_byte (P := fun b => decide (NoF b) = (digits b).all (fun c => c ≠ 'F'.toUInt8))
      (by decide +kernel) b
  rw [← decide_eq_true_iff (p := NoF b), h]
  simp

/-! ### The two keys -/

/-- The digits of all bytes of a name. -/
def nameDigits (name : Bytes) : Bytes := name.flatMap digits

lemma kept_blank : kept (List.replicate 30 0) = [] := by decide

/-- What `UncodeTostr` copies of a name. -/
def copied (name : Bytes) : Bytes := name.flatMap fun b => kept (printed b)

lemma flatMap_kept {name : Bytes} (k : ℕ) :
    (name.map printed ++ List.replicate k (List.replicate 30 0)).flatMap kept = copied name := by
  have hblank : (List.replicate k (List.replicate 30 (0 : UInt8))).flatMap kept = [] := by
    refine List.flatMap_eq_nil_iff.mpr fun row hrow => ?_
    rw [List.eq_of_mem_replicate hrow, kept_blank]
  rw [List.flatMap_append, hblank, List.append_nil, List.flatMap_map, copied]

lemma length_copied_le (name : Bytes) : (copied name).length ≤ 2 * name.length := by
  unfold copied
  induction name with
  | nil => simp
  | cons b name ih =>
    have hb := length_kept_le b
    rw [List.flatMap_cons, List.length_append, List.length_cons]
    omega

lemma nulFree_copied (name : Bytes) : NulFree (copied name) := by
  intro c hc
  obtain ⟨b, -, hb⟩ := List.mem_flatMap.mp hc
  exact nulFree_kept _ c hb

lemma nulFree_overlay {d c : Bytes} (hd : NulFree d) (hc : NulFree c) : NulFree (overlay d c) :=
  hd.append fun x hx => hc x (List.mem_of_mem_drop hx)

/-- The first two loops of `UncodeTostr`, onto a buffer with a string in it. -/
lemma copyRows_printRows {name : Bytes} (hn : NulFree name) (hlen : name.length ≤ 20) (r c : Bytes)
    {m : ℕ} (hroom : 2 * name.length ≤ c.length + m) :
    copyRows (printRows (name ++ 0 :: r)) (c ++ List.replicate m 0) =
      overlay (copied name) c ++
        List.replicate (c.length + m - (overlay (copied name) c).length) 0 := by
  have hle := length_copied_le name
  have hfold := foldl_put (copied name) [] (c ++ List.replicate m 0) (by simp; omega)
  simp only [List.length_nil, List.nil_append] at hfold
  rw [copyRows_eq _ (by simp [printRows_eq hn hlen]; omega), printRows_eq hn hlen, flatMap_kept,
    hfold, List.drop_append, List.drop_replicate, overlay, List.append_assoc]
  simp
  omega

/-- **`UncodeTostr`** onto a buffer with a string in it: the new digits over the old string. -/
lemma uncodeTostr_eq {name : Bytes} (hn : NulFree name) (hlen : name.length ≤ 20) (r : Bytes)
    {c : Bytes} (hc : NulFree c) {m : ℕ} (hm : 0 < m) (hroom : 2 * name.length < c.length + m) :
    uncodeTostr (name ++ 0 :: r) (c ++ List.replicate m 0) =
      (overlay (copied name) c).map upper ++
        List.replicate (c.length + m - (overlay (copied name) c).length) 0 := by
  have hle := length_copied_le name
  have hlength := length_overlay (copied name) c
  obtain ⟨j, hj⟩ : ∃ j, c.length + m - (overlay (copied name) c).length = j + 1 :=
    ⟨c.length + m - (overlay (copied name) c).length - 1, by omega⟩
  rw [uncodeTostr, copyRows_printRows hn hlen r c hroom.le, hj, List.replicate_succ,
    upcase_append (nulFree_overlay (nulFree_copied name) hc)]

/-- The key the crawler makes of a name in a buffer of zeros. -/
def keyOf (name : Bytes) : Bytes := (copied name).map upper

lemma nulFree_keyOf (name : Bytes) : NulFree (keyOf name) :=
  nulFree_map_upper (nulFree_copied name)

lemma length_keyOf_le (name : Bytes) : (keyOf name).length ≤ 2 * name.length := by
  rw [keyOf, List.length_map]
  exact length_copied_le name

lemma crawlKey_zeros {name : Bytes} (hn : NulFree name) (hlen : name.length ≤ 20) {k : ℕ}
    (hk : 2 * name.length < k) (r : Bytes) :
    crawlKey (name ++ 0 :: r) (List.replicate k 0) = keyOf name := by
  have hle := length_copied_le name
  have hout := uncodeTostr_eq hn hlen r (c := []) (by simp [NulFree]) (m := k) (by omega)
    (by simpa using hk)
  obtain ⟨j, hj⟩ : ∃ j, k - (copied name).length = j + 1 :=
    ⟨k - (copied name).length - 1, by omega⟩
  simp only [List.nil_append, List.length_nil, Nat.zero_add, overlay_nil, hj,
    List.replicate_succ] at hout
  rw [crawlKey, hout, ← keyOf, cstr_append_nul (nulFree_keyOf name)]

lemma nulFree_of_high {name : Bytes} (hhi : ∀ b ∈ name, 0x80 ≤ b) : NulFree name := by
  intro b hb h0
  have := hhi b hb
  rw [h0] at this
  exact absurd this (by decide)

/-- **The crawler's key**: the digits of the name, less every `F`. -/
lemma crawlKey_eq {name : Bytes} (hhi : ∀ b ∈ name, 0x80 ≤ b) (hlen : name.length ≤ 20) {k : ℕ}
    (hk : 2 * name.length < k) (r : Bytes) :
    crawlKey (name ++ 0 :: r) (List.replicate k 0) =
      (nameDigits name).filter (· ≠ 'F'.toUInt8) := by
  rw [crawlKey_zeros (nulFree_of_high hhi) hlen hk r, keyOf, copied, List.map_flatMap, nameDigits,
    List.filter_flatMap]
  exact List.flatMap_congr fun b hb => map_upper_kept b (hhi b hb)

/-- The query string of a lookup. -/
def query (name : Bytes) : Bytes :=
  lit ['c', 'i', 't', 'y', 'n', 'a', 'm', 'e', '='] ++ percentEncode name

lemma filter_percentEncode (name : Bytes) :
    (percentEncode name).filter (· ≠ '%'.toUInt8) = nameDigits name := by
  rw [percentEncode, nameDigits, List.filter_flatMap]
  refine List.flatMap_congr fun b _ => ?_
  have h : (digits b).filter (· ≠ '%'.toUInt8) = digits b :=
    List.filter_eq_self.mpr fun c hc => by simpa using (digits_ne_zero b c hc).2
  simpa using h

lemma nulFree_percentEncode (name : Bytes) : NulFree (percentEncode name) := by
  intro c hc
  obtain ⟨b, -, hb⟩ := List.mem_flatMap.mp hc
  rcases List.mem_cons.mp hb with rfl | hb
  · decide
  · exact (digits_ne_zero b c hb).1

lemma afterEq_query (name r : Bytes) :
    afterEq (query name ++ 0 :: r) = some (percentEncode name ++ 0 :: r) := by
  simp only [query, lit, List.map_cons, List.map_nil, List.cons_append, List.nil_append]
  rfl

/-- **The CGI's key**: the digits of the name. -/
lemma queryKey_eq (name r str : Bytes) :
    queryKey (query name ++ 0 :: r) str = some (nameDigits name) := by
  rw [queryKey, find, afterEq_query, Option.map_some, Option.map_some,
    strcpy_nul (nulFree_percentEncode name), parseStr_append (nulFree_percentEncode name),
    filter_percentEncode]

lemma upperHex_inj : ∀ i j : Fin 16, upperHex i = upperHex j → i = j := by decide

lemma digits_inj {b c : UInt8} (h : digits b = digits c) : b = c := by
  have hb := b.toNat_lt
  have hc := c.toNat_lt
  simp only [digits, List.cons.injEq, and_true] at h
  have h1 := upperHex_inj ⟨b.toNat / 16, by omega⟩ ⟨c.toNat / 16, by omega⟩ h.1
  have h2 := upperHex_inj ⟨b.toNat % 16, by omega⟩ ⟨c.toNat % 16, by omega⟩ h.2
  simp only [Fin.mk.injEq] at h1 h2
  exact UInt8.toNat_inj.mp (by omega)

lemma nameDigits_inj {name name' : Bytes} (h : nameDigits name = nameDigits name') :
    name = name' := by
  unfold nameDigits at h
  induction name generalizing name' with
  | nil =>
    rcases name' with _ | ⟨c, name'⟩
    · rfl
    · simp [digits] at h
  | cons b name ih =>
    rcases name' with _ | ⟨c, name'⟩
    · simp [digits] at h
    · rw [List.flatMap_cons, List.flatMap_cons] at h
      obtain ⟨h1, h2⟩ := List.append_inj h (by simp [digits])
      rw [digits_inj h1, ih h2]

lemma filter_nameDigits_iff (name : Bytes) :
    (nameDigits name).filter (· ≠ 'F'.toUInt8) = nameDigits name ↔ ∀ b ∈ name, NoF b := by
  rw [List.filter_eq_self]
  constructor
  · intro h b hb
    exact (noF_iff b).mpr fun c hc => by
      simpa using h c (List.mem_flatMap.mpr ⟨b, hb, hc⟩)
  · intro h c hc
    obtain ⟨b, hb, hc⟩ := List.mem_flatMap.mp hc
    simpa using (noF_iff b).mp (h b hb) c hc

/-- A city name as `UncodeTostr` takes it. -/
def CityName (name : Bytes) : Prop := (∀ b ∈ name, 0x80 ≤ b) ∧ name.length ≤ 20

instance (name : Bytes) : Decidable (CityName name) :=
  @instDecidableAnd _ _ (List.decidableBAll (fun b => 0x80 ≤ b) name) (Nat.decLe _ _)

/-- **The keys agree exactly on names without the digit `F`.** The key stored for a name is the
key looked up for it if and only if no byte of the name has `F` for a digit; and two such names
with the same stored key are the same name. -/
theorem stored_eq_looked_up_iff {name : Bytes} (hname : CityName name) (r r' str : Bytes)
    {k : ℕ} (hk : 2 * name.length < k) :
    (queryKey (query name ++ 0 :: r') str =
      some (crawlKey (name ++ 0 :: r) (List.replicate k 0)) ↔ ∀ b ∈ name, NoF b) ∧
    ∀ name' k', CityName name' → 2 * name'.length < k' → (∀ b ∈ name, NoF b) →
      (∀ b ∈ name', NoF b) →
      crawlKey (name ++ 0 :: r) (List.replicate k 0) =
        crawlKey (name' ++ 0 :: r) (List.replicate k' 0) → name = name' := by
  refine ⟨?_, fun name' k' hname' hk' hF hF' hkey => ?_⟩
  · rw [queryKey_eq, crawlKey_eq hname.1 hname.2 hk, Option.some.injEq, eq_comm]
    exact filter_nameDigits_iff name
  · rw [crawlKey_eq hname.1 hname.2 hk, crawlKey_eq hname'.1 hname'.2 hk',
      (filter_nameDigits_iff name).mpr hF, (filter_nameDigits_iff name').mpr hF'] at hkey
    exact nameDigits_inj hkey

/-- Beijing, of `city.txt`. -/
def beijing : Bytes := [0xE5, 0x8C, 0x97, 0xE4, 0xBA, 0xAC]

theorem stored_eq_looked_up_beijing :
    queryKey (query beijing ++ 0 :: []) (List.replicate 33 0) =
      some (crawlKey (beijing ++ 0 :: []) (List.replicate 50 0)) :=
  (stored_eq_looked_up_iff (by decide) [] [] _ (by decide)).1.mpr (by simp [beijing, NoF])

/-- Dalian, of `city.txt`: the byte `BF` is stored as `B`. -/
def dalian : Bytes := [0xE5, 0xA4, 0xA7, 0xE8, 0xBF, 0x9E]

theorem stored_ne_looked_up_dalian :
    CityName dalian ∧ dalian ≠ [] ∧
      queryKey (query dalian ++ 0 :: []) (List.replicate 37 0) ≠
        some (crawlKey (dalian ++ 0 :: []) (List.replicate 50 0)) := by
  decide +kernel

end WeatherQuery.CityKey
