import WeatherQuery.CText
import WeatherQuery.Overwrite

/-!
A filter that works in place.

One index walks over the string, another over the places where the bytes that stay are put. The
second never overtakes the first, so every byte is read before it is written over. The bound of
the loop is read again before every turn, and it stays the same up to the turn that moves the
NUL.
-/

namespace WeatherQuery.InPlace

open WeatherQuery.CText WeatherQuery.Overwrite

section Loop

variable {σ : Type*} (guard : ℕ → σ → Bool) (body : ℕ → σ → σ)

/-- The counter and the state at every test of the condition. There is no such list when the loop
is not done after `fuel` tests. -/
def forTests : ℕ → ℕ → σ → Option (List (ℕ × σ))
  | 0, _, _ => none
  | fuel + 1, i, s =>
    if guard i s then (forTests fuel (i + 1) (body i s)).map ((i, s) :: ·) else some [(i, s)]

variable {guard body} {s : ℕ → σ} {n : ℕ}

/-- A loop that takes `s 0` to `s 1` and so on comes to the first state that fails the test. -/
lemma forLoop_states (hgo : ∀ j < n, guard j (s j) = true ∧ body j (s j) = s (j + 1))
    (hstop : guard n (s n) = false) {i fuel : ℕ} (hi : i ≤ n) (hfuel : n - i ≤ fuel) :
    forLoop guard body fuel i (s i) = s n := by
  induction fuel generalizing i with
  | zero =>
    obtain rfl : i = n := by omega
    rfl
  | succ fuel ih =>
    rcases Nat.lt_or_ge i n with hlt | hge
    · obtain ⟨hguard, hbody⟩ := hgo i hlt
      rw [forLoop, if_pos hguard, hbody]
      exact ih hlt (by omega)
    · obtain rfl : i = n := by omega
      exact forLoop_done hstop _

lemma forTests_states (hgo : ∀ j < n, guard j (s j) = true ∧ body j (s j) = s (j + 1))
    (hstop : guard n (s n) = false) {i fuel : ℕ} (hi : i ≤ n) (hfuel : n - i < fuel) :
    forTests guard body fuel i (s i) =
      some ((List.range' i (n + 1 - i)).map fun j => (j, s j)) := by
  induction fuel generalizing i with
  | zero => omega
  | succ fuel ih =>
    rw [forTests]
    rcases Nat.lt_or_ge i n with hlt | hge
    · obtain ⟨hguard, hbody⟩ := hgo i hlt
      have hcount : n + 1 - i = n + 1 - (i + 1) + 1 := by omega
      rw [if_pos hguard, hbody, ih hlt (by omega), hcount, List.range'_succ]
      rfl
    · obtain rfl : i = n := by omega
      have hcount : i + 1 - i = 1 := by omega
      rw [hstop, hcount]
      rfl

end Loop

/-! ### The filter -/

/-- `i < strlen(buf) + 1`. -/
def more (i : ℕ) (st : ℕ × Bytes) : Bool := i < strlen st.2 + 1

/-- A turn: the byte at the first index is put at the second, unless it is to go. -/
def turn (drop : UInt8 → Bool) (i : ℕ) (st : ℕ × Bytes) : ℕ × Bytes :=
  if drop (st.2.getD i 0) then st else put st (st.2.getD i 0)

/-- Where the loop reads: the bound is a `strlen`, and a turn reads its own byte. -/
def readsAt (i : ℕ) (st : ℕ × Bytes) : List ℕ :=
  List.range (strlen st.2 + 1) ++ if more i st then [i] else []

/-- The indices read in a run of the loop; `none` when it does not come to an end. -/
def reads (drop : UInt8 → Bool) (fuel : ℕ) (buf : Bytes) : Option (List ℕ) :=
  (forTests more (turn drop) fuel 0 (0, buf)).map fun tests =>
    tests.flatMap fun p => readsAt p.1 p.2

section Filter

variable (drop : UInt8 → Bool) (t r : Bytes)

/-- The bytes that stay, of the first `j` bytes of the string and its NUL. -/
def moved (j : ℕ) : Bytes := ((t ++ [0]).take j).filter fun c => !drop c

/-- The loop before its turn `j`. -/
def stateAt (j : ℕ) : ℕ × Bytes :=
  ((moved drop t j).length, overlay (moved drop t j) (t ++ 0 :: r))

variable {drop t}

@[simp] lemma stateAt_zero : stateAt drop t r 0 = (0, t ++ 0 :: r) := by
  simp [stateAt, moved, overlay]

lemma length_moved_le (j : ℕ) : (moved drop t j).length ≤ j :=
  (List.length_filter_le _ _).trans (List.length_take_le _ _)

lemma put_overlay {k buf : Bytes} (h : k.length < buf.length) (c : UInt8) :
    put (k.length, overlay k buf) c = ((k ++ [c]).length, overlay (k ++ [c]) buf) := by
  have hdrop : buf.drop k.length = buf.getD k.length 0 :: buf.drop (k.length + 1) := by
    rw [List.drop_eq_getElem_cons h, List.getD_eq_getElem _ _ h]
  simp [put, overlay, hdrop, List.set_append_right]

/-- What has not been passed is as it was. -/
lemma getD_overlay {k buf : Bytes} {j : ℕ} (h : k.length ≤ j) :
    (overlay k buf).getD j 0 = buf.getD j 0 := by
  rw [overlay, List.getD_append_right _ _ _ _ h, List.getD_eq_getElem?_getD,
    List.getD_eq_getElem?_getD, List.getElem?_drop, Nat.add_sub_cancel' h]

lemma moved_succ {j : ℕ} (h : j < (t ++ [0]).length) :
    moved drop t (j + 1) = moved drop t j ++
      if drop ((t ++ 0 :: r).getD j 0) then [] else [(t ++ 0 :: r).getD j 0] := by
  have hsplit : t ++ 0 :: r = (t ++ [0]) ++ r := by simp
  have hbyte : (t ++ 0 :: r).getD j 0 = (t ++ [0])[j] := by
    rw [hsplit, List.getD_append _ _ _ _ h, List.getD_eq_getElem _ _ h]
  rw [hbyte, moved, List.take_succ_eq_append_getElem h, List.filter_append, ← moved]
  congr 1
  split_ifs with hd <;> simp [hd]

lemma turn_stateAt {j : ℕ} (h : j < (t ++ [0]).length) :
    turn drop j (stateAt drop t r j) = stateAt drop t r (j + 1) := by
  have hle : (moved drop t j).length ≤ j := length_moved_le j
  have hroom : (moved drop t j).length < (t ++ 0 :: r).length := by
    simp at h ⊢
    omega
  rw [turn, stateAt, getD_overlay hle, stateAt, moved_succ r h]
  split_ifs
  · rw [List.append_nil]
  · exact put_overlay hroom _

variable (ht : NulFree t)
include ht

lemma strlen_stateAt {j : ℕ} (h : j ≤ t.length) : strlen (stateAt drop t r j).2 = t.length := by
  have hmoved : moved drop t j = (t.take j).filter fun c => !drop c := by
    rw [moved, List.take_append_of_le_length h]
  have hnul : NulFree (moved drop t j ++ t.drop (moved drop t j).length) := by
    refine NulFree.append (fun c hc => ?_) fun c hc => ht c (List.mem_of_mem_drop hc)
    rw [hmoved] at hc
    exact ht c (List.mem_of_mem_take (List.mem_filter.mp hc).1)
  have hle : (moved drop t j).length ≤ t.length := (length_moved_le j).trans h
  rw [stateAt, overlay, List.drop_append_of_le_length hle, ← List.append_assoc,
    strlen_append_nul hnul, List.length_append, List.length_drop]
  omega

variable (h0 : drop 0 = false)
include h0

omit ht in
lemma moved_last : moved drop t (t.length + 1) = (t.filter fun c => !drop c) ++ [0] := by
  have hall : (t ++ [0]).take (t.length + 1) = t ++ [0] := List.take_of_length_le (by simp)
  rw [moved, hall, List.filter_append]
  simp [h0]

/-- The turns are those up to the NUL. -/
lemma more_stateAt :
    (∀ j < t.length + 1, more j (stateAt drop t r j) = true ∧
      turn drop j (stateAt drop t r j) = stateAt drop t r (j + 1)) ∧
    more (t.length + 1) (stateAt drop t r (t.length + 1)) = false := by
  constructor
  · intro j hj
    refine ⟨?_, turn_stateAt r (by simpa using hj)⟩
    rw [more, strlen_stateAt r ht (by omega)]
    simpa using hj
  · have hle : (t.filter fun c => !drop c).length ≤ t.length := List.length_filter_le _ _
    rw [more, stateAt, moved_last h0, overlay, List.append_assoc, List.singleton_append,
      strlen_append_nul (ht.filter _)]
    simp
    omega

end Filter

/-! ### What it leaves -/

/-- The buffer afterwards: the bytes that stay and the NUL, over the start of the old content. -/
def left (drop : UInt8 → Bool) (t r : Bytes) : Bytes :=
  overlay ((t.filter fun c => !drop c) ++ [0]) (t ++ 0 :: r)

section Left

variable {drop : UInt8 → Bool} {t : Bytes} (r : Bytes) (ht : NulFree t) (h0 : drop 0 = false)
include ht h0

/-- **The loop.** It puts the bytes that stay to the front, and the NUL behind them. -/
theorem forLoop_filter {fuel : ℕ} (hfuel : t.length < fuel) :
    (forLoop more (turn drop) fuel 0 (0, t ++ 0 :: r)).2 = left drop t r := by
  obtain ⟨hgo, hstop⟩ := more_stateAt r ht h0
  rw [← stateAt_zero, forLoop_states hgo hstop (Nat.zero_le _) (by omega), stateAt, moved_last h0,
    left]

/-- **Its reads.** The loop comes to an end and reads nothing behind the NUL. -/
theorem reads_filter {fuel : ℕ} (hfuel : t.length + 1 < fuel) :
    ∃ is, reads drop fuel (t ++ 0 :: r) = some is ∧ ∀ i ∈ is, i ≤ t.length := by
  obtain ⟨hgo, hstop⟩ := more_stateAt r ht h0
  have hcount : t.length + 1 - 0 < fuel := by omega
  have htests := forTests_states hgo hstop (Nat.zero_le _) hcount
  refine ⟨_, by rw [reads, ← stateAt_zero, htests, Option.map_some], ?_⟩
  intro i hi
  simp only [List.mem_flatMap, List.mem_map, List.mem_range'_1] at hi
  obtain ⟨-, ⟨j, hj, rfl⟩, hi⟩ := hi
  rcases Nat.lt_or_ge j (t.length + 1) with hlt | hge
  · rw [readsAt, strlen_stateAt r ht (by omega), if_pos (hgo j hlt).1, List.mem_append,
      List.mem_range, List.mem_singleton] at hi
    omega
  · obtain rfl : j = t.length + 1 := by omega
    have hlen : strlen (stateAt drop t r (t.length + 1)).2 ≤ t.length := by
      have hno := hstop
      rw [more, decide_eq_false_iff_not] at hno
      omega
    simp only [readsAt, hstop, List.mem_append, List.mem_range] at hi
    rcases hi with hi | hi
    · omega
    · cases hi

omit ht h0 in
variable (drop t) in
lemma left_eq : ∃ r', left drop t r = (t.filter fun c => !drop c) ++ 0 :: r' :=
  ⟨_, by rw [left, overlay, List.append_assoc, List.singleton_append]⟩

omit h0 in
lemma cstr_left : cstr (left drop t r) = t.filter fun c => !drop c := by
  obtain ⟨r', hleft⟩ := left_eq drop t r
  rw [hleft, cstr_append_nul (ht.filter _)]

omit ht h0 in
/-- Nothing is moved where nothing is to go. -/
lemma left_of_all (h : ∀ c ∈ t, drop c = false) : left drop t r = t ++ 0 :: r := by
  have hall : (t.filter fun c => !drop c) = t :=
    List.filter_eq_self.mpr fun c hc => by simp [h c hc]
  rw [left, hall, overlay]
  simp

end Left

end WeatherQuery.InPlace
