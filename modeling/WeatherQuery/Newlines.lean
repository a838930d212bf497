import Mathlib.Algebra.BigOperators.Group.List.Basic
import Mathlib.Algebra.Order.Ring.Int
import Mathlib.Data.List.Basic

/-!
Line ends of three kinds, and lines read in pieces.

A stream over any alphabet, with two symbols that end a line: `cr`, `lf`, or `cr` and `lf`
together, which count as one. The normalised stream has an `lf` for each of them. A reader with
a buffer takes a line in pieces: up to its end or as much as fits.
-/

namespace WeatherQuery.Newlines

variable {α : Type} [DecidableEq α] (cr lf : α)

/-! ### The normalised stream -/

/-- The symbols of the normalised stream, each with the number of symbols it stands for. -/
def units : List α → List (α × ℕ)
  | [] => []
  | [c] => [(if c = cr then lf else c, 1)]
  | c :: d :: r =>
    if c = cr then if d = lf then (lf, 2) :: units r else (lf, 1) :: units (d :: r)
    else (c, 1) :: units (d :: r)

def normalise (s : List α) : List α := (units cr lf s).map Prod.fst

/-- How many symbols the first `n` of the normalised stream stand for. -/
def span (s : List α) (n : ℕ) : ℕ := (((units cr lf s).take n).map Prod.snd).sum

variable {cr lf}

lemma units_lone {c : α} (hc : c ≠ cr) (r : List α) :
    units cr lf (c :: r) = (c, 1) :: units cr lf r := by
  cases r <;> simp [units, hc]

lemma units_crlf (r : List α) : units cr lf (cr :: lf :: r) = (lf, 2) :: units cr lf r := by
  simp [units]

lemma units_cr {r : List α} (hr : r.head? ≠ some lf) :
    units cr lf (cr :: r) = (lf, 1) :: units cr lf r := by
  cases r with
  | nil => simp [units]
  | cons d r =>
    have hd : d ≠ lf := by simpa using hr
    simp [units, hd]

variable (cr lf) in
/-- The first symbol of the normalised stream, and the rest of the stream after it. -/
lemma units_step (c : α) (r : List α) :
    ∃ u k, units cr lf (c :: r) = (u, k) :: units cr lf ((c :: r).drop k) ∧
      (cr ≠ lf → ¬ ((c :: r)[k - 1]? = some cr ∧ (c :: r)[k]? = some lf)) := by
  by_cases hc : c = cr
  · subst hc
    by_cases hr : r.head? = some lf
    · obtain ⟨t, rfl⟩ : ∃ t, r = lf :: t := by
        cases r <;> simp_all
      exact ⟨lf, 2, units_crlf t, fun hne => by simp [hne.symm]⟩
    · exact ⟨lf, 1, units_cr hr, fun _ => by simpa [← List.head?_eq_getElem?] using hr⟩
  · exact ⟨c, 1, units_lone hc r, fun _ => by simp [hc]⟩

lemma span_succ {c u : α} {r : List α} {k : ℕ}
    (hu : units cr lf (c :: r) = (u, k) :: units cr lf ((c :: r).drop k)) (n : ℕ) :
    span cr lf (c :: r) (n + 1) = k + span cr lf ((c :: r).drop k) n := by
  simp [span, hu]

lemma units_drop_span (s : List α) (n : ℕ) :
    units cr lf (s.drop (span cr lf s n)) = (units cr lf s).drop n := by
  induction n generalizing s with
  | zero => simp [span]
  | succ n ih =>
    cases s with
    | nil => simp [units]
    | cons c r =>
      obtain ⟨u, k, hu, -⟩ := units_step cr lf c r
      rw [span_succ hu, ← List.drop_drop, ih, hu, List.drop_succ_cons]

lemma normalise_drop_span (s : List α) (n : ℕ) :
    normalise cr lf (s.drop (span cr lf s n)) = (normalise cr lf s).drop n := by
  rw [normalise, units_drop_span, List.map_drop]
  rfl

lemma span_add (s : List α) (m n : ℕ) :
    span cr lf s (m + n) = span cr lf s m + span cr lf (s.drop (span cr lf s m)) n := by
  rw [span, List.take_add, List.map_append, List.sum_append, ← units_drop_span]
  rfl

lemma length_units_le (s : List α) : (units cr lf s).length ≤ s.length := by
  fun_induction units cr lf s with
  | case1 => simp
  | case2 c => simp
  | case3 r ih =>
    simp only [List.length_cons]
    omega
  | case4 d r hd ih => simpa using ih
  | case5 c d r hc ih => simpa using ih

lemma length_normalise_le (s : List α) : (normalise cr lf s).length ≤ s.length := by
  rw [normalise, List.length_map]
  exact length_units_le s

lemma units_pos {s : List α} {u : α × ℕ} (hu : u ∈ units cr lf s) : 0 < u.2 := by
  fun_induction units cr lf s with
  | case1 => simp at hu
  | case2 c =>
    obtain rfl := List.mem_singleton.mp hu
    exact Nat.one_pos
  | case3 r ih | case4 d r hd ih | case5 c d r hc ih =>
    rcases List.mem_cons.mp hu with rfl | hu
    · simp
    · exact ih hu

/-- More of the normalised stream stands for more of the stream. -/
lemma span_lt {s : List α} {m n : ℕ} (h : m < n) (hn : n ≤ (normalise cr lf s).length) :
    span cr lf s m < span cr lf s n := by
  obtain ⟨k, rfl⟩ : ∃ k, n = m + (k + 1) := ⟨n - m - 1, by omega⟩
  have hlen : 0 < (units cr lf (s.drop (span cr lf s m))).length := by
    rw [units_drop_span, List.length_drop]
    rw [normalise, List.length_map] at hn
    omega
  obtain ⟨u, us, hu⟩ := List.exists_cons_of_length_pos hlen
  have hmem : u ∈ units cr lf (s.drop (span cr lf s m)) := by simp [hu]
  have hpos : 0 < u.2 := units_pos hmem
  have hspan : u.2 ≤ span cr lf (s.drop (span cr lf s m)) (k + 1) := by
    rw [span, hu]
    simp
  rw [span_add]
  omega

/-- The two symbols of one line end are never parted. -/
lemma span_whole (hne : cr ≠ lf) (s : List α) (n : ℕ) :
    ¬ (s[span cr lf s n - 1]? = some cr ∧ s[span cr lf s n]? = some lf) := by
  induction n generalizing s with
  | zero =>
    rintro ⟨h, h'⟩
    simp only [span, List.take_zero, List.map_nil, List.sum_nil, Nat.zero_sub] at h h'
    exact hne (Option.some.inj (h.symm.trans h'))
  | succ n ih =>
    cases s with
    | nil => simp
    | cons c r =>
      obtain ⟨u, k, hu, hwhole⟩ := units_step cr lf c r
      rw [span_succ hu]
      rcases Nat.eq_zero_or_pos (span cr lf ((c :: r).drop k) n) with h0 | hpos
      · rw [h0, Nat.add_zero]
        exact hwhole hne
      · have hdrop := ih ((c :: r).drop k)
        rwa [List.getElem?_drop, List.getElem?_drop, ← Nat.add_sub_assoc hpos] at hdrop

lemma normalise_of_notMem {s : List α} (h : cr ∉ s) : normalise cr lf s = s := by
  induction s with
  | nil => rfl
  | cons c r ih =>
    obtain ⟨hc, hr⟩ : cr ≠ c ∧ cr ∉ r := by simpa using h
    rw [normalise, units_lone hc.symm, List.map_cons]
    exact congrArg _ (ih hr)

/-- A line that ends with both symbols. -/
lemma normalise_line {line : List α} (h : cr ∉ line) (r : List α) :
    normalise cr lf (line ++ cr :: lf :: r) = line ++ lf :: normalise cr lf r := by
  induction line with
  | nil => rw [List.nil_append, normalise, units_crlf, List.map_cons, List.nil_append, normalise]
  | cons c line ih =>
    obtain ⟨hc, hline⟩ : cr ≠ c ∧ cr ∉ line := by simpa using h
    rw [List.cons_append, normalise, units_lone hc.symm, List.map_cons]
    exact congrArg _ (ih hline)

/-! ### Pieces -/

variable (lf) in
/-- What a reader takes of a line with room for so many symbols. -/
def piece : ℕ → List α → List α
  | 0, _ => []
  | _ + 1, [] => []
  | room + 1, c :: t => if c = lf then [lf] else c :: piece room t

lemma piece_line {line : List α} (hl : lf ∉ line) {room : ℕ} (h : line.length < room)
    (t : List α) : piece lf room (line ++ lf :: t) = line ++ [lf] := by
  induction line generalizing room with
  | nil =>
    obtain ⟨room, rfl⟩ : ∃ k, room = k + 1 := ⟨room - 1, by simp at h; omega⟩
    simp [piece]
  | cons c line ih =>
    obtain ⟨room, rfl⟩ : ∃ k, room = k + 1 := ⟨room - 1, by simp at h; omega⟩
    obtain ⟨hc, hline⟩ : lf ≠ c ∧ lf ∉ line := by simpa using hl
    rw [List.cons_append, piece, if_neg hc.symm, ih hline (by simp at h; omega)]
    rfl

lemma piece_full {line : List α} (hl : lf ∉ line) {room : ℕ} (h : room ≤ line.length)
    (t : List α) : piece lf room (line ++ t) = line.take room := by
  induction line generalizing room with
  | nil =>
    obtain rfl : room = 0 := by simpa using h
    rfl
  | cons c line ih =>
    obtain ⟨hc, hline⟩ : lf ≠ c ∧ lf ∉ line := by simpa using hl
    cases room with
    | zero => rfl
    | succ room =>
      rw [List.cons_append, piece, if_neg hc.symm, ih hline (by simp at h; omega)]
      rfl

/-- The end of a line alone. -/
lemma piece_end {room : ℕ} (hroom : 0 < room) (t : List α) : piece lf room (lf :: t) = [lf] :=
  piece_line (List.not_mem_nil) hroom t

variable (lf) in
/-- The pieces of a stream up to the first that is an empty line. -/
inductive Cut (room : ℕ) : List α → List (List α) → Prop
  | last {t : List α} (h : piece lf room t = [lf]) : Cut room t [[lf]]
  | more {t : List α} {ps : List (List α)} (h : piece lf room t ≠ [lf])
      (hps : Cut room (t.drop (piece lf room t).length) ps) : Cut room t (piece lf room t :: ps)

lemma cut_iff_of_ne {room : ℕ} {t : List α} {ps : List (List α)} (h : piece lf room t ≠ [lf]) :
    Cut lf room t ps ↔
      ∃ qs, ps = piece lf room t :: qs ∧ Cut lf room (t.drop (piece lf room t).length) qs := by
  constructor
  · intro hcut
    cases hcut with
    | last hlast => exact absurd hlast h
    | more _ hps => exact ⟨_, rfl, hps⟩
  · rintro ⟨qs, rfl, hqs⟩
    exact .more h hqs

section Line

variable {room : ℕ} {line : List α} (hl : lf ∉ line) {t : List α} {ps : List (List α)}
include hl

/-- A line that fits is one piece. -/
lemma cut_fits_iff (hne : line ≠ []) (h : line.length < room) :
    Cut lf room (line ++ lf :: t) ps ↔ ∃ qs, ps = (line ++ [lf]) :: qs ∧ Cut lf room t qs := by
  have hpiece := piece_line hl h t
  have hdrop : (line ++ lf :: t).drop (line ++ [lf]).length = t := by simp
  rw [cut_iff_of_ne (by simpa [hpiece] using hne), hpiece, hdrop]

/-- A line that does not fit leaves its remainder. -/
lemma cut_full_iff (h : room ≤ line.length) :
    Cut lf room (line ++ lf :: t) ps ↔
      ∃ qs, ps = line.take room :: qs ∧ Cut lf room (line.drop room ++ lf :: t) qs := by
  have hpiece := piece_full hl h (lf :: t)
  have hne : piece lf room (line ++ lf :: t) ≠ [lf] := by
    rw [hpiece]
    intro heq
    exact hl (List.mem_of_mem_take (heq ▸ List.mem_singleton_self lf))
  rw [cut_iff_of_ne hne, hpiece, List.length_take_of_le h, List.drop_append_of_le_length h]

end Line

/-- A line that is not empty is read in pieces. When they fill the room exactly, the end of the
line is a piece of its own and looks like an empty line. -/
lemma cut_line {room : ℕ} (hroom : 0 < room) {line : List α} (hl : lf ∉ line) (hne : line ≠ [])
    (t : List α) :
    ∃ qs, qs.flatten = line ++ [lf] ∧ qs.length ≤ qs.flatten.length ∧
      (room ∣ line.length → Cut lf room (line ++ lf :: t) qs) ∧
      (¬ room ∣ line.length →
        ∀ ps, Cut lf room t ps → Cut lf room (line ++ lf :: t) (qs ++ ps)) := by
  induction hn : line.length using Nat.strong_induction_on generalizing line with
  | _ n ih =>
    have hpos : 0 < line.length := List.length_pos_iff.mpr hne
    rcases Nat.lt_or_ge line.length room with hlt | hge
    · refine ⟨[line ++ [lf]], by simp, by simp, fun hdvd => ?_, fun _ ps hps => ?_⟩
      · have := Nat.le_of_dvd (by omega) hdvd
        omega
      · exact (cut_fits_iff hl hne hlt).mpr ⟨ps, rfl, hps⟩
    · have hmore {ps : List (List α)} (hps : Cut lf room (line.drop room ++ lf :: t) ps) :
          Cut lf room (line ++ lf :: t) (line.take room :: ps) :=
        (cut_full_iff hl hge).mpr ⟨ps, rfl, hps⟩
      by_cases hrest : line.drop room = []
      · -- the end of the line is left over
        have hlen : line.length = room := le_antisymm (List.drop_eq_nil_iff.mp hrest) hge
        have htake : line.take room = line := List.take_of_length_le hlen.le
        have hlast : Cut lf room (line.drop room ++ lf :: t) [[lf]] := by
          rw [hrest, List.nil_append]
          exact .last (piece_end hroom t)
        refine ⟨[line, [lf]], by simp, by simp; omega, fun _ => ?_, fun hdvd => ?_⟩
        · simpa [htake] using hmore hlast
        · exact absurd (by rw [← hn, hlen]) hdvd
      · have hrestlen : (line.drop room).length = n - room := by simp [hn]
        obtain ⟨qs, hflat, hlen, hstop, hgo⟩ := ih (n - room) (by omega)
          (fun h => hl (List.mem_of_mem_drop h)) hrest hrestlen
        have hdvd : room ∣ n - room ↔ room ∣ n :=
          (Nat.dvd_sub_iff_left (by omega) (dvd_refl room))
        refine ⟨line.take room :: qs, ?_, ?_, fun h => ?_, fun h ps hps => ?_⟩
        · rw [List.flatten_cons, hflat, ← List.append_assoc, List.take_append_drop]
        · rw [List.flatten_cons, List.length_cons, List.length_append, List.length_take_of_le hge]
          omega
        · exact hmore (hstop (hdvd.mpr h))
        · exact hmore (hgo (fun h' => h (hdvd.mp h')) ps hps)

/-- Lines with their ends. -/
def block (lf : α) (lines : List (List α)) : List α := lines.flatMap (· ++ [lf])

omit [DecidableEq α] in
lemma block_cons (l : List α) (lines : List (List α)) :
    block lf (l :: lines) = l ++ lf :: block lf lines := by simp [block]

lemma normalise_block {cr : α} {lines : List (List α)} (h : ∀ l ∈ lines, cr ∉ l) (r : List α) :
    normalise cr lf (lines.flatMap (· ++ [cr, lf]) ++ r) =
      block lf lines ++ normalise cr lf r := by
  induction lines with
  | nil => rfl
  | cons l lines ih =>
    obtain ⟨hl, hlines⟩ := List.forall_mem_cons.mp h
    have hcons : (l :: lines).flatMap (· ++ [cr, lf]) ++ r =
        l ++ cr :: lf :: (lines.flatMap (· ++ [cr, lf]) ++ r) := by simp
    rw [hcons, normalise_line hl, ih hlines, block_cons, List.append_assoc, List.cons_append]

omit [DecidableEq α] in
lemma length_le_block (lines : List (List α)) : lines.length ≤ (block lf lines).length := by
  induction lines with
  | nil => rfl
  | cons l lines ih =>
    rw [block_cons, List.length_append, List.length_cons, List.length_cons]
    omega

/-- **Reading to the empty line.** The pieces of a block of lines that an empty line follows end
at that line exactly when no line of the block fills its pieces; else they end before it. -/
theorem cut_block {room : ℕ} (hroom : 0 < room) {lines : List (List α)}
    (hlines : ∀ l ∈ lines, l ≠ [] ∧ lf ∉ l) (rest : List α) :
    ∃ qs, Cut lf room (block lf lines ++ lf :: rest) qs ∧ qs.length ≤ qs.flatten.length ∧
      qs.flatten.length ≤ (block lf lines).length + 1 ∧
      (qs.flatten.length = (block lf lines).length + 1 ↔ ∀ l ∈ lines, ¬ room ∣ l.length) := by
  induction lines with
  | nil =>
    exact ⟨[[lf]], .last (piece_end hroom rest), by simp [block]⟩
  | cons l lines ih =>
    obtain ⟨⟨hne, hl⟩, hlines⟩ := List.forall_mem_cons.mp hlines
    obtain ⟨ps, hps, hlen, hle, hiff⟩ := ih hlines
    have hblock : block lf (l :: lines) ++ lf :: rest =
        l ++ lf :: (block lf lines ++ lf :: rest) := by simp [block_cons]
    have hblocklen : (block lf (l :: lines)).length = l.length + 1 + (block lf lines).length := by
      rw [block_cons, List.length_append, List.length_cons]
      omega
    obtain ⟨qs, hflat, hqs, hstop, hgo⟩ := cut_line hroom hl hne (block lf lines ++ lf :: rest)
    have hflatlen : qs.flatten.length = l.length + 1 := by simp [hflat]
    rw [hblock, hblocklen]
    by_cases hdvd : room ∣ l.length
    · refine ⟨qs, hstop hdvd, hqs, by omega, ?_⟩
      constructor
      · intro h
        omega
      · intro h
        exact absurd hdvd (h l (by simp))
    · refine ⟨qs ++ ps, hgo hdvd ps hps, ?_, ?_, ?_⟩
      · simp only [List.flatten_append, List.length_append]
        omega
      · simp only [List.flatten_append, List.length_append]
        omega
      · rw [List.forall_mem_cons, ← hiff]
        simp only [List.flatten_append, List.length_append, hdvd, not_false_eq_true, true_and]
        omega

/-- Lines that fit are read one by one. -/
lemma cut_short {room : ℕ} (hroom : 0 < room) {lines : List (List α)}
    (hlines : ∀ l ∈ lines, l ≠ [] ∧ lf ∉ l ∧ l.length < room) (rest : List α) :
    Cut lf room (block lf lines ++ lf :: rest) (lines.map (· ++ [lf]) ++ [[lf]]) := by
  induction lines with
  | nil => exact .last (piece_end hroom rest)
  | cons l lines ih =>
    obtain ⟨⟨hne, hl, hlen⟩, hlines⟩ := List.forall_mem_cons.mp hlines
    have hblock : block lf (l :: lines) ++ lf :: rest =
        l ++ lf :: (block lf lines ++ lf :: rest) := by simp [block_cons]
    rw [hblock]
    exact (cut_fits_iff hl hne hlen).mpr ⟨_, rfl, ih hlines⟩

/-! ### A stream to its end -/

variable (lf) in
/-- The lines of a stream that have an end. -/
def ended (t : List α) : List (List α) := (t.splitOn lf).dropLast

lemma ended_of_notMem {t : List α} (h : lf ∉ t) : ended lf t = [] := by
  rw [ended, List.splitOn_eq_singleton h]
  rfl

lemma ended_line {line : List α} (hl : lf ∉ line) (t : List α) :
    ended lf (line ++ lf :: t) = line :: ended lf t := by
  rw [ended, List.splitOn_append_cons_self_of_not_mem hl,
    List.dropLast_cons_of_ne_nil (List.splitOn_ne_nil lf t)]
  rfl

lemma notMem_of_mem_splitOn {t p : List α} (h : p ∈ t.splitOn lf) : lf ∉ p := by
  induction t generalizing p with
  | nil =>
    obtain rfl : p = [] := by simpa using h
    exact List.not_mem_nil
  | cons c t ih =>
    rw [List.splitOn_cons_eq_if_modifyHead] at h
    split_ifs at h with hc
    · rcases List.mem_cons.mp h with rfl | h
      · exact List.not_mem_nil
      · exact ih h
    · rcases hsplit : t.splitOn lf with _ | ⟨q, qs⟩
      · exact absurd hsplit (List.splitOn_ne_nil lf t)
      · rw [hsplit, List.modifyHead_cons] at h
        rcases List.mem_cons.mp h with rfl | h
        · have hq : lf ∉ q := ih (by simp [hsplit])
          have hne : lf ≠ c := fun heq => hc (by simp [heq])
          simp [hne, hq]
        · exact ih (by simp [hsplit, h])

/-- Splitting a block gives back its lines exactly when none of them has the separator in it. -/
lemma splitOn_block_iff (lines : List (List α)) :
    (block lf lines).splitOn lf = lines ++ [[]] ↔ ∀ l ∈ lines, lf ∉ l := by
  constructor
  · intro h l hl
    exact notMem_of_mem_splitOn (t := block lf lines) (by rw [h]; simp [hl])
  · intro h
    induction lines with
    | nil => simp [block]
    | cons l lines ih =>
      obtain ⟨hl, hlines⟩ := List.forall_mem_cons.mp h
      rw [block_cons, List.splitOn_append_cons_self_of_not_mem hl, ih hlines, List.cons_append]

lemma isPrefix_piece (room : ℕ) (t : List α) : piece lf room t <+: t := by
  fun_induction piece lf room t with
  | case1 t => exact List.nil_prefix
  | case2 room => exact List.nil_prefix
  | case3 room t => exact List.prefix_append [lf] t
  | case4 room c t hc ih => exact (List.prefix_cons_inj c).mpr ih

lemma Cut.mem {room : ℕ} {t : List α} {ps : List (List α)} (h : Cut lf room t ps) : lf ∈ t := by
  induction h with
  | last h => exact (isPrefix_piece room _).subset (h ▸ List.mem_singleton_self lf)
  | more h hps ih => exact List.mem_of_mem_drop ih

/-- Reading goes on behind a line that leaves no line end over. -/
lemma Cut.behind {room : ℕ} (hroom : 0 < room) {line : List α} (hl : lf ∉ line)
    (hdvd : ¬ room ∣ line.length) {t : List α} {ps : List (List α)}
    (h : Cut lf room (line ++ lf :: t) ps) : ∃ qs, Cut lf room t qs := by
  induction hn : line.length using Nat.strong_induction_on generalizing line ps with
  | _ n ih =>
    have hne : line ≠ [] := by
      rintro rfl
      exact hdvd (Nat.dvd_zero room)
    rcases Nat.lt_or_ge line.length room with hlt | hge
    · obtain ⟨qs, -, hqs⟩ := (cut_fits_iff hl hne hlt).mp h
      exact ⟨qs, hqs⟩
    · obtain ⟨qs, -, hqs⟩ := (cut_full_iff hl hge).mp h
      have hdrop : ¬ room ∣ (line.drop room).length := by
        rw [List.length_drop, Nat.dvd_sub_iff_left hge (dvd_refl room)]
        exact hdvd
      exact ih (n - room) (by omega) (fun h => hl (List.mem_of_mem_drop h)) hdrop hqs
        (by rw [List.length_drop, hn])

/-- **Reading to the end.** A reader finds an empty line exactly when a line that ends fills its
pieces. -/
theorem exists_cut_iff {room : ℕ} (hroom : 0 < room) (t : List α) :
    (∃ ps, Cut lf room t ps) ↔ ∃ l ∈ ended lf t, room ∣ l.length := by
  induction hn : t.length using Nat.strong_induction_on generalizing t with
  | _ n ih =>
    by_cases ht : lf ∈ t
    · obtain ⟨line, r, rfl, hl⟩ := List.eq_append_cons_of_mem ht
      have hr := ih r.length (by simp [← hn]; omega) r rfl
      rw [ended_line hl, List.exists_mem_cons_iff, ← hr]
      by_cases hdvd : room ∣ line.length
      · refine iff_of_true ?_ (.inl hdvd)
        rcases line with _ | ⟨c, line⟩
        · exact ⟨_, .last (piece_end hroom r)⟩
        · obtain ⟨qs, -, -, hstop, -⟩ := cut_line hroom hl (by simp) r
          exact ⟨qs, hstop hdvd⟩
      · constructor
        · rintro ⟨ps, hps⟩
          exact .inr (hps.behind hroom hl hdvd)
        · rintro (h | ⟨ps, hps⟩)
          · exact absurd h hdvd
          · have hne : line ≠ [] := by
              rintro rfl
              exact hdvd (Nat.dvd_zero room)
            obtain ⟨qs, -, -, -, hgo⟩ := cut_line hroom hl hne r
            exact ⟨qs ++ ps, hgo hdvd ps hps⟩
    · rw [ended_of_notMem ht]
      refine iff_of_false ?_ (by simp)
      rintro ⟨ps, hps⟩
      exact ht hps.mem

lemma piece_ne_nil {room : ℕ} (hroom : 0 < room) {t : List α} (ht : t ≠ []) :
    piece lf room t ≠ [] := by
  obtain ⟨room, rfl⟩ : ∃ k, room = k + 1 := ⟨room - 1, by omega⟩
  rcases t with _ | ⟨c, t⟩
  · exact absurd rfl ht
  · unfold piece
    split_ifs <;> simp

lemma length_piece_le (room : ℕ) (t : List α) : (piece lf room t).length ≤ room := by
  fun_induction piece lf room t with
  | case1 t => simp
  | case2 room => simp
  | case3 room t => simp
  | case4 room c t hc ih => simpa using ih

/-- A line end is the last symbol of a piece. -/
lemma notMem_dropLast_piece (room : ℕ) (t : List α) : lf ∉ (piece lf room t).dropLast := by
  fun_induction piece lf room t with
  | case1 t => simp
  | case2 room => simp
  | case3 room t => simp
  | case4 room c t hc ih =>
    rcases hp : piece lf room t with _ | ⟨d, p⟩
    · simp
    · rw [hp] at ih
      simp [Ne.symm hc, ih]

/-- A piece without one fills the room, or the stream is at its end. -/
lemma piece_open {room : ℕ} {t : List α} (h : (piece lf room t).getLast? ≠ some lf) :
    (piece lf room t).length = room ∨ piece lf room t = t := by
  fun_induction piece lf room t with
  | case1 t => exact .inl rfl
  | case2 room => exact .inr rfl
  | case3 room t => exact absurd rfl h
  | case4 room c t hc ih =>
    have hlast : (piece lf room t).getLast? ≠ some lf := by
      intro hp
      exact h (by rw [List.getLast?_cons, hp]; rfl)
    rcases ih hlast with ih | ih
    · exact .inl (by rw [List.length_cons, ih])
    · exact .inr (by rw [ih])

variable (lf) in
/-- The pieces of a stream up to its end. -/
inductive Pieces (room : ℕ) : List α → List (List α) → Prop
  | done : Pieces room [] []
  | more {t : List α} {ps : List (List α)} (ht : t ≠ [])
      (hps : Pieces room (t.drop (piece lf room t).length) ps) :
      Pieces room t (piece lf room t :: ps)

lemma exists_pieces {room : ℕ} (hroom : 0 < room) (t : List α) : ∃ ps, Pieces lf room t ps := by
  induction hn : t.length using Nat.strong_induction_on generalizing t with
  | _ n ih =>
    by_cases ht : t = []
    · exact ⟨[], ht ▸ .done⟩
    · have hpos : 0 < (piece lf room t).length := List.length_pos_iff.mpr (piece_ne_nil hroom ht)
      have htpos : 0 < t.length := List.length_pos_iff.mpr ht
      obtain ⟨ps, hps⟩ := ih (t.drop (piece lf room t).length).length
        (by rw [List.length_drop]; omega) _ rfl
      exact ⟨_, .more ht hps⟩

section Pieces

variable {room : ℕ} {t : List α} {ps : List (List α)}

/-- Nothing is lost between the pieces. -/
lemma Pieces.flatten_eq (h : Pieces lf room t ps) : ps.flatten = t := by
  induction h with
  | done => rfl
  | more ht hps ih => rw [List.flatten_cons, ih, List.prefix_iff_eq_append.mp (isPrefix_piece _ _)]

lemma Pieces.shape (h : Pieces lf room t ps) :
    ∀ p ∈ ps, p.length ≤ room ∧ lf ∉ p.dropLast := by
  induction h with
  | done => simp
  | more ht hps ih =>
    rw [List.forall_mem_cons]
    exact ⟨⟨length_piece_le _ _, notMem_dropLast_piece _ _⟩, ih⟩

lemma Pieces.nil_inv (h : Pieces lf room [] ps) : ps = [] := by
  cases h with
  | done => rfl
  | more ht hps => exact absurd rfl ht

/-- Every piece takes something. -/
lemma Pieces.length_le (hroom : 0 < room) (h : Pieces lf room t ps) : ps.length ≤ t.length := by
  induction h with
  | done => rfl
  | @more t ps ht hps ih =>
    have hpos : 0 < (piece lf room t).length := List.length_pos_iff.mpr (piece_ne_nil hroom ht)
    have htpos : 0 < t.length := List.length_pos_iff.mpr ht
    rw [List.length_drop] at ih
    rw [List.length_cons]
    omega

/-- Only the last piece can be short and without a line end. -/
lemma Pieces.open_full (h : Pieces lf room t ps) {pre post : List (List α)} {p : List α}
    (hps : ps = pre ++ p :: post) (hp : p.getLast? ≠ some lf) : p.length = room ∨ post = [] := by
  induction h generalizing pre with
  | done => simp at hps
  | @more t ps ht htail ih =>
    rcases pre with _ | ⟨q, pre⟩
    · obtain ⟨rfl, rfl⟩ := List.cons.inj hps
      refine (piece_open hp).imp id fun hall => ?_
      rw [hall, List.drop_length] at htail
      exact htail.nil_inv
    · obtain ⟨-, hps⟩ := List.cons.inj hps
      exact ih hps

end Pieces

end WeatherQuery.Newlines
