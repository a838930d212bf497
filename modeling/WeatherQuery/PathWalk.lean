import Mathlib.Data.List.Basic
import Mathlib.Data.List.Infix

/-!
Walking a tree of directories.

A directory is the list of names that leads to it from the root. A walk stays, goes up or goes
down to a name at every step; above the root there is the root. Whatever the directory it starts
in, a walk amounts to some steps up and then some names down.
-/

namespace WeatherQuery.PathWalk

variable {α : Type*}

inductive Move (α : Type*)
  | stay
  | up
  | down (a : α)
  deriving DecidableEq

def move (dir : List α) : Move α → List α
  | .stay => dir
  | .up => dir.dropLast
  | .down a => dir ++ [a]

def walk (dir : List α) (ms : List (Move α)) : List α := ms.foldl move dir

@[simp] lemma walk_cons (dir : List α) (m : Move α) (ms : List (Move α)) :
    walk dir (m :: ms) = walk (move dir m) ms := rfl
lemma walk_append (dir : List α) (ms ns : List (Move α)) :
    walk dir (ms ++ ns) = walk (walk dir ms) ns := List.foldl_append

/-! ### Normal forms -/

/-- So many steps up, then these names down. -/
structure Net (α : Type*) where
  ups : ℕ
  names : List α
  deriving DecidableEq

def Net.then (n : Net α) : Move α → Net α
  | .stay => n
  | .up => if n.names.isEmpty then ⟨n.ups + 1, []⟩ else ⟨n.ups, n.names.dropLast⟩
  | .down a => ⟨n.ups, n.names ++ [a]⟩

def net (ms : List (Move α)) : Net α := ms.foldl Net.then ⟨0, []⟩

/-- Where a normal form leads. -/
def Net.apply (n : Net α) (dir : List α) : List α := dir.take (dir.length - n.ups) ++ n.names

lemma Net.apply_then (n : Net α) (m : Move α) (dir : List α) :
    (n.then m).apply dir = move (n.apply dir) m := by
  cases m with
  | stay => rfl
  | up =>
    rcases hn : n.names with _ | ⟨a, as⟩
    · have htake : dir.take (dir.length - (n.ups + 1)) =
          (dir.take (dir.length - n.ups)).dropLast := by
        rw [List.dropLast_eq_take, List.take_take, List.length_take]
        congr 1
        omega
      simp [Net.then, Net.apply, move, hn, htake]
    · simp [Net.then, Net.apply, move, hn, List.dropLast_append_of_ne_nil]
  | down a => simp [Net.then, Net.apply, move]

/-- **Normal forms.** A walk leads where its normal form leads. -/
theorem walk_eq_net (dir : List α) (ms : List (Move α)) : walk dir ms = (net ms).apply dir := by
  suffices h : ∀ n : Net α, walk (n.apply dir) ms = (ms.foldl Net.then n).apply dir by
    have h0 : (⟨0, []⟩ : Net α).apply dir = dir := by simp [Net.apply]
    rw [net, ← h, h0]
  induction ms with
  | nil => exact fun n => rfl
  | cons m ms ih =>
    intro n
    rw [walk_cons, ← Net.apply_then, ih, List.foldl_cons]

/-! ### Staying below a directory -/

/-- A walk that goes down to `a` first stays below `dir ++ [b]` exactly when it never climbs out
of `a` and `a` is `b`, or it climbs out and comes back. -/
theorem below_iff (dir : List α) (a b : α) (ms : List (Move α)) :
    dir ++ [b] <+: walk dir (.down a :: ms) ↔
      (a = b ∧ (net ms).ups = 0) ∨
      (1 ≤ (net ms).ups ∧
        dir.drop (dir.length - ((net ms).ups - 1)) ++ [b] <+: (net ms).names) := by
  rw [walk_cons, walk_eq_net]
  rcases hu : (net ms).ups with _ | u
  · have happly : (net ms).apply (move dir (.down a)) = dir ++ a :: (net ms).names := by
      have hlen : (dir ++ [a]).length - (net ms).ups = (dir ++ [a]).length := by omega
      simp only [Net.apply, move, hlen, List.take_length, List.append_assoc, List.cons_append,
        List.nil_append]
    rw [happly, List.prefix_append_right_inj]
    simp [eq_comm]
  · have happly : (net ms).apply (move dir (.down a)) =
        dir.take (dir.length - u) ++ (net ms).names := by
      simp [Net.apply, move, hu, List.take_append_of_le_length]
    have hdir : dir ++ [b] = dir.take (dir.length - u) ++ (dir.drop (dir.length - u) ++ [b]) := by
      rw [← List.append_assoc, List.take_append_drop]
    rw [happly, hdir, List.prefix_append_right_inj]
    simp

/-- A last step down to a name other than `b` neither enters nor leaves what is below
`dir ++ [b]`. -/
lemma below_down {dir place : List α} {a b : α} (h : a ≠ b) :
    dir ++ [b] <+: place ++ [a] ↔ dir ++ [b] <+: place := by
  rw [List.prefix_concat_iff]
  refine ⟨?_, Or.inr⟩
  rintro (heq | hpre)
  · exact absurd (List.append_inj' heq rfl).2 (by simpa using Ne.symm h)
  · exact hpre

end WeatherQuery.PathWalk
