import Mathlib.Data.List.Induction
import Mathlib.Logic.Function.Basic

/-!
Doubly linked lists.

The links are two partial maps on the nodes. A list of nodes is a chain when the links go along it
in both directions. Putting a node between two neighbours and taking one out write only at the node
and at its neighbours, and lists that meet none of them stay chains.
-/

namespace WeatherQuery.DLinked

variable {α : Type*}

structure Links (α : Type*) where
  next : α → Option α
  prev : α → Option α

/-- From `first` the links lead through the nodes to `stop`; before the first of them is
`before`. -/
def Seg (l : Links α) : Option α → Option α → List α → Option α → Prop
  | _, first, [], stop => first = stop
  | before, first, x :: xs, stop =>
    first = some x ∧ l.prev x = before ∧ Seg l (some x) (l.next x) xs stop

/-- The whole list that begins at `first`. -/
def Chain (l : Links α) (first : Option α) (xs : List α) : Prop := Seg l none first xs none

/-! ### Along a list -/

/-- Links that agree on a list lead along it alike. -/
lemma Seg.congr {l l' : Links α} {b f e : Option α} {xs : List α} (h : Seg l b f xs e)
    (hxs : ∀ x ∈ xs, l'.next x = l.next x ∧ l'.prev x = l.prev x) : Seg l' b f xs e := by
  induction xs generalizing b f with
  | nil => exact h
  | cons x xs ih =>
    obtain ⟨hf, hp, hrest⟩ := h
    obtain ⟨⟨hnx, hpx⟩, hxs⟩ := List.forall_mem_cons.mp hxs
    refine ⟨hf, hpx.trans hp, ?_⟩
    rw [hnx]
    exact ih hrest hxs

/-- Both ends of a list in two parts. -/
lemma seg_append {l : Links α} {b f e : Option α} {xs ys : List α} :
    Seg l b f (xs ++ ys) e ↔ ∃ m, Seg l b f xs m ∧ Seg l (xs.getLast?.or b) m ys e := by
  induction xs generalizing b f with
  | nil =>
    refine ⟨fun h => ⟨f, rfl, h⟩, ?_⟩
    rintro ⟨m, rfl, h⟩
    exact h
  | cons x xs ih =>
    have hlast : (x :: xs).getLast?.or b = xs.getLast?.or (some x) := by
      rcases xs with _ | ⟨y, xs⟩
      · rfl
      · simp [List.getLast?_cons]
    rw [hlast, List.cons_append]
    simp only [Seg, ih]
    constructor
    · rintro ⟨hf, hp, m, hxs, hys⟩
      exact ⟨m, ⟨hf, hp, hxs⟩, hys⟩
    · rintro ⟨m, ⟨hf, hp, hxs⟩, hys⟩
      exact ⟨hf, hp, m, hxs, hys⟩

lemma Seg.first_eq {l : Links α} {b f e : Option α} {xs : List α} (h : Seg l b f xs e) :
    f = xs.head?.or e := by
  rcases xs with _ | ⟨x, xs⟩
  · simpa [Seg] using h
  · exact h.1

/-- The neighbours of a node of a chain. -/
lemma Chain.neighbours {l : Links α} {f : Option α} {xs ys : List α} {t : α}
    (h : Chain l f (xs ++ t :: ys)) : l.prev t = xs.getLast? ∧ l.next t = ys.head? := by
  obtain ⟨m, -, -, hp, hys⟩ := seg_append.mp h
  exact ⟨by simpa using hp, by simpa using hys.first_eq⟩

lemma Chain.congr {l l' : Links α} {f : Option α} {xs : List α} (h : Chain l f xs)
    (hxs : ∀ x ∈ xs, l'.next x = l.next x ∧ l'.prev x = l.prev x) : Chain l' f xs :=
  Seg.congr h hxs

/-! ### Writing links -/

variable [DecidableEq α]

def Links.setNext (l : Links α) (a : Option α) (v : Option α) : Links α :=
  match a with
  | none => l
  | some a => { l with next := Function.update l.next a v }

def Links.setPrev (l : Links α) (a : Option α) (v : Option α) : Links α :=
  match a with
  | none => l
  | some a => { l with prev := Function.update l.prev a v }

/-- Put `t` between `p` and `q`. -/
def Links.link (l : Links α) (p : Option α) (t : α) (q : Option α) : Links α :=
  (((l.setNext p (some t)).setPrev (some t) p).setNext (some t) q).setPrev q (some t)

/-- Take `t` out. -/
def Links.unlink (l : Links α) (t : α) : Links α :=
  (l.setNext (l.prev t) (l.next t)).setPrev (l.next t) (l.prev t)

lemma setNext_next {l : Links α} {a : Option α} {v : Option α} {x : α} (h : a ≠ some x) :
    (l.setNext a v).next x = l.next x := by
  rcases a with _ | a
  · rfl
  · exact Function.update_of_ne (fun hxa => h (by rw [hxa])) _ _

lemma setPrev_prev {l : Links α} {a : Option α} {v : Option α} {x : α} (h : a ≠ some x) :
    (l.setPrev a v).prev x = l.prev x := by
  rcases a with _ | a
  · rfl
  · exact Function.update_of_ne (fun hxa => h (by rw [hxa])) _ _

@[simp] lemma setNext_next_self (l : Links α) (a : α) (v : Option α) :
    (l.setNext (some a) v).next a = v := Function.update_self _ _ _

@[simp] lemma setPrev_prev_self (l : Links α) (a : α) (v : Option α) :
    (l.setPrev (some a) v).prev a = v := Function.update_self _ _ _

@[simp] lemma setNext_prev (l : Links α) (a v : Option α) : (l.setNext a v).prev = l.prev := by
  cases a <;> rfl

@[simp] lemma setPrev_next (l : Links α) (a v : Option α) : (l.setPrev a v).next = l.next := by
  cases a <;> rfl

/-- Two links that point back alike still do after the same write. -/
lemma setPrev_congr {l l' : Links α} {a v : Option α} {x : α} (h : l.prev x = l'.prev x) :
    (l.setPrev a v).prev x = (l'.setPrev a v).prev x := by
  by_cases hax : a = some x
  · subst hax
    rw [setPrev_prev_self, setPrev_prev_self]
  · rw [setPrev_prev hax, setPrev_prev hax, h]

/-- The end of a segment, written anew. -/
lemma Seg.set_stop {l : Links α} {b f e : Option α} {xs : List α} (h : Seg l b f xs e)
    (hnd : xs.Nodup) (e' : Option α) :
    Seg (l.setNext xs.getLast? e') b (xs.head?.or e') xs e' := by
  induction xs using List.reverseRecOn with
  | nil => rfl
  | append_singleton xs x _ =>
    obtain ⟨m, hxs, hm, hp, he⟩ := seg_append.mp h
    have hx : x ∉ xs := by
      rw [List.nodup_append] at hnd
      exact fun hx => hnd.2.2 x hx x (by simp) rfl
    have hf := hxs.first_eq
    subst hm
    rw [List.getLast?_concat, seg_append]
    refine ⟨some x, ?_, rfl, by simpa using hp, by simp [Seg]⟩
    have hhead : (xs ++ [x]).head?.or e' = f := by
      rw [hf]
      cases xs <;> simp
    rw [hhead]
    refine hxs.congr fun y hy => ⟨setNext_next ?_, by simp⟩
    rintro hxy
    obtain rfl : x = y := by simpa using hxy
    exact hx hy

/-- The start of a segment, written anew. -/
lemma Seg.set_before {l : Links α} {b f e : Option α} {xs : List α} (h : Seg l b f xs e)
    (hnd : xs.Nodup) (b' : Option α) : Seg (l.setPrev xs.head? b') b' f xs e := by
  rcases xs with _ | ⟨x, xs⟩
  · exact h
  · obtain ⟨hf, -, hrest⟩ := h
    refine ⟨hf, by simp, ?_⟩
    rw [setPrev_next]
    refine hrest.congr fun y hy => ⟨by simp, setPrev_prev ?_⟩
    rintro hxy
    obtain rfl : x = y := by simpa using hxy
    exact (List.nodup_cons.mp hnd).1 hy

/-- **Insertion.** A node put between two neighbours. -/
theorem Chain.link {l : Links α} {f : Option α} {xs ys : List α} (h : Chain l f (xs ++ ys))
    (hnd : (xs ++ ys).Nodup) {t : α} (ht : t ∉ xs ++ ys) :
    Chain (l.link xs.getLast? t ys.head?) (xs.head?.or (some t)) (xs ++ t :: ys) := by
  obtain ⟨m, hxs, hys⟩ := seg_append.mp h
  rw [List.nodup_append] at hnd
  obtain ⟨hndx, hndy, hdis⟩ := hnd
  simp only [List.mem_append, not_or] at ht
  have hm : m = ys.head? := by simpa using hys.first_eq
  have hlast : ∀ y ∈ ys, xs.getLast? ≠ some y := fun y hy hl =>
    hdis y (List.mem_of_getLast? hl) y hy rfl
  have hhead : ∀ x ∈ xs, ys.head? ≠ some x := fun x hx hh =>
    hdis x hx x (List.mem_of_head? hh) rfl
  have hne : ∀ x, x ∈ xs ∨ x ∈ ys → (some t : Option α) ≠ some x := by
    rintro x hx hxt
    obtain rfl : t = x := by simpa using hxt
    exact hx.elim ht.1 ht.2
  have hlt : xs.getLast? ≠ some t := fun hl => ht.1 (List.mem_of_getLast? hl)
  have hht : ys.head? ≠ some t := fun hh => ht.2 (List.mem_of_head? hh)
  unfold Chain Links.link
  rw [seg_append]
  refine ⟨some t, ?_, rfl, ?_, ?_⟩
  · refine (hxs.set_stop hndx (some t)).congr fun x hx => ⟨?_, ?_⟩
    · rw [setPrev_next, setNext_next (hne x (.inl hx)), setPrev_next]
    · rw [setPrev_prev (hhead x hx), setNext_prev, setPrev_prev (hne x (.inl hx))]
  · rw [setPrev_prev hht, setNext_prev, setPrev_prev_self, Option.or_none]
  · rw [setPrev_next, setNext_next_self]
    rw [hm] at hys
    refine (hys.set_before hndy (some t)).congr fun y hy => ⟨?_, ?_⟩
    · rw [setPrev_next, setPrev_next, setNext_next (hne y (.inr hy)), setPrev_next,
        setNext_next (hlast y hy)]
    · refine setPrev_congr ?_
      rw [setNext_prev, setPrev_prev (hne y (.inr hy)), setNext_prev]

/-- **Removal.** A node taken out from between its neighbours. -/
theorem Chain.unlink {l : Links α} {f : Option α} {xs ys : List α} {t : α}
    (h : Chain l f (xs ++ t :: ys)) (hnd : (xs ++ t :: ys).Nodup) :
    Chain (l.unlink t) (xs.head?.or ys.head?) (xs ++ ys) := by
  obtain ⟨hprev, hnext⟩ := h.neighbours
  obtain ⟨m, hxs, -, -, hys⟩ := seg_append.mp h
  rw [List.nodup_append, List.nodup_cons] at hnd
  obtain ⟨hndx, ⟨-, hndy⟩, hdis⟩ := hnd
  have hlast : ∀ y ∈ ys, xs.getLast? ≠ some y := fun y hy hl =>
    hdis y (List.mem_of_getLast? hl) y (List.mem_cons_of_mem t hy) rfl
  have hhead : ∀ x ∈ xs, ys.head? ≠ some x := fun x hx hh =>
    hdis x hx x (List.mem_cons_of_mem t (List.mem_of_head? hh)) rfl
  unfold Chain Links.unlink
  rw [hprev, hnext, seg_append]
  refine ⟨ys.head?, ?_, ?_⟩
  · refine (hxs.set_stop hndx ys.head?).congr fun x hx => ⟨by rw [setPrev_next], ?_⟩
    rw [setPrev_prev (hhead x hx)]
  · rw [hnext] at hys
    rw [Option.or_none]
    refine (hys.set_before hndy xs.getLast?).congr fun y hy => ⟨?_, ?_⟩
    · rw [setPrev_next, setPrev_next, setNext_next (hlast y hy)]
    · exact setPrev_congr (by rw [setNext_prev])

/-! ### Elsewhere -/

lemma link_frame {l : Links α} {p q : Option α} {t x : α} (hp : p ≠ some x) (ht : t ≠ x)
    (hq : q ≠ some x) :
    (l.link p t q).next x = l.next x ∧ (l.link p t q).prev x = l.prev x := by
  have ht' : (some t : Option α) ≠ some x := by simpa using ht
  unfold Links.link
  refine ⟨?_, ?_⟩
  · rw [setPrev_next, setNext_next ht', setPrev_next, setNext_next hp]
  · rw [setPrev_prev hq, setNext_prev, setPrev_prev ht', setNext_prev]

lemma unlink_frame {l : Links α} {t x : α} (hp : l.prev t ≠ some x) (hn : l.next t ≠ some x) :
    (l.unlink t).next x = l.next x ∧ (l.unlink t).prev x = l.prev x := by
  unfold Links.unlink
  refine ⟨?_, ?_⟩
  · rw [setPrev_next, setNext_next hp]
  · rw [setPrev_prev hn, setNext_prev]

end WeatherQuery.DLinked
