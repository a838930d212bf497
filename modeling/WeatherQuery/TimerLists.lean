import WeatherQuery.DLinked
import WeatherQuery.TimerModel
import Mathlib.Data.List.Range

/-!
The lists of the timers.

Every timer that was ever allocated is in exactly one place: in the list of its hash, on the free
list, or in the hands of the call that is just moving it. The lists are doubly linked and sorted.
The four ways in which a timer moves keep this.
-/

namespace WeatherQuery.TimerLists

open WeatherQuery.TimerModel WeatherQuery.DLinked

variable {γ : Type}

/-! ### Times -/

lemma le_iff {a b : Time} : a.le b = true ↔ a.sec < b.sec ∨ (a.sec = b.sec ∧ a.usec ≤ b.usec) := by
  simp [Time.le]

lemma gt_iff {a b : Time} : a.gt b = true ↔ b.sec < a.sec ∨ (a.sec = b.sec ∧ b.usec < a.usec) := by
  simp [Time.gt]

lemma le_trans {a b c : Time} (hab : a.le b = true) (hbc : b.le c = true) : a.le c = true := by
  rw [le_iff] at *
  omega

lemma le_total {a b : Time} (h : ¬ a.le b = true) : b.le a = true := by
  rw [le_iff] at *
  omega

lemma gt_of_le {a b c : Time} (h : a.gt c = true) (hab : a.le b = true) : b.gt c = true := by
  rw [le_iff] at hab
  rw [gt_iff] at *
  omega

lemma le_refl (a : Time) : a.le a = true := by simp [le_iff]

lemma gt_of_gt_le {a b c : Time} (h : a.gt b = true) (hcb : c.le b = true) : a.gt c = true := by
  rw [le_iff] at hcb
  rw [gt_iff] at *
  omega

/-! ### Links and data -/

/-- What a timer says apart from its links. -/
structure Entry (γ : Type) where
  client : γ
  msecs : ℤ
  periodic : Bool
  time : Time

def entry (c : Timer γ) : Entry γ := ⟨c.client, c.msecs, c.periodic, c.time⟩

def links (s : Timers γ) : Links ℕ := ⟨fun t => (s.cell t).next, fun t => (s.cell t).prev⟩

@[simp] lemma links_setNext (s : Timers γ) (t : ℕ) (v : Option ℕ) :
    links (s.setNext t v) = (links s).setNext (some t) v := by
  simp only [links, Timers.setNext, Timers.set, Links.setNext, Links.mk.injEq]
  refine ⟨?_, ?_⟩ <;> funext x <;> by_cases hx : x = t <;> simp [hx]

@[simp] lemma links_setPrev (s : Timers γ) (t : ℕ) (v : Option ℕ) :
    links (s.setPrev t v) = (links s).setPrev (some t) v := by
  simp only [links, Timers.setPrev, Timers.set, Links.setPrev, Links.mk.injEq]
  refine ⟨?_, ?_⟩ <;> funext x <;> by_cases hx : x = t <;> simp [hx]

@[simp] lemma links_setHead (s : Timers γ) (h : ℕ) (v : Option ℕ) :
    links (s.setHead h v) = links s := rfl

/-- Only links are written: every timer keeps what it says, and its hash. -/
def SameData (s s' : Timers γ) : Prop :=
  ∀ x, entry (s'.cell x) = entry (s.cell x) ∧ (s'.cell x).hash = (s.cell x).hash

lemma SameData.trans {s s' s'' : Timers γ} (h : SameData s s') (h' : SameData s' s'') :
    SameData s s'' := fun x => ⟨(h' x).1.trans (h x).1, (h' x).2.trans (h x).2⟩

lemma sameData_setNext (s : Timers γ) (t : ℕ) (v : Option ℕ) : SameData s (s.setNext t v) := by
  intro x
  by_cases hx : x = t <;> simp [Timers.setNext, Timers.set, hx, entry]

lemma sameData_setPrev (s : Timers γ) (t : ℕ) (v : Option ℕ) : SameData s (s.setPrev t v) := by
  intro x
  by_cases hx : x = t <;> simp [Timers.setPrev, Timers.set, hx, entry]

lemma sameData_setHead (s : Timers γ) (h : ℕ) (v : Option ℕ) : SameData s (s.setHead h v) :=
  fun _ => ⟨rfl, rfl⟩

/-- Writing both links of a timer. -/
lemma sameData_self {s s' : Timers γ} (h : SameData s s') (t : ℕ) (v w : Option ℕ) :
    SameData s ((s'.setPrev t v).setNext t w) :=
  (h.trans (sameData_setPrev _ _ _)).trans (sameData_setNext _ _ _)

lemma SameData.time {s s' : Timers γ} (h : SameData s s') (x : ℕ) :
    (s'.cell x).time = (s.cell x).time := congrArg Entry.time (h x).1

/-- What the writes leave of the other variables. -/
structure Moved (s s' : Timers γ) (l : Links ℕ) (timers : ℕ → Option ℕ) : Prop where
  links : links s' = l
  timers : s'.timers = timers
  data : SameData s s'
  free : s'.freeTimers = s.freeTimers
  allocated : s'.allocated = s.allocated

/-! ### `l_remove` -/

lemma lRemove_moved {s : Timers γ} {t : ℕ} (hself : (s.cell t).prev ≠ some t) :
    Moved s (lRemove s t) ((links s).unlink t)
      (if (s.cell t).prev = none then
        Function.update s.timers (s.cell t).hash (s.cell t).next else s.timers) := by
  have hnext : ∀ p ≠ t, ((s.setNext p (s.cell t).next).cell t) = s.cell t := by
    intro p hp
    simp [Timers.setNext, Timers.set, hp.symm]
  unfold lRemove Links.unlink
  change Moved s _ (((links s).setNext (s.cell t).prev (s.cell t).next).setPrev (s.cell t).next
    (s.cell t).prev) _
  rcases hp : (s.cell t).prev with _ | p
  · have hcell : ((s.setHead (s.cell t).hash (s.cell t).next).cell t) = s.cell t := rfl
    simp only [hcell]
    rcases hn : (s.cell t).next with _ | n
    · exact ⟨rfl, rfl, sameData_setHead _ _ _, rfl, rfl⟩
    · rw [hp]
      exact ⟨links_setPrev _ _ _, rfl, (sameData_setHead _ _ _).trans (sameData_setPrev _ _ _),
        rfl, rfl⟩
  · have hpt : p ≠ t := by
      rintro rfl
      exact hself hp
    simp only [hnext p hpt]
    rcases hn : (s.cell t).next with _ | n
    · exact ⟨links_setNext _ _ _, rfl, sameData_setNext _ _ _, rfl, rfl⟩
    · rw [hp]
      exact ⟨by simp, rfl, (sameData_setNext _ _ _).trans (sameData_setPrev _ _ _), rfl, rfl⟩

/-! ### `l_add` -/

/-- The loop goes past the timers that are earlier than `t`, and no further. -/
lemma walk_spec {s : Timers γ} {t : ℕ} {ys : List ℕ} {p : ℕ} {q : Option ℕ}
    (hys : Seg (links s) (some p) q ys none) {fuel : ℕ} (hfuel : ys.length ≤ fuel) :
    ∃ us vs, ys = us ++ vs ∧ walk s t fuel p q = some (us.getLast?.getD p, vs.head?) ∧
      (∀ u ∈ us, ¬ (s.cell t).time.le (s.cell u).time = true) ∧
      ∀ v ∈ vs.head?, (s.cell t).time.le (s.cell v).time = true := by
  induction ys generalizing p q fuel with
  | nil =>
    obtain rfl : q = none := hys
    exact ⟨[], [], rfl, by cases fuel <;> rfl, by simp, by simp⟩
  | cons y ys ih =>
    obtain ⟨rfl, -, hys⟩ := hys
    rcases fuel with _ | fuel
    · simp at hfuel
    · rw [walk]
      split_ifs with hle
      · exact ⟨[], y :: ys, rfl, rfl, by simp, by simpa using hle⟩
      · obtain ⟨us, vs, rfl, hwalk, hus, hvs⟩ := ih hys (by simpa using hfuel)
        refine ⟨y :: us, vs, rfl, hwalk.trans ?_, ?_, hvs⟩
        · rw [List.getLast?_cons, Option.getD_some]
        · exact List.forall_mem_cons.mpr ⟨hle, hus⟩

/-- `l_add` puts the timer in front of the first that is not earlier. -/
lemma lAdd_spec {s : Timers γ} {t : ℕ} {l : List ℕ}
    (hl : Chain (links s) (s.timers (s.cell t).hash) l) (hlen : l.length ≤ s.allocated) :
    ∃ xs ys s', l = xs ++ ys ∧ lAdd s t = some s' ∧
      Moved s s' ((links s).link xs.getLast? t ys.head?)
        (Function.update s.timers (s.cell t).hash (xs.head?.or (some t))) ∧
      (∀ x ∈ xs, ¬ (s.cell t).time.le (s.cell x).time = true) ∧
      ∀ y ∈ ys.head?, (s.cell t).time.le (s.cell y).time = true := by
  unfold lAdd
  rcases l with _ | ⟨y, ys⟩
  · have hhead : s.timers (s.cell t).hash = none := hl
    simp only [hhead]
    exact ⟨[], [], _, rfl, rfl, ⟨by simp [Links.link, Links.setNext, Links.setPrev], rfl,
      sameData_self (sameData_setHead _ _ _) _ _ _, rfl, rfl⟩, by simp, by simp⟩
  · obtain ⟨hhead, -, hys⟩ := hl
    simp only [hhead]
    split_ifs with hle
    · exact ⟨[], y :: ys, _, rfl, rfl, ⟨by simp [Links.link, Links.setNext], rfl,
        (sameData_self (sameData_setHead _ _ _) _ _ _).trans (sameData_setPrev _ _ _), rfl, rfl⟩,
        by simp, by simpa using hle⟩
    · have hshort : ys.length ≤ s.allocated := Nat.le_of_succ_le hlen
      obtain ⟨us, vs, rfl, hwalk, hus, hvs⟩ := walk_spec (t := t) hys hshort
      change walk s t s.allocated y (s.cell y).next = _ at hwalk
      have hlast : (y :: us).getLast? = some (us.getLast?.getD y) := List.getLast?_cons
      have hsame : Function.update s.timers (s.cell t).hash ((y :: us).head?.or (some t)) =
          s.timers := by
        rw [List.head?_cons, Option.some_or, ← hhead, Function.update_eq_self]
      rw [hwalk, Option.map_some]
      refine ⟨y :: us, vs, _, rfl, rfl, ?_, List.forall_mem_cons.mpr ⟨hle, hus⟩, hvs⟩
      rw [hlast, hsame]
      rcases hv : vs.head? with _ | v
      · exact ⟨by simp [Links.link, Links.setPrev], rfl,
          sameData_self (sameData_setNext _ _ _) _ _ _, rfl, rfl⟩
      · exact ⟨by simp [Links.link], rfl,
          (sameData_self (sameData_setNext _ _ _) _ _ _).trans (sameData_setPrev _ _ _), rfl, rfl⟩

/-! ### The invariant -/

/-- The free list is linked in one direction only. -/
def FreeFrom (s : Timers γ) : Option ℕ → List ℕ → Prop
  | first, [] => first = none
  | first, x :: xs => first = some x ∧ FreeFrom s (s.cell x).next xs

/-- `bs` are the lists of the hashes, `fr` is the free list and `loose` are timers in no list. -/
structure Inv (s : Timers γ) (bs : ℕ → List ℕ) (fr loose : List ℕ) : Prop where
  chain : ∀ h < hashSize, Chain (links s) (s.timers h) (bs h)
  sorted : ∀ h < hashSize, (bs h).Pairwise fun a b => (s.cell a).time.le (s.cell b).time = true
  hash : ∀ h < hashSize, ∀ t ∈ bs h, (s.cell t).hash = h ∧ hashOf (s.cell t).time = h
  free : FreeFrom s s.freeTimers fr
  place : (loose ++ ((List.range hashSize).flatMap bs ++ fr)).Perm (List.range s.allocated)

lemma FreeFrom.congr {s s' : Timers γ} {f : Option ℕ} {fr : List ℕ} (h : FreeFrom s f fr)
    (hfr : ∀ x ∈ fr, (s'.cell x).next = (s.cell x).next) : FreeFrom s' f fr := by
  induction fr generalizing f with
  | nil => exact h
  | cons x fr ih =>
    obtain ⟨hx, hfr⟩ := List.forall_mem_cons.mp hfr
    refine ⟨h.1, ?_⟩
    rw [hx]
    exact ih h.2 hfr

lemma flatMap_update (bs : ℕ → List ℕ) (h : ℕ) (l : List ℕ) {ks : List ℕ} (hks : ks.Nodup)
    (hh : h ∈ ks) :
    (ks.flatMap (Function.update bs h l)).Perm (l ++ ks.flatMap (Function.update bs h [])) := by
  induction ks with
  | nil => cases hh
  | cons k ks ih =>
    obtain ⟨hk, hks⟩ := List.nodup_cons.mp hks
    rw [List.flatMap_cons, List.flatMap_cons]
    by_cases hkh : k = h
    · subst hkh
      have hrest : ks.flatMap (Function.update bs k l) = ks.flatMap (Function.update bs k []) := by
        refine List.flatMap_congr fun x hx => ?_
        have hne : x ≠ k := fun hxk => hk (hxk ▸ hx)
        rw [Function.update_of_ne hne, Function.update_of_ne hne]
      rw [hrest]
      simp
    · have hmem : h ∈ ks := (List.mem_cons.mp hh).resolve_left fun h => hkh h.symm
      rw [Function.update_of_ne hkh, Function.update_of_ne hkh]
      refine ((ih hks hmem).append_left _).trans ?_
      rw [← List.append_assoc, ← List.append_assoc]
      exact List.perm_append_comm.append_right _

/-- All lists: one of them, and the others. -/
lemma flat_perm (bs : ℕ → List ℕ) {h : ℕ} (hh : h < hashSize) :
    ((List.range hashSize).flatMap bs).Perm
      (bs h ++ (List.range hashSize).flatMap (Function.update bs h [])) := by
  have hsplit := flatMap_update bs h (bs h) List.nodup_range (List.mem_range.mpr hh)
  rwa [Function.update_eq_self] at hsplit

lemma mem_flat {bs : ℕ → List ℕ} {h x : ℕ} (hh : h < hashSize) (hx : x ∈ bs h) :
    x ∈ (List.range hashSize).flatMap bs :=
  List.mem_flatMap.mpr ⟨h, List.mem_range.mpr hh, hx⟩

section Facts

variable {s : Timers γ} {bs : ℕ → List ℕ} {fr loose : List ℕ} (hI : Inv s bs fr loose)
include hI

lemma Inv.nodup : (loose ++ ((List.range hashSize).flatMap bs ++ fr)).Nodup :=
  hI.place.nodup_iff.mpr List.nodup_range

lemma Inv.bucket_nodup {h : ℕ} (hh : h < hashSize) : (bs h).Nodup := by
  have hflat := (List.nodup_append.mp (List.nodup_append.mp hI.nodup).2.1).1
  exact (List.nodup_append.mp ((flat_perm bs hh).nodup_iff.mp hflat)).1

lemma Inv.bucket_apart {h h' x : ℕ} (hh : h < hashSize) (hh' : h' < hashSize) (hx : x ∈ bs h)
    (hx' : x ∈ bs h') : h = h' := (hI.hash h hh x hx).1.symm.trans (hI.hash h' hh' x hx').1

lemma Inv.loose_apart {h x : ℕ} (hh : h < hashSize) (hx : x ∈ bs h) : x ∉ loose := fun hl =>
  (List.nodup_append.mp hI.nodup).2.2 x hl x (List.mem_append_left _ (mem_flat hh hx)) rfl

lemma Inv.free_apart {h x : ℕ} (hh : h < hashSize) (hx : x ∈ bs h) : x ∉ fr := fun hf =>
  (List.nodup_append.mp (List.nodup_append.mp hI.nodup).2.1).2.2 x (mem_flat hh hx) x hf rfl

lemma Inv.free_loose {x : ℕ} (hx : x ∈ fr) : x ∉ loose := fun hl =>
  (List.nodup_append.mp hI.nodup).2.2 x hl x (List.mem_append_right _ hx) rfl

lemma Inv.length_le {h : ℕ} (hh : h < hashSize) : (bs h).length ≤ s.allocated := by
  have hlen := hI.place.length_eq
  rw [List.length_range] at hlen
  have hflat := (flat_perm bs hh).length_eq
  simp only [List.length_append] at hlen hflat
  omega

/-- One list is rewritten and the others are left alone. -/
lemma Inv.rewrite {s' : Timers γ} {h : ℕ} (hh : h < hashSize) {l : Links ℕ} {v : Option ℕ}
    {new loose' : List ℕ} (hm : Moved s s' l (Function.update s.timers h v))
    (hchain : Chain l v new)
    (hframe : ∀ x, x ∉ bs h → x ∉ loose → l.next x = (links s).next x ∧ l.prev x = (links s).prev x)
    (hsorted : new.Pairwise fun a b => (s.cell a).time.le (s.cell b).time = true)
    (hhash : ∀ t ∈ new, (s.cell t).hash = h ∧ hashOf (s.cell t).time = h)
    (hperm : (loose' ++ new).Perm (loose ++ bs h)) :
    Inv s' (Function.update bs h new) fr loose' where
  chain k hk := by
    rw [hm.links, hm.timers]
    by_cases hkh : k = h
    · subst hkh
      rw [Function.update_self, Function.update_self]
      exact hchain
    · rw [Function.update_of_ne hkh, Function.update_of_ne hkh]
      refine (hI.chain k hk).congr fun x hx => hframe x ?_ (hI.loose_apart hk hx)
      exact fun hx' => hkh (hI.bucket_apart hk hh hx hx')
  sorted k hk := by
    simp only [hm.data.time]
    by_cases hkh : k = h
    · subst hkh
      rw [Function.update_self]
      exact hsorted
    · rw [Function.update_of_ne hkh]
      exact hI.sorted k hk
  hash k hk t ht := by
    rw [(hm.data t).2, hm.data.time]
    by_cases hkh : k = h
    · subst hkh
      rw [Function.update_self] at ht
      exact hhash t ht
    · rw [Function.update_of_ne hkh] at ht
      exact hI.hash k hk t ht
  free := by
    rw [hm.free]
    refine hI.free.congr fun x hx => ?_
    have hx' : x ∉ bs h := fun hb => hI.free_apart hh hb hx
    have hnext := (hframe x hx' (hI.free_loose hx)).1
    rw [← hm.links] at hnext
    exact hnext
  place := by
    have hnew := flat_perm (Function.update bs h new) hh
    rw [Function.update_self, Function.update_idem] at hnew
    -- the timers of this list and the loose ones, and all the others
    have hall : (loose' ++ ((List.range hashSize).flatMap (Function.update bs h new) ++ fr)).Perm
        ((loose' ++ new) ++ ((List.range hashSize).flatMap (Function.update bs h []) ++ fr)) := by
      simpa using (hnew.append_right fr).append_left loose'
    have hall' : (loose ++ ((List.range hashSize).flatMap bs ++ fr)).Perm
        ((loose ++ bs h) ++ ((List.range hashSize).flatMap (Function.update bs h []) ++ fr)) := by
      simpa using ((flat_perm bs hh).append_right fr).append_left loose
    rw [hm.allocated]
    exact (hall.trans (hperm.append_right _)).trans (hall'.symm.trans hI.place)

/-- The lists are left alone. -/
lemma Inv.beside {s' : Timers γ} {fr' loose' : List ℕ}
    (hcell : ∀ h < hashSize, ∀ x ∈ bs h, s'.cell x = s.cell x) (htimers : s'.timers = s.timers)
    (hfree : FreeFrom s' s'.freeTimers fr')
    (hplace : (loose' ++ ((List.range hashSize).flatMap bs ++ fr')).Perm
      (List.range s'.allocated)) :
    Inv s' bs fr' loose' where
  chain h hh := by
    rw [htimers]
    refine (hI.chain h hh).congr fun x hx => ?_
    simp only [links, hcell h hh x hx, and_self]
  sorted h hh := by
    refine (hI.sorted h hh).imp_of_mem fun ha hb hab => ?_
    rw [hcell h hh _ ha, hcell h hh _ hb]
    exact hab
  hash h hh t ht := by
    rw [hcell h hh t ht]
    exact hI.hash h hh t ht
  free := hfree
  place := hplace

end Facts

/-! ### The moves -/

section Moves

variable {s : Timers γ} {bs : ℕ → List ℕ} {fr : List ℕ} {t : ℕ}

/-- Out of a list. -/
lemma Inv.remove (hI : Inv s bs fr []) {h : ℕ} (hh : h < hashSize) {xs ys : List ℕ}
    (hl : bs h = xs ++ t :: ys) :
    Inv (lRemove s t) (Function.update bs h (xs ++ ys)) fr [t] ∧ SameData s (lRemove s t) := by
  have hchain := hI.chain h hh
  have hnd := hI.bucket_nodup hh
  have hsorted := hI.sorted h hh
  have hhash := hI.hash h hh
  rw [hl] at hchain hnd hsorted hhash
  obtain ⟨hprev, hnext⟩ := hchain.neighbours
  have ht : t ∉ xs := fun htx => (List.nodup_append.mp hnd).2.2 t htx t (by simp) rfl
  have hself : (s.cell t).prev ≠ some t := by
    intro hp
    rw [show (s.cell t).prev = xs.getLast? from hprev] at hp
    exact ht (List.mem_of_getLast? hp)
  have hm := lRemove_moved hself
  have hhead : (if (s.cell t).prev = none then
      Function.update s.timers (s.cell t).hash (s.cell t).next else s.timers) =
        Function.update s.timers h (xs.head?.or ys.head?) := by
    rw [show (s.cell t).prev = xs.getLast? from hprev, show (s.cell t).next = ys.head? from hnext,
      (hhash t (by simp)).1]
    rcases xs with _ | ⟨x, xs⟩
    · rfl
    · have hfirst : s.timers h = some x := by simpa using Seg.first_eq hchain
      rw [if_neg (by simp), List.head?_cons, Option.some_or, ← hfirst, Function.update_eq_self]
  rw [hhead] at hm
  have hsub : (xs ++ ys).Sublist (xs ++ t :: ys) :=
    (List.Sublist.refl xs).append (List.sublist_cons_self t ys)
  refine ⟨hI.rewrite hh hm (hchain.unlink hnd) ?_ (hsorted.sublist hsub)
    (fun x hx => hhash x (hsub.subset hx)) ?_, hm.data⟩
  · intro x hx _
    rw [hl] at hx
    refine unlink_frame ?_ ?_
    · rw [hprev]
      exact fun hp => hx (List.mem_append_left _ (List.mem_of_getLast? hp))
    · rw [hnext]
      exact fun hn =>
        hx (List.mem_append_right _ (List.mem_cons_of_mem t (List.mem_of_head? hn)))
  · rw [hl]
    exact (show (xs ++ t :: ys).Perm (t :: (xs ++ ys)) from List.perm_middle).symm

/-- Into the list of its hash. -/
lemma Inv.add (hI : Inv s bs fr [t]) (hh : (s.cell t).hash < hashSize)
    (ht : hashOf (s.cell t).time = (s.cell t).hash) :
    ∃ xs ys s', bs (s.cell t).hash = xs ++ ys ∧ lAdd s t = some s' ∧
      Inv s' (Function.update bs (s.cell t).hash (xs ++ t :: ys)) fr [] ∧ SameData s s' ∧
      ∀ x ∈ xs, ¬ (s.cell t).time.le (s.cell x).time = true := by
  have hchain := hI.chain _ hh
  have hnd := hI.bucket_nodup hh
  have hsorted := hI.sorted _ hh
  obtain ⟨xs, ys, s', hl, hadd, hm, hxs, hys⟩ := lAdd_spec hchain (hI.length_le hh)
  have hmem : t ∉ bs (s.cell t).hash := fun hb => hI.loose_apart hh hb (by simp)
  refine ⟨xs, ys, s', hl, hadd, ?_, hm.data, hxs⟩
  have hhash := hI.hash _ hh
  rw [hl] at hchain hnd hsorted hmem hhash
  refine hI.rewrite hh hm (hchain.link hnd hmem) ?_ ?_ ?_ ?_
  · intro x hx hxt
    rw [hl] at hx
    refine link_frame ?_ (by simpa using fun h : t = x => hxt (by simp [h])) ?_
    · exact fun hp => hx (List.mem_append_left _ (List.mem_of_getLast? hp))
    · exact fun hn => hx (List.mem_append_right _ (List.mem_of_head? hn))
  · -- what is before `t` is earlier, and what is behind it is not
    obtain ⟨hsx, hsy, hxy⟩ := List.pairwise_append.mp hsorted
    refine List.pairwise_append.mpr ⟨hsx, List.pairwise_cons.mpr ⟨?_, hsy⟩, ?_⟩
    · intro y hy
      rcases ys with _ | ⟨z, ys⟩
      · cases hy
      · have hz := hys z rfl
        rcases List.mem_cons.mp hy with rfl | hy
        · exact hz
        · exact le_trans hz ((List.pairwise_cons.mp hsy).1 y hy)
    · intro x hx y hy
      rcases List.mem_cons.mp hy with rfl | hy
      · exact le_total (hxs x hx)
      · exact hxy x hx y hy
  · intro x hx
    rcases List.mem_append.mp hx with hx | hx
    · exact hhash x (List.mem_append_left _ hx)
    · rcases List.mem_cons.mp hx with rfl | hx
      · exact ⟨rfl, ht⟩
      · exact hhash x (List.mem_append_right _ hx)
  · rw [hl]
    exact List.perm_middle

/-- New data for a timer in no list. -/
lemma Inv.write (hI : Inv s bs fr [t]) (f : Timer γ → Timer γ) : Inv (s.set t f) bs fr [t] := by
  have hcell : ∀ x ≠ t, (s.set t f).cell x = s.cell x := fun x hx =>
    Function.update_of_ne hx _ _
  refine hI.beside (fun h hh x hx => hcell x ?_) rfl ?_ hI.place
  · rintro rfl
    exact hI.loose_apart hh hx (by simp)
  · refine hI.free.congr fun x hx => ?_
    have hne : x ≠ t := by
      rintro rfl
      exact hI.free_loose hx (by simp)
    rw [hcell x hne]

/-- `t` on top of the free list, as `tmr_cancel` puts it there. -/
def pushFree (s : Timers γ) (t : ℕ) : Timers γ :=
  ({ s.setNext t s.freeTimers with freeTimers := some t }).setPrev t none

/-- Onto the free list. -/
lemma Inv.release (hI : Inv s bs fr [t]) :
    Inv (pushFree s t) bs (t :: fr) [] ∧ SameData s (pushFree s t) := by
  have hcell : ∀ x ≠ t, (pushFree s t).cell x = s.cell x := by
    intro x hx
    simp [pushFree, Timers.setPrev, Timers.setNext, Timers.set, hx]
  have hself : ((pushFree s t).cell t).next = s.freeTimers := by
    simp [pushFree, Timers.setPrev, Timers.setNext, Timers.set]
  refine ⟨hI.beside (fun h hh x hx => hcell x ?_) rfl ⟨rfl, ?_⟩ ?_, fun x => ?_⟩
  · rintro rfl
    exact hI.loose_apart hh hx (by simp)
  · rw [hself]
    refine hI.free.congr fun x hx => ?_
    have hne : x ≠ t := by
      rintro rfl
      exact hI.free_loose hx (by simp)
    rw [hcell x hne]
  · refine List.Perm.trans ?_ hI.place
    exact List.perm_middle
  · by_cases hx : x = t
    · subst hx
      simp [pushFree, Timers.setPrev, Timers.setNext, Timers.set, entry]
    · rw [hcell x hx]
      exact ⟨rfl, rfl⟩

/-- Off the free list, or from `malloc`. -/
lemma Inv.take {s' : Timers γ} {malloc : Bool} (hI : Inv s bs fr [])
    (htake : takeTimer s malloc = some (t, s')) :
    (∃ fr', Inv s' bs fr' [t]) ∧ s'.cell = s.cell := by
  unfold takeTimer at htake
  rcases hf : s.freeTimers with _ | a
  · rw [hf] at htake
    simp only [Option.ite_none_right_eq_some, Option.some.injEq, Prod.mk.injEq] at htake
    obtain ⟨-, rfl, rfl⟩ := htake
    obtain rfl : fr = [] := by
      have hfree := hI.free
      rw [hf] at hfree
      rcases fr with _ | ⟨x, fr⟩
      · rfl
      · cases hfree.1
    refine ⟨⟨[], hI.beside (fun _ _ _ _ => rfl) rfl rfl ?_⟩, rfl⟩
    rw [List.range_succ]
    exact List.perm_append_comm.trans (hI.place.append_right _)
  · rw [hf] at htake
    simp only [Option.some.injEq, Prod.mk.injEq] at htake
    obtain ⟨rfl, rfl⟩ := htake
    have hfree := hI.free
    rw [hf] at hfree
    rcases fr with _ | ⟨x, fr⟩
    · cases hfree
    · obtain ⟨hx, hrest⟩ := hfree
      obtain rfl : a = x := by simpa using hx
      refine ⟨⟨fr, hI.beside (fun _ _ _ _ => rfl) rfl (hrest.congr fun _ _ => rfl) ?_⟩, rfl⟩
      refine List.Perm.trans ?_ hI.place
      exact (show ((List.range hashSize).flatMap bs ++ a :: fr).Perm
        (a :: ((List.range hashSize).flatMap bs ++ fr)) from List.perm_middle).symm

end Moves

/-! ### The calls -/

/-- The timers in the lists. -/
def actives (bs : ℕ → List ℕ) : List ℕ := (List.range hashSize).flatMap bs

/-- One list more with `t` than before. -/
def Inserted (bs bs' : ℕ → List ℕ) (t : ℕ) : Prop :=
  ∃ h < hashSize, ∃ xs ys, bs h = xs ++ ys ∧ bs' = Function.update bs h (xs ++ t :: ys)

def Removed (bs bs' : ℕ → List ℕ) (t : ℕ) : Prop :=
  ∃ h < hashSize, ∃ xs ys, bs h = xs ++ t :: ys ∧ bs' = Function.update bs h (xs ++ ys)

/-- Where the two are in one list, `x` is in front of `y`. -/
def Front (bs : ℕ → List ℕ) (x y : ℕ) : Prop :=
  ∀ h < hashSize, x ∈ bs h → y ∈ bs h → [x, y].Sublist (bs h)

lemma mem_actives {bs : ℕ → List ℕ} {t : ℕ} : t ∈ actives bs ↔ ∃ h < hashSize, t ∈ bs h := by
  simp [actives]

lemma Inserted.perm {bs bs' : ℕ → List ℕ} {t : ℕ} (h : Inserted bs bs' t) :
    (actives bs').Perm (t :: actives bs) := by
  obtain ⟨k, hk, xs, ys, hl, rfl⟩ := h
  have hnew := flat_perm (Function.update bs k (xs ++ t :: ys)) hk
  have hold := flat_perm bs hk
  rw [Function.update_self, Function.update_idem] at hnew
  rw [hl] at hold
  refine hnew.trans ((List.perm_middle.append_right _).trans ?_)
  exact (hold.symm.cons t)

lemma Removed.perm {bs bs' : ℕ → List ℕ} {t : ℕ} (h : Removed bs bs' t) :
    (actives bs).Perm (t :: actives bs') := by
  obtain ⟨k, hk, xs, ys, hl, rfl⟩ := h
  refine Inserted.perm ⟨k, hk, xs, ys, Function.update_self _ _ _, ?_⟩
  rw [Function.update_idem, ← hl, Function.update_eq_self]

section Order

variable {bs bs' : ℕ → List ℕ} {t x y : ℕ}

lemma Front.insert (h : Front bs x y) (hb : Inserted bs bs' t) (hx : x ≠ t) (hy : y ≠ t) :
    Front bs' x y := by
  obtain ⟨k, hk, xs, ys, hl, rfl⟩ := hb
  intro j hj hxj hyj
  by_cases hjk : j = k
  · subst hjk
    rw [Function.update_self] at hxj hyj ⊢
    have hold : ∀ z ≠ t, z ∈ xs ++ t :: ys → z ∈ bs j := by
      intro z hz hmem
      rw [hl]
      simpa [hz] using hmem
    have hpair := h j hj (hold x hx hxj) (hold y hy hyj)
    rw [hl] at hpair
    exact hpair.trans ((List.Sublist.refl xs).append (List.sublist_cons_self t ys))
  · rw [Function.update_of_ne hjk] at hxj hyj ⊢
    exact h j hj hxj hyj

lemma Front.remove (h : Front bs x y) (hb : Removed bs bs' t) (hx : x ≠ t) (hy : y ≠ t) :
    Front bs' x y := by
  obtain ⟨k, hk, xs, ys, hl, rfl⟩ := hb
  intro j hj hxj hyj
  by_cases hjk : j = k
  · subst hjk
    rw [Function.update_self] at hxj hyj ⊢
    have hsub : (xs ++ ys).Sublist (bs j) := by
      rw [hl]
      exact (List.Sublist.refl xs).append (List.sublist_cons_self t ys)
    have hpair := h j hj (hsub.subset hxj) (hsub.subset hyj)
    rw [hl] at hpair
    -- without `t` the pair is what it was
    have hfilter := hpair.filter (· ≠ t)
    have hsame : [x, y].filter (· ≠ t) = [x, y] := by simp [hx, hy]
    rw [hsame, List.filter_append, List.filter_cons_of_neg (by simp)] at hfilter
    exact hfilter.trans (List.filter_sublist.append List.filter_sublist)
  · rw [Function.update_of_ne hjk] at hxj hyj ⊢
    exact h j hj hxj hyj

lemma not_sublist_swap {l : List ℕ} (hl : l.Nodup) (hxy : [x, y].Sublist l) :
    ¬ [y, x].Sublist l := by
  induction l with
  | nil => cases hxy
  | cons a l ih =>
    obtain ⟨ha, hl⟩ := List.nodup_cons.mp hl
    intro hyx
    cases hxy with
    | cons _ hxy =>
      cases hyx with
      | cons _ hyx => exact ih hl hxy hyx
      | cons_cons _ hx => exact ha (hxy.subset (by simp))
    | cons_cons _ hy =>
      cases hyx with
      | cons _ hyx => exact ha (hyx.subset (by simp))
      | cons_cons _ hx => exact ha (hy.subset (by simp))

/-- Two timers of a list are in one order only. -/
lemma Front.asymm {s : Timers γ} {fr loose : List ℕ} (hI : Inv s bs fr loose) {h : ℕ}
    (hh : h < hashSize) (hx : x ∈ bs h) (hy : y ∈ bs h) (hxy : Front bs x y) : ¬ Front bs y x :=
  fun hyx => not_sublist_swap (hI.bucket_nodup hh) (hxy h hh hx hy) (hyx h hh hy hx)

end Order

section Calls

variable {s : Timers γ} {bs : ℕ → List ℕ} {fr : List ℕ} {t : ℕ}

lemma Inv.actives_nodup {loose : List ℕ} (hI : Inv s bs fr loose) : (actives bs).Nodup :=
  (List.nodup_append.mp (List.nodup_append.mp hI.nodup).2.1).1

/-- A timer in a list, and the list around it. -/
lemma exists_split (ht : t ∈ actives bs) :
    ∃ h < hashSize, ∃ xs ys, bs h = xs ++ t :: ys := by
  obtain ⟨h, hh, hmem⟩ := mem_actives.mp ht
  obtain ⟨xs, ys, hl⟩ := List.append_of_mem hmem
  exact ⟨h, hh, xs, ys, hl⟩

/-- **`tmr_cancel`.** -/
lemma cancel_spec (hI : Inv s bs fr []) (ht : t ∈ actives bs) :
    ∃ bs', Removed bs bs' t ∧ Inv (tmrCancel s t) bs' (t :: fr) [] ∧
      SameData s (tmrCancel s t) := by
  obtain ⟨h, hh, xs, ys, hl⟩ := exists_split ht
  obtain ⟨hrem, hdata⟩ := hI.remove hh hl
  obtain ⟨hrel, hdata'⟩ := hrem.release
  exact ⟨_, ⟨h, hh, xs, ys, hl, rfl⟩, hrel, hdata.trans hdata'⟩

lemma hashOf_lt (t : Time) : hashOf t < hashSize := Nat.mod_lt _ (by decide)

lemma takeTimer_none {malloc : Bool} (h : takeTimer s malloc = none) : malloc = false := by
  unfold takeTimer at h
  rcases hf : s.freeTimers with _ | a <;> simp_all

lemma takeTimer_some {malloc : Bool} {s' : Timers γ} (h : takeTimer s malloc = some (t, s')) :
    t = nextTimer s := by
  unfold takeTimer at h
  rcases hf : s.freeTimers with _ | a <;> simp_all [nextTimer]

/-- A timer goes in front of what it is not put behind. -/
lemma front_insert (hnot : t ∉ actives bs) {k y : ℕ} {xs ys : List ℕ} (hy : y ≠ t)
    (hx : y ∉ xs) : Front (Function.update bs k (xs ++ t :: ys)) t y := by
  intro h hh ht hmem
  by_cases hhk : h = k
  · subst hhk
    rw [Function.update_self] at hmem ⊢
    have hys : y ∈ ys := by simpa [hx, hy] using hmem
    have hpair : [t, y].Sublist (t :: ys) := (List.singleton_sublist.mpr hys).cons_cons t
    exact hpair.trans (List.sublist_append_right xs _)
  · rw [Function.update_of_ne hhk] at ht
    exact absurd (mem_actives.mpr ⟨h, hh, ht⟩) hnot

/-- **`tmr_create`.** Without memory nothing happens; else a timer that was in no list is put into
the list of its time, in front of all that are not earlier. -/
lemma create_spec (hI : Inv s bs fr []) (now : Time) (client : γ) (msecs : ℤ)
    (periodic malloc : Bool) :
    (malloc = false ∧ tmrCreate s now client msecs periodic malloc = some (s, none)) ∨
      ∃ t s' bs' fr', tmrCreate s now client msecs periodic malloc = some (s', some t) ∧
        t ∉ actives bs ∧ Inserted bs bs' t ∧ Inv s' bs' fr' [] ∧
        entry (s'.cell t) = ⟨client, msecs, periodic, now.add msecs⟩ ∧
        (∀ x ≠ t, entry (s'.cell x) = entry (s.cell x)) ∧
        t = nextTimer s ∧
        ∀ y ∈ actives bs, (now.add msecs).le (s.cell y).time = true → Front bs' t y := by
  unfold tmrCreate
  rcases htake : takeTimer s malloc with _ | ⟨t, s₁⟩
  · exact .inl ⟨takeTimer_none htake, rfl⟩
  · obtain ⟨⟨fr', hI₁⟩, hcell⟩ := hI.take htake
    have hI₂ := hI₁.write fun c =>
      { c with
        client := client, msecs := msecs, periodic := periodic, time := now.add msecs
        hash := hashOf (now.add msecs) }
    have hnot : t ∉ actives bs := fun hmem => by
      obtain ⟨h, hh, hb⟩ := mem_actives.mp hmem
      exact hI₁.loose_apart hh hb (by simp)
    obtain ⟨xs, ys, s', hl, hadd, hI', hdata, hxs⟩ := hI₂.add
      (by simpa [Timers.set] using hashOf_lt _) (by simp [Timers.set])
    have hne : ∀ y ∈ actives bs, y ≠ t := fun y hy hyt => hnot (hyt ▸ hy)
    refine .inr ⟨t, s', _, fr', ?_, hnot, ⟨_, ?_, xs, ys, hl, rfl⟩, hI', ?_, fun x hx => ?_,
      takeTimer_some htake, fun y hy hle => front_insert hnot (hne y hy) fun hyx => ?_⟩
    · simp only [hadd, Option.map_some]
    · simpa [Timers.set] using hashOf_lt _
    · rw [(hdata t).1]
      simp [Timers.set, entry]
    · rw [(hdata x).1]
      simp [Timers.set, hx, hcell]
    · refine hxs y hyx ?_
      simpa [Timers.set, hne y hy, hcell] using hle

lemma set_comm {a b : ℕ} (h : a ≠ b) (s : Timers γ) (f g : Timer γ → Timer γ) :
    (s.set a f).set b g = (s.set b g).set a f := by
  simp only [Timers.set, Function.update_of_ne h, Function.update_of_ne h.symm]
  rw [Function.update_comm h]

@[simp] lemma set_cell_self (s : Timers γ) (f : Timer γ → Timer γ) :
    (s.set t f).cell t = f (s.cell t) := Function.update_self _ _ _

lemma set_cell {x : ℕ} (h : x ≠ t) (s : Timers γ) (f : Timer γ → Timer γ) :
    (s.set t f).cell x = s.cell x := Function.update_of_ne h _ _

@[simp] lemma setHead_cell (s : Timers γ) (h : ℕ) (v : Option ℕ) :
    (s.setHead h v).cell = s.cell := rfl

lemma setHead_set (s : Timers γ) (f : Timer γ → Timer γ) (h : ℕ) (v : Option ℕ) :
    (s.set t f).setHead h v = (s.setHead h v).set t f := rfl

/-- `l_remove` does not look at the time. -/
lemma lRemove_set_time (hprev : (s.cell t).prev ≠ some t) (hnext : (s.cell t).next ≠ some t)
    (g : Entry γ → Time) :
    lRemove (s.set t fun c => { c with time := g (entry c) }) t =
      (lRemove s t).set t fun c => { c with time := g (entry c) } := by
  unfold lRemove Timers.setNext Timers.setPrev
  rw [set_cell_self]
  dsimp only
  rcases hp : (s.cell t).prev with _ | p
  · simp only [setHead_cell, set_cell_self, hp]
    rcases hn : (s.cell t).next with _ | n
    · rfl
    · have hnt : t ≠ n := by
        rintro rfl
        exact hnext hn
      simp only
      rw [setHead_set, set_comm hnt]
  · have hpt : t ≠ p := by
      rintro rfl
      exact hprev hp
    simp only [set_cell hpt, set_cell_self, hp]
    rcases hn : (s.cell t).next with _ | n
    · exact set_comm hpt _ _ _
    · have hnt : t ≠ n := by
        rintro rfl
        exact hnext hn
      simp only
      rw [set_comm hpt, set_comm hnt]

/-- **A timer given a new time**, by `tmr_reset` or after a turn of a periodic one: it leaves its
list and goes into that of the new time. -/
lemma resort_spec (hI : Inv s bs fr []) (ht : t ∈ actives bs) (g : Entry γ → Time) :
    ∃ s' bs₁ bs', lResort (s.set t fun c => { c with time := g (entry c) }) t = some s' ∧
      Removed bs bs₁ t ∧ Inserted bs₁ bs' t ∧ Inv s' bs' fr [] ∧
      entry (s'.cell t) = { entry (s.cell t) with time := g (entry (s.cell t)) } ∧
      ∀ x ≠ t, entry (s'.cell x) = entry (s.cell x) := by
  obtain ⟨h, hh, xs, ys, hl⟩ := exists_split ht
  have hnd := hI.bucket_nodup hh
  have hchain := hI.chain h hh
  rw [hl] at hnd hchain
  obtain ⟨hp, hn⟩ := hchain.neighbours
  have htx : t ∉ xs := fun hx => (List.nodup_append.mp hnd).2.2 t hx t (by simp) rfl
  have hty : t ∉ ys := (List.nodup_cons.mp (List.nodup_append.mp hnd).2.1).1
  have hprev : (s.cell t).prev ≠ some t := fun h =>
    htx (List.mem_of_getLast? (hp.symm.trans h))
  have hnext : (s.cell t).next ≠ some t := fun h => hty (List.mem_of_head? (hn.symm.trans h))
  obtain ⟨hI₁, hdata₁⟩ := hI.remove hh hl
  have hI₂ := hI₁.write fun c => { c with time := g (entry c) }
  have hI₃ := hI₂.write fun c => { c with hash := hashOf c.time }
  obtain ⟨us, vs, s', hl', hadd, hI', hdata, -⟩ := hI₃.add (by simpa using hashOf_lt _) (by simp)
  refine ⟨s', _, _, ?_, ⟨h, hh, xs, ys, hl, rfl⟩, ⟨_, ?_, us, vs, hl', rfl⟩, hI', ?_, ?_⟩
  · unfold lResort
    rw [lRemove_set_time hprev hnext g]
    exact hadd
  · simpa using hashOf_lt _
  · rw [(hdata t).1, set_cell_self, set_cell_self, ← (hdata₁ t).1]
    rfl
  · intro x hx
    rw [(hdata x).1, set_cell hx, set_cell hx, (hdata₁ x).1]

end Calls

end WeatherQuery.TimerLists
