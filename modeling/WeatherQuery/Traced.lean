import Mathlib.Data.Nat.Notation
import Mathlib.Logic.Basic
import Mathlib.Tactic.SplitIfs

/-!
Programs that leave a trace.

A program takes the state of its surroundings to a new one, and leaves the list of what it did
on the way. It has a value when it returns; when it does not, what it did so far is still there.
-/

namespace WeatherQuery.Traced

structure Ran (κ ε α : Type) where
  val : Option α
  st : κ
  log : List ε

def Prog (κ ε α : Type) := κ → Ran κ ε α

variable {κ ε α β σ : Type}

/-- What comes after a program: nothing, unless it returned. -/
def Ran.andThen (r : Ran κ ε α) (f : α → Prog κ ε β) : Ran κ ε β :=
  match r.val with
  | some a => ⟨(f a r.st).val, (f a r.st).st, r.log ++ (f a r.st).log⟩
  | none => ⟨none, r.st, r.log⟩

instance : Monad (Prog κ ε) where
  pure a := fun k => ⟨some a, k, []⟩
  bind p f := fun k => (p k).andThen f

/-- One entry of the trace. -/
def say (e : ε) : Prog κ ε Unit := fun k => ⟨some (), k, [e]⟩

/-- A loop of at most `fuel` turns. It has not returned when they are used up. -/
def loop (body : σ → Prog κ ε (σ ⊕ α)) : ℕ → σ → Prog κ ε α
  | 0, _ => fun k => ⟨none, k, []⟩
  | fuel + 1, s => do
    match ← body s with
    | .inl s => loop body fuel s
    | .inr a => pure a

@[simp] lemma pure_run (a : α) (k : κ) : (pure a : Prog κ ε α) k = ⟨some a, k, []⟩ := rfl

lemma bind_run (p : Prog κ ε α) (f : α → Prog κ ε β) (k : κ) : (p >>= f) k = (p k).andThen f := rfl

@[simp] lemma say_run (e : ε) (k : κ) : say e k = ⟨some (), k, [e]⟩ := rfl

lemma bind_run_some {p : Prog κ ε α} {k : κ} {a : α} (h : (p k).val = some a)
    (f : α → Prog κ ε β) :
    (p >>= f) k = ⟨(f a (p k).st).val, (f a (p k).st).st, (p k).log ++ (f a (p k).st).log⟩ := by
  simp [bind_run, Ran.andThen, h]

lemma bind_run_none {p : Prog κ ε α} {k : κ} (h : (p k).val = none) (f : α → Prog κ ε β) :
    (p >>= f) k = ⟨none, (p k).st, (p k).log⟩ := by
  simp [bind_run, Ran.andThen, h]

@[simp] lemma say_bind_run (e : ε) (f : Unit → Prog κ ε β) (k : κ) :
    (say e >>= f) k = ⟨(f () k).val, (f () k).st, e :: (f () k).log⟩ := rfl

/-! ### Properties that parts hand on -/

/-- A property of programs that a program has when its parts have it. -/
structure Modular (Q : (α : Type) → Prog κ ε α → Prop) : Prop where
  pure {α : Type} (a : α) : Q α (pure a)
  bind {α β : Type} {p : Prog κ ε α} {f : α → Prog κ ε β} (hp : Q α p) (hf : ∀ a, Q β (f a)) :
    Q β (p >>= f)

section Modular

variable {Q : (α : Type) → Prog κ ε α → Prop}

lemma Modular.ite (_ : Modular Q) {b : Prop} [Decidable b] {p q : Prog κ ε α} (hp : Q α p)
    (hq : Q α q) : Q α (if b then p else q) := by
  split_ifs
  · exact hp
  · exact hq

/-- **Loops.** What every turn has, and what runs out of turns has, the loop has. -/
theorem Modular.loop (hQ : Modular Q) (hout : Q α fun k => ⟨none, k, []⟩)
    {body : σ → Prog κ ε (σ ⊕ α)} (h : ∀ s, Q _ (body s)) (fuel : ℕ) (s : σ) :
    Q α (loop body fuel s) := by
  induction fuel generalizing s with
  | zero => exact hout
  | succ fuel ih =>
    refine hQ.bind (h s) fun r => ?_
    cases r with
    | inl s => exact ih s
    | inr a => exact hQ.pure a

end Modular

/-! ### What a program can leave in its trace -/

/-- Every entry a program leaves satisfies `P`. -/
def Emits (P : ε → Prop) (p : Prog κ ε α) : Prop := ∀ k, ∀ e ∈ (p k).log, P e

section Emits

variable {P : ε → Prop}

lemma Emits.mono {Q : ε → Prop} {p : Prog κ ε α} (h : Emits P p) (hPQ : ∀ e, P e → Q e) :
    Emits Q p := fun k e he => hPQ e (h k e he)

lemma emits_pure (a : α) : Emits P (pure a : Prog κ ε α) := by
  intro k e he
  simp at he

lemma emits_say {e : ε} (h : P e) : Emits P (say e : Prog κ ε Unit) := by
  intro k e' he
  obtain rfl : e' = e := by simpa using he
  exact h

lemma emits_bind {p : Prog κ ε α} {f : α → Prog κ ε β} (hp : Emits P p)
    (hf : ∀ a, Emits P (f a)) : Emits P (p >>= f) := by
  intro k e he
  rcases hval : (p k).val with _ | a
  · rw [bind_run_none hval] at he
    exact hp k e he
  · rw [bind_run_some hval] at he
    rcases List.mem_append.mp he with he | he
    · exact hp k e he
    · exact hf a _ e he

lemma modular_emits : Modular fun α (p : Prog κ ε α) => Emits P p := ⟨emits_pure, emits_bind⟩

lemma emits_ite {b : Prop} [Decidable b] {p q : Prog κ ε α} (hp : Emits P p) (hq : Emits P q) :
    Emits P (if b then p else q) := modular_emits.ite hp hq

lemma emits_out : Emits P (fun k => ⟨none, k, []⟩ : Prog κ ε α) := by
  intro k e he
  cases he

end Emits

/-! ### What a program gives -/

/-- Every value a program returns satisfies `P`. -/
def Gives (P : α → Prop) (p : Prog κ ε α) : Prop := ∀ k a, (p k).val = some a → P a

section Gives

variable {P : α → Prop} {Q : β → Prop}

lemma gives_pure {a : α} (h : P a) : Gives P (pure a : Prog κ ε α) := by
  intro k b hb
  obtain rfl : a = b := by simpa using hb
  exact h

lemma gives_bind {p : Prog κ ε α} {f : α → Prog κ ε β} (hp : Gives P p)
    (hf : ∀ a, P a → Gives Q (f a)) : Gives Q (p >>= f) := by
  intro k b hb
  rcases hval : (p k).val with _ | a
  · rw [bind_run_none hval] at hb
    cases hb
  · rw [bind_run_some hval] at hb
    exact hf a (hp k a hval) _ b hb

lemma gives_true (p : Prog κ ε α) : Gives (fun _ => True) p := fun _ _ _ => trivial

lemma gives_ite {b : Prop} [Decidable b] {p q : Prog κ ε α} (hp : Gives P p) (hq : Gives P q) :
    Gives P (if b then p else q) := by
  split_ifs
  · exact hp
  · exact hq

end Gives

/-! ### Two runs that cannot be told apart -/

/-- From related surroundings the program does the same and gives the same, in two runs that
leave only entries of kind `P`. -/
def Agrees (R : κ → κ → Prop) (P : ε → Prop) (p : Prog κ ε α) : Prop :=
  ∀ k k', R k k' → (∀ e ∈ (p k).log, P e) → (∀ e ∈ (p k').log, P e) →
    (p k).val = (p k').val ∧ (p k).log = (p k').log ∧ R (p k).st (p k').st

section Agrees

variable {R : κ → κ → Prop} {P : ε → Prop}

lemma agrees_pure (a : α) : Agrees R P (pure a : Prog κ ε α) :=
  fun _ _ hR _ _ => ⟨rfl, rfl, hR⟩

lemma agrees_say (e : ε) : Agrees R P (say e : Prog κ ε Unit) :=
  fun _ _ hR _ _ => ⟨rfl, rfl, hR⟩

lemma agrees_bind {p : Prog κ ε α} {f : α → Prog κ ε β} (hp : Agrees R P p)
    (hf : ∀ a, Agrees R P (f a)) : Agrees R P (p >>= f) := by
  intro k k' hR hk hk'
  have first (k : κ) (h : ∀ e ∈ ((p >>= f) k).log, P e) : ∀ e ∈ (p k).log, P e := by
    intro e he
    refine h e ?_
    rcases hval : (p k).val with _ | a
    · rwa [bind_run_none hval]
    · rw [bind_run_some hval]
      exact List.mem_append_left _ he
  obtain ⟨hv, hl, hs⟩ := hp k k' hR (first k hk) (first k' hk')
  rcases hval : (p k).val with _ | a
  · rw [bind_run_none hval, bind_run_none (hv ▸ hval)]
    exact ⟨rfl, hl, hs⟩
  · have hval' : (p k').val = some a := hv ▸ hval
    rw [bind_run_some hval] at hk ⊢
    rw [bind_run_some hval'] at hk' ⊢
    obtain ⟨hv, hl', hs⟩ := hf a _ _ hs (fun e he => hk e (List.mem_append_right _ he))
      (fun e he => hk' e (List.mem_append_right _ he))
    exact ⟨hv, by simp only [hl, hl'], hs⟩

lemma modular_agrees : Modular fun α (p : Prog κ ε α) => Agrees R P p := ⟨agrees_pure, agrees_bind⟩

lemma agrees_ite {b : Prop} [Decidable b] {p q : Prog κ ε α} (hp : Agrees R P p)
    (hq : Agrees R P q) : Agrees R P (if b then p else q) := modular_agrees.ite hp hq

lemma agrees_out : Agrees R P (fun k => ⟨none, k, []⟩ : Prog κ ε α) :=
  fun _ _ hR _ _ => ⟨rfl, rfl, hR⟩

end Agrees

end WeatherQuery.Traced
