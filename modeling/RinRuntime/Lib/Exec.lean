/-
Lib.Exec — computations over a state that may fail, and their weakest preconditions.

C code that returns error codes keeps every change it made before it failed: in `Exec ε σ α` a state goes
in, a result or an error comes out, and the state comes out either way.

`wp x Q E s` says what running `x` from `s` leads to: `Q` of the result and the final state, or `E` of the
error and the final state. The equations run a computation symbolically, one construct at a time; `wp_mono`
plugs the specification of a callee into the caller.
-/
import Mathlib.Tactic.Common

namespace RinRuntime.Lib

/-- A computation over `σ` that returns an `α` or fails with an `ε`; the state survives failure. -/
def Exec (ε σ α : Type) : Type := σ → Except ε α × σ

namespace Exec

variable {ε ε' σ τ α β : Type}

/-! ## §1. The constructs. -/

instance : Monad (Exec ε σ) where
  pure a := fun s => (.ok a, s)
  bind x f := fun s =>
    match x s with
    | (.ok a, s') => f a s'
    | (.error e, s') => (.error e, s')

/-- Stop with an error. -/
def fail (e : ε) : Exec ε σ α := fun s => (.error e, s)

/-- Change the state. -/
def modify (f : σ → σ) : Exec ε σ Unit := fun s => (.ok (), f s)

/-- Go on when the condition holds, fail otherwise. -/
def require (c : Prop) [Decidable c] (e : ε) : Exec ε σ Unit := if c then pure () else fail e

/-- Run a computation when the condition holds. -/
def when (c : Prop) [Decidable c] (x : Exec ε σ Unit) : Exec ε σ Unit := if c then x else pure ()

/-- Run a computation and report its failure as another error. -/
def orFail (x : Exec ε σ α) (e' : ε → ε') : Exec ε' σ α := fun s =>
  match x s with
  | (.ok a, s') => (.ok a, s')
  | (.error e, s') => (.error (e' e), s')

/-! ## §2. Weakest preconditions. -/

/-- Running `x` from `s` ends in `Q` or fails in `E`. -/
def wp (x : Exec ε σ α) (Q : α → σ → Prop) (E : ε → σ → Prop) (s : σ) : Prop :=
  match x s with
  | (.ok a, s') => Q a s'
  | (.error e, s') => E e s'

section
variable {Q : α → σ → Prop} {E : ε → σ → Prop} {s : σ}

@[simp] theorem wp_pure (a : α) : wp (pure a : Exec ε σ α) Q E s ↔ Q a s := Iff.rfl

@[simp] theorem wp_fail (e : ε) : wp (fail e : Exec ε σ α) Q E s ↔ E e s := Iff.rfl

theorem run_bind (x : Exec ε σ β) (f : β → Exec ε σ α) (s : σ) : (x >>= f) s = match x s with
    | (.ok a, s') => f a s'
    | (.error e, s') => (.error e, s') := rfl

@[simp] theorem wp_bind (x : Exec ε σ β) (f : β → Exec ε σ α) :
    wp (x >>= f) Q E s ↔ wp x (fun b s' => wp (f b) Q E s') E s := by
  unfold wp
  rw [run_bind]
  rcases x s with ⟨_ | _, s'⟩ <;> rfl

@[simp] theorem wp_require {Q : Unit → σ → Prop} (c : Prop) [Decidable c] (e : ε) :
    wp (require c e : Exec ε σ Unit) Q E s ↔ (c → Q () s) ∧ (¬ c → E e s) := by
  unfold require
  by_cases hc : c
  · simp [hc]
  · simp [hc]

@[simp] theorem wp_ite (c : Prop) [Decidable c] (x y : Exec ε σ α) :
    wp (if c then x else y) Q E s ↔ (c → wp x Q E s) ∧ (¬ c → wp y Q E s) := by
  by_cases hc : c
  · simp [hc]
  · simp [hc]

@[simp] theorem wp_when {Q : Unit → σ → Prop} (c : Prop) [Decidable c] (x : Exec ε σ Unit) :
    wp (when c x) Q E s ↔ (c → wp x Q E s) ∧ (¬ c → Q () s) := by
  unfold when
  rw [wp_ite, wp_pure]

@[simp] theorem wp_orFail (x : Exec ε' σ α) (e' : ε' → ε) :
    wp (x.orFail e') Q E s ↔ wp x Q (fun e => E (e' e)) s := by
  unfold wp orFail
  rcases x s with ⟨_ | _, s'⟩ <;> rfl

/-- **The rule of consequence.** -/
theorem wp_mono {x : Exec ε σ α} {Q' : α → σ → Prop} {E' : ε → σ → Prop} (h : wp x Q E s)
    (hQ : ∀ a s', Q a s' → Q' a s') (hE : ∀ e s', E e s' → E' e s') : wp x Q' E' s := by
  unfold wp at *
  rcases hx : x s with ⟨e | a, s'⟩
  · rw [hx] at h
    exact hE e s' h
  · rw [hx] at h
    exact hQ a s' h

end

variable {x : Exec ε σ α}

/-- Two specifications of one computation. -/
theorem wp_and {Q Q' : α → σ → Prop} {E E' : ε → σ → Prop} {s : σ} (h : wp x Q E s) (h' : wp x Q' E' s) :
    wp x (fun a s' => Q a s' ∧ Q' a s') (fun e s' => E e s' ∧ E' e s') s := by
  unfold wp at *
  rcases hx : x s with ⟨e | a, s'⟩
  · rw [hx] at h h'
    exact ⟨h, h'⟩
  · rw [hx] at h h'
    exact ⟨h, h'⟩

/-- What a weakest precondition says about a run that returned. -/
theorem wp_ok {Q : α → σ → Prop} {E : ε → σ → Prop} {s s' : σ} {a : α}
    (h : wp x Q E s) (hrun : x s = (.ok a, s')) : Q a s' := by
  unfold wp at h
  rwa [hrun] at h

/-- What a weakest precondition says about a run that failed. -/
theorem wp_error {Q : α → σ → Prop} {E : ε → σ → Prop} {s s' : σ} {e : ε}
    (h : wp x Q E s) (hrun : x s = (.error e, s')) : E e s' := by
  unfold wp at h
  rwa [hrun] at h

/-- **A watch over runs**: what a state shows, what of it is handed out where a run hands something out,
and what has been handed out so far. Some of it is of no concern. -/
structure Watch (σ τ μ : Type) where
  seen : σ → τ
  mark : τ → μ
  out : σ → μ → Prop
  exempt : μ → Prop

/-- Whatever was handed out between the two states shows a state that could be left by a failure `E`. -/
def Watch.Hands {μ : Type} (G : Watch σ τ μ) (E : ε → τ → Prop) (s s' : σ) : Prop :=
  ∀ m, G.out s' m → G.out s m ∨ G.exempt m ∨ ∃ e t, E e t ∧ G.mark t = m

/-- **What running `x` leads to, as it is watched**: from every state that shows as `t`, `x` ends in `Q`
or fails in `E` of what its last state shows as, and what it hands out on the way could be left by a
failure. A step that does not show keeps `t`. -/
def Shows {μ : Type} (G : Watch σ τ μ) (x : Exec ε σ α) (Q : α → τ → Prop) (E : ε → τ → Prop)
    (t : τ) : Prop :=
  ∀ s, G.seen s = t → wp x (fun a s' => Q a (G.seen s') ∧ G.Hands E s s')
    (fun e s' => E e (G.seen s') ∧ G.Hands E s s') s

section
variable {μ : Type} {G : Watch σ τ μ} {E : ε → τ → Prop} {s s' s'' : σ}

theorem Watch.Hands.refl : G.Hands E s s := fun _ h => Or.inl h

theorem Watch.Hands.trans (h : G.Hands E s s') (h' : G.Hands E s' s'') : G.Hands E s s'' :=
  fun m hm => (h' m hm).elim (h m) Or.inr

theorem Watch.Hands.mono {E' : ε' → τ → Prop} (h : G.Hands E s s')
    (hE : ∀ e t, E e t → ∃ e', E' e' t) : G.Hands E' s s' := by
  intro m hm
  rcases h m hm with hold | hexempt | ⟨e, t, he, hmark⟩
  · exact Or.inl hold
  · exact Or.inr (Or.inl hexempt)
  · obtain ⟨e', he'⟩ := hE e t he
    exact Or.inr (Or.inr ⟨e', t, he', hmark⟩)

end

namespace Shows

variable {μ : Type} {G : Watch σ τ μ} {x y : Exec ε σ α} {Q Q' : α → τ → Prop} {E E' : ε → τ → Prop}
  {t : τ} {e : ε} {c : Prop} [Decidable c]

theorem pure {a : α} (h : Q a t) : Shows G (Pure.pure a) Q E t := by
  rintro s rfl
  exact ⟨h, .refl⟩

theorem fail (h : E e t) : Shows G (Exec.fail e) Q E t := by
  rintro s rfl
  exact ⟨h, .refl⟩

theorem bind {x : Exec ε σ β} {k : β → Exec ε σ α}
    (h : Shows G x (fun b t' => Shows G (k b) Q E t') E t) : Shows G (x >>= k) Q E t := by
  intro s hs
  rw [wp_bind]
  refine wp_mono (h s hs) (fun b s' hk => ?_) (fun _ _ he => he)
  exact wp_mono (hk.1 s' rfl) (fun _ _ h' => ⟨h'.1, hk.2.trans h'.2⟩)
    (fun _ _ h' => ⟨h'.1, hk.2.trans h'.2⟩)

theorem ite (hx : c → Shows G x Q E t) (hy : ¬ c → Shows G y Q E t) :
    Shows G (if c then x else y) Q E t := by
  split
  next hc => exact hx hc
  next hc => exact hy hc

theorem require {Q : Unit → τ → Prop} (h : c → Q () t) (hfail : ¬ c → E e t) :
    Shows G (Exec.require c e) Q E t :=
  ite (fun hc => pure (h hc)) (fun hc => fail (hfail hc))

/-- A test before the rest. -/
theorem check {k : Unit → Exec ε σ α} (h : c → Shows G (k ()) Q E t) (hfail : ¬ c → E e t) :
    Shows G (Exec.require c e >>= k) Q E t :=
  bind (require h hfail)

theorem when {Q : Unit → τ → Prop} {x : Exec ε σ Unit} (hx : c → Shows G x Q E t) (h : ¬ c → Q () t) :
    Shows G (Exec.when c x) Q E t :=
  ite hx fun hc => pure (h hc)

theorem orFail {x : Exec ε' σ α} {e' : ε' → ε} (h : Shows G x Q (fun e => E (e' e)) t) :
    Shows G (x.orFail e') Q E t := by
  intro s hs
  rw [wp_orFail]
  exact wp_mono (h s hs) (fun _ _ h' => ⟨h'.1, h'.2.mono fun e _ he => ⟨e' e, he⟩⟩)
    (fun _ _ h' => ⟨h'.1, h'.2.mono fun e _ he => ⟨e' e, he⟩⟩)

theorem mono (h : Shows G x Q E t) (hQ : ∀ a t', Q a t' → Q' a t') (hE : ∀ e t', E e t' → E' e t') :
    Shows G x Q' E' t := by
  intro s hs
  have hhands : ∀ s', G.Hands E s s' → G.Hands E' s s' := fun s' h' => h'.mono fun e t he => ⟨e, hE e t he⟩
  exact wp_mono (h s hs) (fun a s' h' => ⟨hQ a _ h'.1, hhands s' h'.2⟩)
    (fun e s' h' => ⟨hE e _ h'.1, hhands s' h'.2⟩)

/-- What is known of the last state. -/
theorem run {s : σ} (h : Shows G x Q E (G.seen s)) :
    wp x (fun a s' => Q a (G.seen s')) (fun e s' => E e (G.seen s')) s :=
  wp_mono (h s rfl) (fun _ _ h' => h'.1) (fun _ _ h' => h'.1)

end Shows

/-! ## §4. Kept properties. -/

/-- `x` keeps `P`, and fails with errors in `F` only. -/
def Keeps (P : σ → Prop) (F : ε → Prop) (x : Exec ε σ α) : Prop :=
  ∀ s, P s → wp x (fun _ s' => P s') (fun e s' => F e ∧ P s') s

end Exec

end RinRuntime.Lib
