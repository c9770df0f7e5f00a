/-
Lib.Layers — changes put on top of one another, to be taken off in reverse order.

A multi-step operation changes a world step by step; what step `k` did is a relation `L k` between
the world before it and the world after it. `Stack L base n top` says that steps `0 … n - 1`, done
one after the other, lead from `base` to `top`. Undoing works on the last layer only.
-/
import Mathlib.Tactic.Common

namespace RinRuntime.Lib.Layers

variable {N : Type}

/-- `n` layers lead from `base` to `top`. -/
def Stack (L : Nat → N → N → Prop) (base : N) : Nat → N → Prop
  | 0, top => top = base
  | n + 1, top => ∃ M, Stack L base n M ∧ L n M top

variable {L L' : Nat → N → N → Prop} {base top : N} {m n : Nat}

/-- Layers may be weakened, and only those below the top matter. -/
theorem Stack.mono : ∀ {n : Nat} {top : N}, (∀ k < n, ∀ M M', L k M M' → L' k M M') →
    Stack L base n top → Stack L' base n top
  | 0, _, _, h => h
  | n + 1, _, hL, ⟨M, hM, htop⟩ =>
    ⟨M, Stack.mono (fun k hk => hL k (Nat.lt_succ_of_lt hk)) hM, hL n (Nat.lt_succ_self n) _ _ htop⟩

/-- Layers that may do nothing can be added. -/
theorem Stack.extend (hle : m ≤ n) (hidle : ∀ k, m ≤ k → k < n → ∀ M, L k M M)
    (h : Stack L base m top) : Stack L base n top := by
  obtain ⟨d, rfl⟩ := Nat.exists_eq_add_of_le hle
  induction d with
  | zero => exact h
  | succ d ih =>
    have hrest := ih (by omega) (fun k hk hkn => hidle k hk (by omega))
    exact ⟨top, hrest, hidle (m + d) (by omega) (by omega) top⟩

end RinRuntime.Lib.Layers
