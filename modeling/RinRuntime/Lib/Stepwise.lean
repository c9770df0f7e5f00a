/-
Lib.Stepwise — runs that go wrong at one step.

A machine with calls is a step function. `Along P` says that `P` holds of every call of a run with the state
it is made in. Where every call but the offending ones keeps an invariant, and a property of the calls fails
exactly at an offending one, the property holds along a run exactly when no call of the run offends
(`along_iff_along`).
-/
import Mathlib.Data.List.Basic

namespace RinRuntime.Lib.Stepwise

variable {σ κ : Type*}

/-- The state after the calls. -/
def run (step : σ → κ → σ) (s : σ) (calls : List κ) : σ := calls.foldl step s

/-- `P` of every call and the state it is made in. -/
def Along (step : σ → κ → σ) (P : σ → κ → Prop) : σ → List κ → Prop
  | _, [] => True
  | s, call :: calls => P s call ∧ Along step P (step s call) calls

instance (step : σ → κ → σ) (P : σ → κ → Prop) [∀ s call, Decidable (P s call)] :
    (s : σ) → (calls : List κ) → Decidable (Along step P s calls)
  | _, [] => inferInstanceAs (Decidable True)
  | s, call :: calls =>
      have : Decidable (Along step P (step s call) calls) := instDecidableAlong step P (step s call) calls
      inferInstanceAs (Decidable (P s call ∧ Along step P (step s call) calls))

section
variable {step : σ → κ → σ} {P Q : σ → κ → Prop} {s : σ} {calls : List κ}

theorem run_cons (call : κ) : run step s (call :: calls) = run step (step s call) calls := rfl

theorem run_append (more : List κ) : run step s (calls ++ more) = run step (run step s calls) more :=
  List.foldl_append

/-- A property along two runs one after the other. -/
theorem along_append (more : List κ) :
    Along step P s (calls ++ more) ↔ Along step P s calls ∧ Along step P (run step s calls) more := by
  induction calls generalizing s with
  | nil => exact ⟨fun h => ⟨trivial, h⟩, fun h => h.2⟩
  | cons call calls ih =>
    rw [List.cons_append, Along, Along, run_cons, ih, and_assoc]

/-- A state that no call changes stays. -/
theorem run_stuck (h : ∀ call, step s call = s) : run step s calls = s := by
  induction calls with
  | nil => rfl
  | cons call calls ih => rw [run_cons, h call, ih]

/-- **One step decides.** If the invariant is kept by every call with `Q`, and under it `P` says the same
    as `Q`, then `P` holds along a run exactly when `Q` does. -/
theorem along_iff_along {Inv : σ → Prop} (hstep : ∀ s call, Inv s → Q s call → Inv (step s call))
    (hiff : ∀ s call, Inv s → (P s call ↔ Q s call)) (hstart : Inv s) :
    Along step P s calls ↔ Along step Q s calls := by
  induction calls generalizing s with
  | nil => exact Iff.rfl
  | cons call calls ih =>
    rw [Along, Along, hiff s call hstart]
    constructor
    · intro ⟨hcall, hrest⟩
      exact ⟨hcall, (ih (hstep s call hstart hcall)).mp hrest⟩
    · intro ⟨hcall, hrest⟩
      exact ⟨hcall, (ih (hstep s call hstart hcall)).mpr hrest⟩

/-- Where states without `Good` are stuck, the last state of a run is good exactly when every one is. -/
theorem good_run_iff {Good : σ → Prop} (hstuck : ∀ s call, ¬ Good s → step s call = s) (hstart : Good s) :
    Good (run step s calls) ↔ Along step (fun s call => Good (step s call)) s calls := by
  induction calls generalizing s with
  | nil => exact ⟨fun _ => trivial, fun _ => hstart⟩
  | cons call calls ih =>
    rw [run_cons, Along]
    by_cases hgood : Good (step s call)
    · rw [ih hgood]
      exact ⟨fun h => ⟨hgood, h⟩, fun h => h.2⟩
    · rw [run_stuck (fun call' => hstuck _ call' hgood)]
      exact ⟨fun h => absurd h hgood, fun h => absurd h.1 hgood⟩

end
end RinRuntime.Lib.Stepwise
