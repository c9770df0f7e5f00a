/-
Lib.NameTree — a name space of paths, and what moving a subtree does to it.

A path is a list over an alphabet with a separator; a name space maps paths to objects. `Under p q`
says that `q` is `p` or lies below it. `move src dst` carries everything under `src` to the same
place under `dst`; on a name space with nothing under `dst` it is undone by the move back.
-/
import Mathlib.Tactic.Common

namespace RinRuntime.Lib.NameTree
open Function List
variable {α β : Type} (sep : α)

/-! ## §1. Paths. -/

/-- What may follow a path inside a longer one: nothing, or a separator. -/
def Boundary : List α → Prop
  | [] => True
  | c :: _ => c = sep

instance [DecidableEq α] : ∀ r : List α, Decidable (Boundary sep r)
  | [] => isTrue trivial
  | c :: _ => inferInstanceAs (Decidable (c = sep))

/-- `q` is `p` or lies below it. -/
def Under (p q : List α) : Prop := q.take p.length = p ∧ Boundary sep (q.drop p.length)

instance [DecidableEq α] (p q : List α) : Decidable (Under sep p q) := by
  unfold Under; infer_instance

variable {sep}

theorem under_append {p r : List α} (hr : Boundary sep r) : Under sep p (p ++ r) := by
  unfold Under
  rw [take_left, drop_left]
  exact ⟨rfl, hr⟩

theorem under_iff {p q : List α} : Under sep p q ↔ ∃ r, Boundary sep r ∧ q = p ++ r := by
  constructor
  · intro h
    refine ⟨q.drop p.length, h.2, ?_⟩
    rw [← take_append_drop p.length q, h.1]
    simp
  · rintro ⟨r, hr, rfl⟩
    exact under_append hr

theorem under_refl (p : List α) : Under sep p p := by
  have h : Under sep p (p ++ []) := under_append trivial
  rwa [append_nil] at h

/-! ## §2. Name spaces. -/

variable [DecidableEq α]

/-- Give a path a name. -/
def insert (p : List α) (x : β) (names : List α → Option β) : List α → Option β :=
  Function.update names p (some x)

/-- Take a name away. -/
def erase (p : List α) (names : List α → Option β) : List α → Option β :=
  Function.update names p none

variable (sep) in
/-- Carry everything under `src` to the same place under `dst`. -/
def move (src dst : List α) (names : List α → Option β) : List α → Option β := fun q =>
  if Under sep dst q then names (src ++ q.drop dst.length)
  else if Under sep src q then none
  else names q

variable (sep) in
/-- Nothing is named at or below `p`. -/
def Free (names : List α → Option β) (p : List α) : Prop := ∀ q, Under sep p q → names q = none

variable {names : List α → Option β} {p q src dst : List α} {x : β}

@[simp] theorem insert_self : insert p x names p = some x := update_self ..

theorem insert_of_ne (h : q ≠ p) : insert p x names q = names q := update_of_ne h ..

@[simp] theorem erase_self : erase p names p = none := update_self ..

theorem erase_of_ne (h : q ≠ p) : erase p names q = names q := update_of_ne h ..

/-- Taking away the name just given restores the name space. -/
theorem erase_insert (h : names p = none) : erase p (insert p x names) = names := by
  unfold erase insert
  rw [update_idem, ← h, update_eq_self]

theorem insert_comm {y : β} (h : p ≠ q) :
    insert p x (insert q y names) = insert q y (insert p x names) := by
  unfold insert
  exact update_comm h.symm (some y) (some x) names

theorem move_src (h : ¬ Under sep dst src) : move sep src dst names src = none := by
  unfold move
  rw [if_neg h, if_pos (under_refl src)]

omit [DecidableEq α] in
/-- A named path is not under a free one. -/
theorem not_under_of_free (hfree : Free sep names dst) (hsrc : names src = some x) :
    ¬ Under sep dst src := by
  intro h
  rw [hfree src h] at hsrc
  cases hsrc

/-- **Moving back restores the name space.** -/
theorem move_move (hfree : Free sep names dst) : move sep dst src (move sep src dst names) = names := by
  funext q
  by_cases hq : Under sep src q
  · -- under the old place: carried there and back
    obtain ⟨r, hr, rfl⟩ := under_iff.mp hq
    unfold move
    rw [if_pos hq, drop_left, if_pos (under_append hr), drop_left]
  unfold move
  rw [if_neg hq]
  by_cases hq' : Under sep dst q
  · rw [if_pos hq']
    exact (hfree q hq').symm
  · rw [if_neg hq', if_neg hq', if_neg hq]

end RinRuntime.Lib.NameTree
