/-
Lib.Winner — the first element of a set under a precedence relation.

A scan that keeps "the best so far" and a scan of a sorted stream that keeps "the first hit"
compute the same thing: the element of the set that precedes every other one. `Winner` names it,
with `none` for the empty set, and the lemmas say what one more element does to it.
-/
import Mathlib.Data.Set.Insert

namespace RinRuntime.Lib

variable {ι : Type*} {precedes : ι → ι → Prop}

/-- The winner of a set: the element that precedes every other, or `none` when there is nothing. -/
def Winner (precedes : ι → ι → Prop) (S : Set ι) : Option ι → Prop
  | none => ∀ j, j ∉ S
  | some i => i ∈ S ∧ ∀ j ∈ S, j ≠ i → precedes i j

namespace Winner

theorem empty : Winner precedes (∅ : Set ι) none := fun _ h => h

variable {S : Set ι}

/-- An asymmetric precedence leaves at most one winner. -/
theorem unique (hasymm : ∀ a b, precedes a b → ¬ precedes b a) {o o' : Option ι}
    (h : Winner precedes S o) (h' : Winner precedes S o') : o = o' := by
  cases o with
  | none =>
    cases o' with
    | none => rfl
    | some i' => exact absurd h'.1 (h i')
  | some i =>
    cases o' with
    | none => exact absurd h.1 (h' i)
    | some i' =>
      by_cases he : i = i'
      · rw [he]
      · exact absurd (h'.2 i h.1 he) (hasymm _ _ (h.2 i' h'.1 (Ne.symm he)))

theorem isSome_iff {o : Option ι} (h : Winner precedes S o) : o.isSome = true ↔ ∃ i, i ∈ S := by
  cases o with
  | none => exact iff_of_false (by simp) (fun ⟨i, hi⟩ => h i hi)
  | some i => exact iff_of_true rfl ⟨i, h.1⟩

/-- The first element to arrive wins. -/
theorem insert_none (h : Winner precedes S none) (x : ι) : Winner precedes (insert x S) (some x) := by
  refine ⟨Set.mem_insert x S, ?_⟩
  intro j hj hne
  rcases Set.mem_insert_iff.mp hj with he | hj
  · exact absurd he hne
  · exact absurd hj (h j)

/-- An element the winner precedes changes nothing. -/
theorem insert_keep {i x : ι} (h : Winner precedes S (some i))
    (hix : precedes i x) : Winner precedes (insert x S) (some i) := by
  refine ⟨Set.mem_insert_of_mem x h.1, ?_⟩
  intro j hj hne
  rcases Set.mem_insert_iff.mp hj with he | hj
  · rw [he]
    exact hix
  · exact h.2 j hj hne

/-- An element that precedes the winner takes its place. -/
theorem insert_replace (htrans : ∀ a b c, precedes a b → precedes b c → precedes a c)
    {i x : ι} (h : Winner precedes S (some i)) (hxi : precedes x i) :
    Winner precedes (insert x S) (some x) := by
  refine ⟨Set.mem_insert x S, ?_⟩
  intro j hj hne
  rcases Set.mem_insert_iff.mp hj with he | hj
  · exact absurd he hne
  by_cases hji : j = i
  · rw [hji]
    exact hxi
  · exact htrans x i j hxi (h.2 j hj hji)

end Winner

end RinRuntime.Lib
