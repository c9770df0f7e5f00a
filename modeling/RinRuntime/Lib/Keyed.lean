/-
Lib.Keyed — a list whose elements have different keys.

Such a list is a finite partial map. `erase` removes a key and `put` writes an element under its key, in
the place of the one that is there or at the end; keys stay different (`Unique.put`).
-/
import Mathlib.Data.List.Nodup

namespace RinRuntime.Lib.Keyed
open List
variable {α κ : Type*}

/-! ## §1. Different keys. -/

/-- Different elements have different keys. -/
def Unique (key : α → κ) (list : List α) : Prop := (list.map key).Nodup

section
variable {key : α → κ}

theorem Unique.sublist {list list' : List α} (h : Unique key list) (hsub : list'.Sublist list) :
    Unique key list' :=
  List.Nodup.sublist (hsub.map key) h

end

/-! ## §2. Looking up and writing. -/

variable [DecidableEq κ] (key : α → κ)

/-- The list without the key. -/
def erase (k : κ) (list : List α) : List α :=
  match list.findIdx? fun x => key x = k with
  | some index => list.eraseIdx index
  | none => list

/-- The list with the element under its key. -/
def put (x : α) (list : List α) : List α :=
  match list.findIdx? fun y => key y = key x with
  | some index => list.set index x
  | none => list ++ [x]

variable {key}

variable {list : List α} {k : κ} {x : α}

/-- The place of a key: what stands before it has other keys. -/
theorem split_of_findIdx? {index : Nat} (h : (list.findIdx? fun x => key x = k) = some index) :
    ∃ before x after, list = before ++ x :: after ∧ before.length = index ∧ key x = k ∧
      ∀ y ∈ before, key y ≠ k := by
  induction list generalizing index with
  | nil => cases h
  | cons first list ih =>
    rw [findIdx?_cons] at h
    by_cases hfst : key first = k
    · rw [if_pos (decide_eq_true hfst)] at h
      obtain rfl := Option.some.inj h
      exact ⟨[], first, list, rfl, rfl, hfst, nofun⟩
    rw [if_neg (by simpa using hfst)] at h
    obtain ⟨i, hi, rfl⟩ := Option.map_eq_some_iff.mp h
    obtain ⟨before, x, after, rfl, hlen, hx, hbef⟩ := ih hi
    refine ⟨first :: before, x, after, rfl, by rw [length_cons, hlen], hx, ?_⟩
    intro y hy
    rcases mem_cons.mp hy with rfl | hy
    · exact hfst
    · exact hbef y hy

theorem forall_of_findIdx?_none (h : (list.findIdx? fun x => key x = k) = none) :
    ∀ x ∈ list, key x ≠ k := by
  intro x hx
  have hnot := findIdx?_eq_none_iff.mp h x hx
  exact of_decide_eq_false hnot

theorem put_of_some {index : Nat}
    (h : (list.findIdx? fun y => key y = key x) = some index) : put key x list = list.set index x := by
  unfold put
  rw [h]

theorem put_of_none (h : (list.findIdx? fun y => key y = key x) = none) : put key x list = list ++ [x] := by
  unfold put
  rw [h]

theorem erase_sublist (k : κ) (list : List α) : (erase key k list).Sublist list := by
  unfold erase
  split
  · exact eraseIdx_sublist _ _
  · exact List.Sublist.refl _

/-- Writing under a key that is there leaves the keys as they are. -/
theorem Unique.put (h : Unique key list) (x : α) : Unique key (put key x list) := by
  unfold Keyed.put
  split
  · rename_i index hidx
    obtain ⟨before, y, after, rfl, rfl, hy, _⟩ := split_of_findIdx? hidx
    rw [set_append_right _ _ (Nat.le_refl _), Nat.sub_self, set_cons_zero]
    unfold Unique at h ⊢
    rw [map_append, map_cons] at h ⊢
    rw [← hy]
    exact h
  rename_i hnone
  have habs := forall_of_findIdx?_none hnone
  unfold Unique at h ⊢
  rw [map_append, map_singleton, nodup_append]
  refine ⟨h, nodup_singleton _, ?_⟩
  intro k hk k' hk'
  obtain ⟨y, hy, rfl⟩ := mem_map.mp hk
  rw [mem_singleton.mp hk']
  exact habs y hy

/-- What is in the list after writing. -/
theorem mem_put {x y : α} (h : y ∈ put key x list) : y = x ∨ y ∈ list := by
  unfold put at h
  split at h
  · rcases mem_or_eq_of_mem_set h with hy | hy
    · exact Or.inr hy
    · exact Or.inl hy
  rcases mem_append.mp h with hy | hy
  · exact Or.inr hy
  · exact Or.inl (mem_singleton.mp hy)

end RinRuntime.Lib.Keyed
