/-
Lib.SortedTable — insertion into, and binary search of, a sorted table.

Two loops of table code, over an arbitrary element type:

  • `insertPosition`: walk down from the end of the table while the new element goes before the one at
    hand, never below the start of the segment the table is sorted in;
  • `search`: halve the window `[low, high)` and report the position of the key or the position at which
    it would have to be inserted.
-/
import Mathlib.Data.List.Basic
import Mathlib.Order.Basic

namespace RinRuntime.Lib.SortedTable
open List
variable {α : Type*}

/-! ## §1. Insertion from the end. -/

/-- The position an insertion loop stops at: from `position` downwards past every element the new
one goes before, not below `low`. -/
def insertPosition (before : α → Bool) (table : List α) (low : Nat) : Nat → Nat
  | 0 => 0
  | position + 1 =>
      if low < position + 1 ∧ (table[position]?.any before) = true then
        insertPosition before table low position
      else position + 1

/-- Shift the elements from the insertion position on, and store the new element there. -/
def insertSorted (before : α → Bool) (table : List α) (low : Nat) (x : α) : List α :=
  let position := insertPosition before table low table.length
  table.take position ++ x :: table.drop position

theorem insertPosition_le (before : α → Bool) (table : List α) (low : Nat) :
    ∀ position, insertPosition before table low position ≤ position
  | 0 => Nat.le_refl 0
  | position + 1 => by
    unfold insertPosition
    split
    · exact Nat.le_succ_of_le (insertPosition_le before table low position)
    · exact Nat.le_refl _

/-- Everything the loop walked past goes after the new element. -/
theorem before_of_insertPosition_le (before : α → Bool) (table : List α) (low : Nat) :
    ∀ position i x, insertPosition before table low position ≤ i → i < position →
      table[i]? = some x → before x = true
  | 0, i, x, _, hi, _ => absurd hi (Nat.not_lt_zero i)
  | position + 1, i, x, hle, hi, hx => by
    unfold insertPosition at hle
    split at hle
    next hc =>
      by_cases hip : i = position
      · subst hip
        rw [hx] at hc
        exact hc.2
      · exact before_of_insertPosition_le before table low position i x hle (by omega) hx
    next => omega

/-- The element the loop stopped at does not go after the new element. -/
theorem not_before_of_insertPosition (before : α → Bool) (table : List α) (low : Nat) :
    ∀ position x, low < insertPosition before table low position →
      table[insertPosition before table low position - 1]? = some x → before x = false
  | 0, x, h, _ => absurd h (Nat.not_lt_zero low)
  | position + 1, x, h, hx => by
    unfold insertPosition at h hx
    split at h
    next hc =>
      rw [if_pos hc] at hx
      exact not_before_of_insertPosition before table low position x h hx
    next hc =>
      rw [if_neg hc, Nat.add_sub_cancel] at hx
      by_contra hb
      apply hc
      rw [hx]
      exact ⟨h, by simpa using hb⟩

theorem insertPosition_append (before : α → Bool) (done group : List α) :
    ∀ position, position ≤ group.length →
      insertPosition before (done ++ group) done.length (done.length + position)
        = done.length + insertPosition before group 0 position
  | 0, _ => by
    cases hd : done.length with
    | zero => rfl
    | succ n =>
      show insertPosition before (done ++ group) (n + 1) (n + 1) = n + 1
      rw [insertPosition, if_neg (by omega)]
  | position + 1, h => by
    have hget : (done ++ group)[done.length + position]? = group[position]? := by
      rw [List.getElem?_append_right (by omega), Nat.add_sub_cancel_left]
    rw [← Nat.add_assoc, insertPosition, hget, insertPosition]
    by_cases hc : (group[position]?.any before) = true
    · rw [if_pos ⟨by omega, hc⟩, if_pos ⟨by omega, hc⟩]
      exact insertPosition_append before done group position (by omega)
    · rw [if_neg (fun hh => hc hh.2), if_neg (fun hh => hc hh.2), Nat.add_assoc]

/-- Inserting into the last segment of a table leaves the segments before it alone. -/
theorem insertSorted_append (before : α → Bool) (done group : List α) (x : α) :
    insertSorted before (done ++ group) done.length x = done ++ insertSorted before group 0 x := by
  simp only [insertSorted]
  rw [length_append, insertPosition_append before done group group.length (Nat.le_refl _),
      take_length_add_append, drop_length_add_append, append_assoc]

theorem insertSorted_perm (before : α → Bool) (table : List α) (low : Nat) (x : α) :
    (insertSorted before table low x).Perm (x :: table) := by
  refine perm_middle.trans ?_
  rw [take_append_drop]

variable {table : List α}

/-- **Insertion keeps a table sorted**, for any transitive order that compares the new element with
every element of the table. -/
theorem insertSorted_pairwise {R : α → α → Prop} {before : α → Bool} {x : α}
    (htrans : ∀ a b c, R a b → R b c → R a c) (hbef : ∀ y ∈ table, before y = true → R x y)
    (hafter : ∀ y ∈ table, before y = false → R y x)
    (hsorted : table.Pairwise R) : (insertSorted before table 0 x).Pairwise R := by
  set p := insertPosition before table 0 table.length with hp
  have hple : p ≤ table.length := insertPosition_le before table 0 table.length
  -- everything stored below the insertion point precedes the new element
  have hbelow : ∀ y ∈ table.take p, R y x := by
    intro y hy
    obtain ⟨i, hi, hyi⟩ := getElem_of_mem hy
    rw [length_take, Nat.min_eq_left hple] at hi
    have hlast : p - 1 < table.length := by omega
    have hlastAfter : R table[p - 1] x :=
      hafter _ (getElem_mem hlast) (not_before_of_insertPosition before table 0 table.length table[p - 1]
          (by rw [← hp]; omega) (by rw [← hp]; exact List.getElem?_eq_getElem hlast))
    rw [getElem_take] at hyi
    subst hyi
    rcases Nat.lt_or_ge i (p - 1) with hlt | hge
    · exact htrans _ _ _ (pairwise_iff_getElem.mp hsorted i (p - 1) _ hlast hlt) hlastAfter
    have heq : i = p - 1 := by omega
    subst heq
    exact hlastAfter
  have habove : ∀ y ∈ table.drop p, R x y := by
    intro y hy
    obtain ⟨i, hi, hyi⟩ := getElem_of_mem hy
    rw [length_drop] at hi
    rw [getElem_drop] at hyi
    subst hyi
    exact hbef _ (getElem_mem _)
      (before_of_insertPosition_le before table 0 table.length (p + i) _ (by omega) (by omega)
        (List.getElem?_eq_getElem (by omega)))
  refine pairwise_append.mpr ⟨hsorted.sublist (take_sublist p table), ?_, ?_⟩
  · exact pairwise_cons.mpr ⟨habove, hsorted.sublist (drop_sublist p table)⟩
  intro y hy z hz
  rcases mem_cons.mp hz with rfl | hz
  · exact hbelow y hy
  · exact htrans _ _ _ (hbelow y hy) (habove z hz)

/-! ## §2. Binary search. -/

/-- The halving loop: `cmp` compares the key with an element. `fuel` bounds the number of rounds;
`high - low` rounds are always enough (`search_spec`). -/
def search (cmp : α → Ordering) (table : List α) : Nat → Nat → Nat → Bool × Nat
  | 0, low, _ => (false, low)
  | fuel + 1, low, high =>
      if low < high then
        let middle := low + (high - low) / 2
        match table[middle]? with
        | none => (false, low)
        | some x =>
            match cmp x with
            | .eq => (true, middle)
            | .lt => search cmp table fuel low middle
            | .gt => search cmp table fuel (middle + 1) high
      else (false, low)

/-- The comparison with the key is monotone along the table: strictly above the key stays strictly
above to the right, strictly below stays strictly below to the left. -/
def Monotone (cmp : α → Ordering) (table : List α) : Prop :=
  table.Pairwise fun a b => (cmp a ≠ .gt → cmp b = .lt) ∧ (cmp b ≠ .lt → cmp a = .gt)

/-- What the search reports: the key's position, or the gap the key falls into. -/
def SearchSpec (cmp : α → Ordering) (table : List α) : Bool × Nat → Prop
  | (true, i) => ∃ x, table[i]? = some x ∧ cmp x = .eq
  | (false, i) => i ≤ table.length ∧ (∀ x ∈ table.take i, cmp x = .gt) ∧
      (∀ x ∈ table.drop i, cmp x = .lt)

theorem search_spec {cmp : α → Ordering} (hmono : Monotone cmp table) :
    ∀ fuel low high, high - low ≤ fuel → low ≤ high → high ≤ table.length →
      (∀ x ∈ table.take low, cmp x = .gt) → (∀ x ∈ table.drop high, cmp x = .lt) →
      SearchSpec cmp table (search cmp table fuel low high) := by
  have hpair := pairwise_iff_getElem.mp hmono
  intro fuel
  induction fuel with
  | zero =>
    intro low high hfuel hle hhigh hbelow habove
    have heq : high = low := by omega
    subst heq
    exact ⟨hhigh, hbelow, habove⟩
  | succ fuel ih =>
    intro low high hfuel hle hhigh hbelow habove
    unfold search
    split
    next hlt =>
      set middle := low + (high - low) / 2 with hmid
      have hm : middle < table.length := by omega
      simp only [List.getElem?_eq_getElem hm]
      -- the probe decides which half keeps the key
      cases hc : cmp table[middle] with
      | eq => exact ⟨table[middle], List.getElem?_eq_getElem hm, hc⟩
      | lt =>
        apply ih low middle (by omega) (by omega) (by omega) hbelow
        intro x hx
        obtain ⟨i, hi, hxi⟩ := getElem_of_mem hx
        rw [length_drop] at hi
        rw [getElem_drop] at hxi
        subst hxi
        rcases Nat.eq_zero_or_pos i with h0 | h0
        · subst h0; exact hc
        · exact (hpair middle (middle + i) hm (by omega) (by omega)).1 (by rw [hc]; decide)
      | gt =>
        apply ih (middle + 1) high (by omega) (by omega) hhigh _ habove
        intro x hx
        obtain ⟨i, hi, hxi⟩ := getElem_of_mem hx
        rw [length_take] at hi
        rw [getElem_take] at hxi
        subst hxi
        rcases Nat.lt_or_ge i middle with hlt' | hge
        · exact (hpair i middle (by omega) hm hlt').2 (by rw [hc]; decide)
        have heq : i = middle := by omega
        subst heq
        exact hc
    next hge =>
      have heq : high = low := by omega
      subst heq
      exact ⟨hhigh, hbelow, habove⟩

/-- The search over the whole table. -/
theorem search_whole {cmp : α → Ordering} (hmono : Monotone cmp table) :
    SearchSpec cmp table (search cmp table table.length 0 table.length) := by
  apply search_spec hmono table.length 0 table.length (by omega) (by omega) (Nat.le_refl _)
  · intro x hx; simp at hx
  · intro x hx; simp at hx

end RinRuntime.Lib.SortedTable
