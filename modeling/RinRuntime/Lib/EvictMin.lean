/-
Lib.EvictMin — tables of fixed size that evict their least entry.

A slot is empty or holds a key with a rank. A write raises the rank of a key that is held, or takes an empty
slot for a new key, or, where none is empty, the slot of the least rank, for a new key of greater rank. Such
a table forgets keys. It does not go back on them: whatever rank a key once had, a later write for it has a
greater one, because the least rank of a full table never decreases and bounds the ranks of all that was
evicted.
-/
import Mathlib.Order.Basic
import Mathlib.Logic.Relation

namespace RinRuntime.Lib.EvictMin
open Option
variable {ι K R : Type} [DecidableEq ι]

/-- Slots with keys and ranks. -/
abbrev Table (ι K R : Type) := ι → Option (K × R)

/-- No slot holds the key. -/
def Table.Absent (t : Table ι K R) (k : K) : Prop := ∀ i r, t i ≠ some (k, r)

/-- Every key is held by at most one slot. -/
def Table.Unique (t : Table ι K R) : Prop :=
  ∀ i j k r r', t i = some (k, r) → t j = some (k, r') → i = j

/-- Store a key with a rank in a slot. -/
def Table.store (t : Table ι K R) (i : ι) (k : K) (r : R) : Table ι K R := Function.update t i (some (k, r))

theorem store_same (t : Table ι K R) (i : ι) (k : K) (r : R) : t.store i k r i = some (k, r) :=
  Function.update_self ..

theorem store_other (t : Table ι K R) {i j : ι} (k : K) (r : R) (h : j ≠ i) : t.store i k r j = t j :=
  Function.update_of_ne h ..

section
variable [Preorder R]

/-- The writes of a table: which slot may take a key with a rank. -/
inductive Write (t : Table ι K R) (k : K) (r : R) (i : ι) : Prop where
  | raise (old : R) (hheld : t i = some (k, old)) (hlt : old < r)
  | insert (hnil : t i = none) (hnew : t.Absent k)
  | evict (hfull : ∀ j, t j ≠ none) (hnew : t.Absent k) (victim : K) (least : R)
      (hvictim : t i = some (victim, least)) (hleast : ∀ j k' r', t j = some (k', r') → least ≤ r')
      (hlt : least < r)

/-- One write. -/
def Step (t t' : Table ι K R) : Prop := ∃ k r i, Write t k r i ∧ t' = t.store i k r

variable {t t' : Table ι K R} {k : K} {r : R} {i : ι}

/-- Writes keep keys in one slot each. -/
theorem Write.unique (h : Write t k r i) (huniq : t.Unique) : (t.store i k r).Unique := by
  -- a slot other than the one written does not hold the key
  have hoth : ∀ j r', j ≠ i → t j ≠ some (k, r') := by
    intro j r' hne hj
    cases h with
    | raise old hheld _ => exact hne (huniq j i k r' old hj hheld)
    | insert _ hnew => exact hnew j r' hj
    | evict _ hnew _ _ _ _ _ => exact hnew j r' hj
  intro a b k' ra rb ha hb
  by_cases hai : a = i
  · by_cases hbi : b = i
    · rw [hai, hbi]
    rw [hai, store_same] at ha
    rw [store_other t k r hbi] at hb
    obtain ⟨rfl, -⟩ := Prod.mk.inj (some.inj ha)
    exact absurd hb (hoth b rb hbi)
  rw [store_other t k r hai] at ha
  by_cases hbi : b = i
  · rw [hbi, store_same] at hb
    obtain ⟨rfl, -⟩ := Prod.mk.inj (some.inj hb)
    exact absurd ha (hoth a ra hai)
  · rw [store_other t k r hbi] at hb
    exact huniq a b k' ra rb ha hb

/-- The table holds the key with at least this rank, or is full of entries of at least this rank. -/
def Table.Remembers (t : Table ι K R) (k : K) (r : R) : Prop :=
  (∃ i now, t i = some (k, now) ∧ r ≤ now) ∨ ∀ i, ∃ k' now, t i = some (k', now) ∧ r ≤ now

/-- **What is remembered stays remembered.** -/
theorem Write.remembers (h : Write t k r i) {k0 : K} {r0 : R} (hmem : t.Remembers k0 r0) :
    (t.store i k r).Remembers k0 r0 := by
  rcases hmem with ⟨j, now, hj, hle⟩ | hall
  · by_cases hji : j = i
    · subst hji
      cases h with
      | raise old hheld hlt =>
        -- the slot holds one key, so this key was raised
        obtain ⟨rfl, rfl⟩ := Prod.mk.inj (some.inj (hj.symm.trans hheld))
        exact Or.inl ⟨j, r, store_same t j _ r, hle.trans hlt.le⟩
      | insert hnil _ =>
        rw [hnil] at hj
        cases hj
      | evict hfull _ victim least hvictim hleast hlt =>
        obtain ⟨-, rfl⟩ := Prod.mk.inj (some.inj (hj.symm.trans hvictim))
        right
        intro a
        by_cases ha : a = j
        · exact ⟨k, r, by rw [ha, store_same], hle.trans hlt.le⟩
        · obtain ⟨⟨k', r'⟩, hslot⟩ := ne_none_iff_exists'.mp (hfull a)
          exact ⟨k', r', by rw [store_other t k r ha, hslot], hle.trans (hleast a k' r' hslot)⟩
    · exact Or.inl ⟨j, now, by rw [store_other t k r hji, hj], hle⟩
  right
  intro a
  by_cases ha : a = i
  · subst ha
    obtain ⟨k', now, hslot, hle⟩ := hall a
    refine ⟨k, r, store_same t a k r, ?_⟩
    cases h with
    | raise old hheld hlt =>
      obtain ⟨-, rfl⟩ := Prod.mk.inj (some.inj (hslot.symm.trans hheld))
      exact hle.trans hlt.le
    | insert hnil _ =>
      rw [hnil] at hslot
      cases hslot
    | evict _ _ victim least hvictim _ hlt =>
      obtain ⟨-, rfl⟩ := Prod.mk.inj (some.inj (hslot.symm.trans hvictim))
      exact hle.trans hlt.le
  · obtain ⟨k', now, hslot, hle⟩ := hall a
    exact ⟨k', now, by rw [store_other t k r ha, hslot], hle⟩

omit [DecidableEq ι] in
/-- A write for a key that is remembered has a greater rank. -/
theorem Write.lt_of_remembers (h : Write t k r i) {r0 : R} (huniq : t.Unique)
    (hmem : t.Remembers k r0) : r0 < r := by
  rcases hmem with ⟨j, now, hj, hle⟩ | hall
  · cases h with
    | raise old hheld hlt =>
      obtain rfl := huniq j i k now old hj hheld
      obtain ⟨-, rfl⟩ := Prod.mk.inj (some.inj (hj.symm.trans hheld))
      exact hle.trans_lt hlt
    | insert _ hnew | evict _ hnew _ _ _ _ _ => exact absurd hj (hnew j now)
  obtain ⟨k', now, hslot, hle⟩ := hall i
  cases h with
  | raise old hheld hlt =>
    obtain ⟨-, rfl⟩ := Prod.mk.inj (some.inj (hslot.symm.trans hheld))
    exact hle.trans_lt hlt
  | insert hnil _ =>
    rw [hnil] at hslot
    cases hslot
  | evict _ _ victim least hvictim _ hlt =>
    obtain ⟨-, rfl⟩ := Prod.mk.inj (some.inj (hslot.symm.trans hvictim))
    exact hle.trans_lt hlt

/-! Runs of writes. -/

theorem unique_of_steps (h : Relation.ReflTransGen Step t t') (huniq : t.Unique) : t'.Unique := by
  induction h with
  | refl => exact huniq
  | tail _ hstep ih =>
    obtain ⟨k, r, i, hwrite, rfl⟩ := hstep
    exact hwrite.unique ih

theorem remembers_of_steps (h : Relation.ReflTransGen Step t t') (hmem : t.Remembers k r) :
    t'.Remembers k r := by
  induction h with
  | refl => exact hmem
  | tail _ hstep ih =>
    obtain ⟨k', r', i', hwrite, rfl⟩ := hstep
    exact hwrite.remembers ih

/-- **Ranks of a key increase over a whole run**, also where the key is evicted on the way. -/
theorem rank_lt_of_steps (huniq : t.Unique) (hheld : t i = some (k, r))
    (h : Relation.ReflTransGen Step t t') {j : ι} {r' : R} (hwrite : Write t' k r' j) : r < r' :=
  hwrite.lt_of_remembers (unique_of_steps h huniq)
    (remembers_of_steps h (Or.inl ⟨i, r, hheld, le_refl r⟩))

end
end RinRuntime.Lib.EvictMin
