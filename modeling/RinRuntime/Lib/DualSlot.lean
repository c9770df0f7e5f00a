/-
Lib.DualSlot — a register kept in two slots with wrapping sequence numbers.

A slot is empty, holds a record, or is junk (a torn write). `load` returns the newest record, and fails only
when neither slot is readable. A record goes to the slot of its number's parity, so it never overwrites the
newest one; the register is cleared by emptying the stale slot first.

`Holds seq cells a` says that two cells hold the register content `a`. §3 follows it through complete
writes, and through interrupted ones that leave the old cell, the new cell, or no record.
-/
import Mathlib.Algebra.Group.Nat.Defs
import Mathlib.Data.List.Basic

namespace RinRuntime.Lib.DualSlot
open List

/-! ## §1. Sequence numbers. -/

/-- `candidate` was issued after `current`, less than half the number range ago. -/
def newer (candidate current : BitVec 32) : Bool :=
  candidate != current && decide (candidate - current < 0x80000000#32)

theorem newer_self (n : BitVec 32) : newer n n = false := by
  simp [newer]

theorem newer_succ (n : BitVec 32) : newer (n + 1#32) n = true := by
  unfold newer
  have hdiff : n + 1#32 - n = 1#32 := by
    rw [BitVec.add_comm, BitVec.add_sub_cancel]
  rw [hdiff, Bool.and_eq_true, bne_iff_ne, decide_eq_true_eq]
  refine ⟨?_, by decide⟩
  intro h
  rw [h, BitVec.sub_self] at hdiff
  exact absurd hdiff (by decide)

theorem not_newer_succ (n : BitVec 32) : newer n (n + 1#32) = false := by
  unfold newer
  have hdiff : n - (n + 1#32) = 0xffffffff#32 := by
    rw [← BitVec.sub_sub, BitVec.sub_self]
    rfl
  rw [hdiff, Bool.and_eq_false_iff]
  exact .inr (by decide)

/-- Successive numbers go to different slots, also where the numbers wrap. -/
theorem parity_succ (n : BitVec 32) : (n + 1#32).toNat % 2 = 1 - n.toNat % 2 := by
  rw [BitVec.toNat_add]
  show (n.toNat + 1) % 2 ^ 32 % 2 = _
  omega

/-! ## §2. Cells. -/

/-- What a slot shows. -/
inductive Cell (α : Type*) where
  | empty
  | junk
  | live (record : α)
  deriving DecidableEq

variable {α : Type*} (seq : α → BitVec 32)

/-- One slot of a load: whether an empty slot was seen, and the newest record so far. -/
def loadStep (acc : Bool × Option α) : Cell α → Bool × Option α
  | .empty => (true, acc.2)
  | .junk => acc
  | .live record =>
      match acc.2 with
      | none => (acc.1, some record)
      | some best => if newer (seq record) (seq best) then (acc.1, some record) else acc

/-- Load the register: `none` when neither slot is readable. -/
def load (cells : List (Cell α)) : Option (Option α) :=
  let acc := cells.foldl (loadStep seq) (false, none)
  if acc.2.isNone && !acc.1 then none else some acc.2

/-- Two cells hold the register content `a`. -/
structure Holds (cells : List (Cell α)) (a : Option α) : Prop where
  length : cells.length = 2
  empty : a = none → (∀ record, .live record ∉ cells) ∧ .empty ∈ cells
  live : ∀ record, a = some record → cells[(seq record).toNat % 2]? = some (.live record) ∧
    ∀ other, .live other ∈ cells → other = record ∨ seq record = seq other + 1#32

variable {seq}

variable {cells : List (Cell α)} {cell : Cell α} {slot : Nat} {a : Option α}

/-- A load returns what the register holds. -/
theorem Holds.load (h : Holds seq cells a) : load seq cells = some a := by
  obtain ⟨first, second, rfl⟩ := length_eq_two.mp h.length
  cases a with
  | none =>
    obtain ⟨hnone, hnil⟩ := h.empty rfl
    cases first with
    | live record => exact absurd (mem_cons_self ..) (hnone record)
    | empty =>
      cases second with
      | live record => exact absurd (by simp) (hnone record)
      | empty => rfl
      | junk => rfl
    | junk =>
      cases second with
      | live record => exact absurd (by simp) (hnone record)
      | empty => rfl
      | junk => simp at hnil
  | some record =>
    obtain ⟨hslot, hothers⟩ := h.live record rfl
    rcases Nat.mod_two_eq_zero_or_one (seq record).toNat with hparity | hparity
    · -- the record is in the first slot: the second must not be newer
      rw [hparity] at hslot
      obtain rfl : first = .live record := by simpa using hslot
      cases second with
      | empty => rfl
      | junk => rfl
      | live other =>
        have hnewer : newer (seq other) (seq record) = false := by
          rcases hothers other (by simp) with heq | hsucc
          · rw [heq, newer_self]
          · rw [hsucc, not_newer_succ]
        simp [DualSlot.load, loadStep, hnewer]
    -- the record is in the second slot: it must be newer than the first, or the same
    rw [hparity] at hslot
    obtain rfl : second = .live record := by simpa using hslot
    cases first with
    | empty => rfl
    | junk => rfl
    | live other =>
      rcases hothers other (by simp) with heq | hsucc
      · simp [DualSlot.load, loadStep, heq, newer_self]
      · simp [DualSlot.load, loadStep, hsucc, newer_succ]

/-! ## §3. Writes. -/

/-- A cell after an interrupted write of `new` over `old`: one of the two, or no record at all. -/
def Interrupted (old new cell : Cell α) : Prop :=
  cell = old ∨ cell = new ∨ ∀ record, cell ≠ .live record

theorem set_same (h : cells[slot]? = some cell) : cells.set slot cell = cells := by
  obtain ⟨hlt, rfl⟩ := List.getElem?_eq_some_iff.mp h
  exact set_getElem_self hlt

theorem mem_set_pair (hlen : cells.length = 2) (hslot : slot < 2) {new cell : Cell α} :
    cell ∈ cells.set slot new ↔ cell = new ∨ cells[1 - slot]? = some cell := by
  obtain ⟨first, second, rfl⟩ := length_eq_two.mp hlen
  rcases (by omega : slot = 0 ∨ slot = 1) with rfl | rfl
  · simp [eq_comm]
  · simp [or_comm, eq_comm]

theorem getElem_set_other (hslot : slot < 2) (new : Cell α) :
    (cells.set slot new)[1 - slot]? = cells[1 - slot]? :=
  List.getElem?_set_ne (by omega)

/-- The next record is written beside the newest one. -/
theorem Holds.store (h : Holds seq cells a) (record : α)
    (hnext : ∀ last, a = some last → seq record = seq last + 1#32) :
    Holds seq (cells.set ((seq record).toNat % 2) (.live record)) (some record) where
  length := by rw [length_set, h.length]
  empty := fun hnone => absurd hnone (by simp)
  live := by
    intro written hwr
    obtain rfl : record = written := by simpa using hwr
    have hslot : (seq record).toNat % 2 < 2 := Nat.mod_lt _ (by decide)
    refine ⟨by rw [List.getElem?_set_self (by rw [h.length]; exact hslot)], ?_⟩
    intro other hoth
    rcases (mem_set_pair h.length hslot).mp hoth with heq | hold
    · left
      simpa using heq
    cases a with
    | none => exact absurd (mem_of_getElem? hold) ((h.empty rfl).1 other)
    | some last =>
      -- the other slot is the one of the last record
      obtain ⟨hlast, -⟩ := h.live last rfl
      have hparity : 1 - (seq record).toNat % 2 = (seq last).toNat % 2 := by
        rw [hnext last rfl, parity_succ]
        omega
      rw [hparity, hlast] at hold
      obtain rfl : last = other := by simpa using hold
      exact .inr (hnext last rfl)

/-- An interrupted store leaves the content or stores the record, provided no slot was junk. -/
theorem Holds.interruptedStore (h : Holds seq cells a)
    (record : α) (hnext : ∀ last, a = some last → seq record = seq last + 1#32) (hjunk : .junk ∉ cells)
    (hcell : Interrupted (cells.getD ((seq record).toNat % 2) .junk) (.live record) cell) :
    Holds seq (cells.set ((seq record).toNat % 2) cell) a ∨
      Holds seq (cells.set ((seq record).toNat % 2) cell) (some record) := by
  have hslot : (seq record).toNat % 2 < 2 := Nat.mod_lt _ (by decide)
  have hold : cells[(seq record).toNat % 2]? =
      some (cells.getD ((seq record).toNat % 2) .junk) := by
    rw [getD_eq_getElem?_getD, List.getElem?_eq_getElem (by rw [h.length]; exact hslot)]
    rfl
  rcases hcell with heq | heq | hnone
  · left
    rw [heq, set_same hold]
    exact h
  · right
    rw [heq]
    exact h.store record hnext
  left
  refine ⟨by rw [length_set, h.length], ?_, ?_⟩
  · intro ha
    obtain ⟨hlive, -⟩ := h.empty ha
    obtain ⟨first, second, rfl⟩ := length_eq_two.mp h.length
    -- no junk and no record: both slots were empty
    have hfst : first = .empty := by
      cases first with
      | empty => rfl
      | junk => simp at hjunk
      | live r => exact absurd (by simp) (hlive r)
    have hsec : second = .empty := by
      cases second with
      | empty => rfl
      | junk => simp at hjunk
      | live r => exact absurd (by simp) (hlive r)
    subst hfst hsec
    constructor
    · intro r hr
      rcases (mem_set_pair rfl hslot).mp hr with h' | h'
      · exact hnone r h'.symm
      · exact hlive r (mem_of_getElem? h')
    rw [mem_set_pair rfl hslot]
    right
    rcases (by omega : (seq record).toNat % 2 = 0 ∨ (seq record).toNat % 2 = 1) with h' | h' <;> simp [h']
  intro last ha
  obtain ⟨hlast, hothers⟩ := h.live last ha
  have hparity : (seq last).toNat % 2 = 1 - (seq record).toNat % 2 := by
    rw [hnext last ha, parity_succ]
    omega
  refine ⟨by rw [hparity, getElem_set_other hslot, ← hparity, hlast], ?_⟩
  intro other hoth
  rcases (mem_set_pair h.length hslot).mp hoth with h' | h'
  · exact absurd h'.symm (hnone other)
  · exact hothers other (mem_of_getElem? h')

theorem holds_cleared : Holds seq [.empty, .empty] none where
  length := rfl
  empty := fun _ => by simp
  live := fun record h => absurd h (by simp)

/-- Emptying one slot and then the other clears the register. -/
theorem Holds.clear (h : Holds seq cells a)
    (hslot : slot < 2) : Holds seq ((cells.set (1 - slot) .empty).set slot .empty) none := by
  obtain ⟨first, second, rfl⟩ := length_eq_two.mp h.length
  rcases (by omega : slot = 0 ∨ slot = 1) with rfl | rfl
  · exact holds_cleared
  · exact holds_cleared

/-- Emptying a slot of an empty register, or part of it, changes nothing. -/
theorem Holds.interruptedErase (h : Holds seq cells none)
    (hslot : slot < 2) (hnone : ∀ record, cell ≠ .live record)
    (hkept : cells[slot]? = some .empty → cell = .empty) :
    Holds seq (cells.set slot cell) none where
  length := by rw [length_set, h.length]
  empty := by
    intro _
    obtain ⟨hlive, hnil⟩ := h.empty rfl
    constructor
    · intro record hrec
      rcases (mem_set_pair h.length hslot).mp hrec with h' | h'
      · exact hnone record h'.symm
      · exact hlive record (mem_of_getElem? h')
    rw [mem_set_pair h.length hslot]
    obtain ⟨i, hi⟩ := mem_iff_getElem?.mp hnil
    by_cases hsame : i = slot
    · left
      exact (hkept (hsame ▸ hi)).symm
    right
    have hlt : i < 2 := by
      rw [← h.length]
      exact (List.getElem?_eq_some_iff.mp hi).1
    have hoth : 1 - slot = i := by omega
    rw [hoth, hi]
  live := fun record hrec => absurd hrec (by simp)

/-- While the stale slot is being emptied the content stays. -/
theorem Holds.interruptedStale {record : α} (h : Holds seq cells (some record))
    (hcell : Interrupted (cells.getD (1 - (seq record).toNat % 2) .junk) .empty cell) :
    Holds seq (cells.set (1 - (seq record).toNat % 2) cell) (some record) where
  length := by rw [length_set, h.length]
  empty := fun hnone => absurd hnone (by simp)
  live := by
    intro written hwr
    obtain rfl : record = written := by simpa using hwr
    obtain ⟨hlast, hothers⟩ := h.live record rfl
    have hslot : 1 - (seq record).toNat % 2 < 2 := by omega
    have hback : 1 - (1 - (seq record).toNat % 2) = (seq record).toNat % 2 := by omega
    have hkept : (cells.set (1 - (seq record).toNat % 2) cell)[1 - (1 - (seq record).toNat % 2)]? = _ :=
      getElem_set_other hslot cell
    rw [hback, hlast] at hkept
    refine ⟨hkept, ?_⟩
    intro other hoth
    rcases (mem_set_pair h.length hslot).mp hoth with h' | h'
    · rcases hcell with heq | heq | hnone
      · -- the stale slot kept its record
        apply hothers other
        rw [h', heq, getD_eq_getElem?_getD, List.getElem?_eq_getElem (by rw [h.length]; exact hslot)]
        exact getElem_mem _
      · rw [heq] at h'
        exact absurd h' (by simp)
      · exact absurd h'.symm (hnone other)
    · exact hothers other (mem_of_getElem? h')

/-- While the last slot is being emptied the content stays or goes. -/
theorem Holds.interruptedLast {record : α}
    (h : Holds seq cells (some record)) (hstale : cells[1 - (seq record).toNat % 2]? = some .empty)
    (hcell : Interrupted (.live record) .empty cell) :
    Holds seq (cells.set ((seq record).toNat % 2) cell) (some record) ∨
      Holds seq (cells.set ((seq record).toNat % 2) cell) none := by
  have hslot : (seq record).toNat % 2 < 2 := Nat.mod_lt _ (by decide)
  obtain ⟨hlast, -⟩ := h.live record rfl
  by_cases hkept : cell = .live record
  · left
    rw [hkept, set_same hlast]
    exact h
  right
  refine ⟨by rw [length_set, h.length], ?_, fun r hr => absurd hr (by simp)⟩
  intro _
  constructor
  · intro r hr
    rcases (mem_set_pair h.length hslot).mp hr with h' | h'
    · rcases hcell with heq | heq | hnone
      · exact hkept heq
      · rw [heq] at h'
        exact absurd h' (by simp)
      · exact hnone r h'.symm
    · rw [hstale] at h'
      exact absurd h' (by simp)
  · exact (mem_set_pair h.length hslot).mpr (.inr hstale)

end RinRuntime.Lib.DualSlot
