/-
Crypt.Layout — where an integrity volume keeps its parts.

`rin_crypt_integrity_layout` splits what follows the header into state, journal, tags and payload. One
tag block serves 32 payload blocks, so with `space` blocks for both the payload solves
`payload + ⌈payload / 32⌉ = space`, which the source finds by iteration. The left side leaves out every
number of the form `33 k + 1`: there the iteration has nothing to find.
-/
import Mathlib.Algebra.Group.Nat.Defs
import Mathlib.Tactic.Common

namespace RinRuntime.Crypt

/-! ## §1. The model. -/

/-- `UINT64_MAX`. -/
def uint64Max : Nat := 2 ^ 64 - 1

/-- `RIN_CRYPT_INTEGRITY_TAGS_PER_BLOCK`. -/
def tagsPerBlock : Nat := 32

/-- `RIN_CRYPT_INTEGRITY_JOURNAL_BLOCKS`. -/
def journalBlocks : Nat := 4

/-- `RIN_CRYPT_INTEGRITY_STATE_BLOCKS`. -/
def stateBlocks : Nat := 2

/-- `RIN_CRYPT_INTEGRITY_RESERVED_BLOCKS`. -/
def reservedBlocks : Nat := journalBlocks + stateBlocks

/-- `RinCryptIntegrityLayout`. -/
structure Layout where
  stateFirstLba : Nat
  journalFirstLba : Nat
  tagFirstLba : Nat
  tagBlockCount : Nat
  payloadFirstLba : Nat
  payloadBlockCount : Nat
  deriving DecidableEq

/-- The tag blocks for a payload: a division that rounds up. -/
def tagBlocks (payload : Nat) : Nat :=
  if payload % tagsPerBlock ≠ 0 then payload / tagsPerBlock + 1 else payload / tagsPerBlock

/-- The loop of `rin_crypt_integrity_layout`: payload and tags, if they are found within the rounds. -/
def splitSpace (space : Nat) : (rounds payload : Nat) → Option (Nat × Nat)
  | 0, _ => none
  | rounds + 1, payload =>
      if space < tagBlocks payload then none
      else if space - tagBlocks payload = payload then some (payload, tagBlocks payload)
      else splitSpace space rounds (space - tagBlocks payload)

/-- `rin_crypt_integrity_layout`; `none` where it returns 0. Nothing overflows once the tests are
passed: all sums are at most `partition_first_lba + partition_block_count`. -/
def layout (partitionFirstLba partitionBlockCount headerBlockCount : UInt64) : Option Layout :=
  let first := partitionFirstLba.toNat
  let count := partitionBlockCount.toNat
  let header := headerBlockCount.toNat
  if count = 0 ∨ count < header ∨ uint64Max - count < first then none
  else
    let available := count - header
    if available ≤ reservedBlocks then none
    else
      match splitSpace (available - reservedBlocks) 64 (available - reservedBlocks) with
      | none => none
      | some (payload, tags) =>
          if payload = 0 ∨ tags = 0 ∨ uint64Max - header < first ∨
              uint64Max - stateBlocks < first + header ∨
              uint64Max - journalBlocks < first + header + stateBlocks ∨
              uint64Max - tags < first + header + reservedBlocks then none
          else
            let stateFirst := first + header
            let journalFirst := stateFirst + stateBlocks
            let tagFirst := journalFirst + journalBlocks
            let payloadFirst := tagFirst + tags
            if payloadFirst + payload = first + count then
              some ⟨stateFirst, journalFirst, tagFirst, tags, payloadFirst, payload⟩
            else none

/-- `rin_crypt_integrity_layout_valid`. -/
def layoutValid (l : Layout) : Bool :=
  decide (l.payloadBlockCount ≠ 0 ∧ l.tagBlockCount ≠ 0 ∧
    l.tagBlockCount = tagBlocks l.payloadBlockCount ∧
    l.stateFirstLba ≤ uint64Max - stateBlocks ∧ l.stateFirstLba + stateBlocks = l.journalFirstLba ∧
    l.journalFirstLba ≤ uint64Max - journalBlocks ∧ l.journalFirstLba + journalBlocks = l.tagFirstLba ∧
    l.tagFirstLba ≤ uint64Max - l.tagBlockCount ∧ l.tagFirstLba + l.tagBlockCount = l.payloadFirstLba ∧
    l.payloadFirstLba ≤ uint64Max - l.payloadBlockCount)

/-! ## §2. Solutions of the split. -/

/-- Rounding up, as one division. -/
theorem tagBlocks_eq (payload : Nat) : tagBlocks payload = (payload + 31) / 32 := by
  unfold tagBlocks tagsPerBlock
  split <;> omega

/-- The payload that fills a space exactly, where there is one. -/
def payloadOf (space : Nat) : Nat := if space % 33 = 0 then space / 33 * 32 else space - space / 33 - 1

variable {space payload solution : Nat}

theorem payloadOf_solves (h : space % 33 ≠ 1) : payloadOf space + tagBlocks (payloadOf space) = space := by
  rw [tagBlocks_eq]
  unfold payloadOf
  split <;> omega

/-- **No payload fills a space of `33 k + 1` blocks.** -/
theorem not_solves (h : space % 33 = 1) : payload + tagBlocks payload ≠ space := by
  rw [tagBlocks_eq]
  omega

theorem solution_unique {p q : Nat} (hp : p + tagBlocks p = space) (hq : q + tagBlocks q = space) :
    p = q := by
  rw [tagBlocks_eq] at hp hq
  omega

/-! ## §3. The iteration. -/

/-- What the loop returns is a solution. -/
theorem splitSpace_solves : ∀ {rounds payload p t : Nat},
    splitSpace space rounds payload = some (p, t) → p + t = space ∧ t = tagBlocks p
  | 0, _, _, _, h => by cases h
  | rounds + 1, payload, p, t, h => by
    unfold splitSpace at h
    split at h
    · cases h
    next hfits =>
    split at h
    · next hfixed =>
      obtain ⟨rfl, rfl⟩ := Prod.mk.inj (Option.some.inj h)
      exact ⟨by omega, rfl⟩
    · exact splitSpace_solves h

/-- One round brings the payload closer to the solution by a factor of 32. -/
theorem round_closer {distance : Nat} (hsol : solution + tagBlocks solution = space)
    (hlow : solution ≤ payload + distance) (hhigh : payload ≤ solution + distance) :
    solution ≤ (space - tagBlocks payload) + (distance + 31) / 32 ∧
      space - tagBlocks payload ≤ solution + (distance + 31) / 32 := by
  rw [tagBlocks_eq] at hsol ⊢
  omega

/-- A payload that is off by one is put right in two rounds, and the third finds that nothing changes. -/
theorem splitSpace_near {rounds : Nat}
    (hsol : solution + tagBlocks solution = space) (hlow : solution ≤ payload + 1)
    (hhigh : payload ≤ solution + 1) (hspace : tagBlocks payload ≤ space) :
    splitSpace space (rounds + 3) payload = some (solution, tagBlocks solution) := by
  have hfound : ∀ n, splitSpace space (n + 1) solution = some (solution, tagBlocks solution) := by
    intro n
    unfold splitSpace
    rw [if_neg (by omega), if_pos (by omega)]
  by_cases hsame : payload = solution
  · rw [hsame]
    exact hfound _
  unfold splitSpace
  have hchanged : space - tagBlocks payload ≠ payload := by
    intro hfixed
    exact hsame (solution_unique (by omega) hsol)
  rw [if_neg (by omega), if_neg hchanged]
  by_cases hright : space - tagBlocks payload = solution
  · rw [hright]
    exact hfound _
  -- the payload steps over the solution, and the next round returns to it
  have hback : space - tagBlocks (space - tagBlocks payload) = solution ∧
      tagBlocks (space - tagBlocks payload) ≤ space := by
    rw [tagBlocks_eq] at *
    rw [tagBlocks_eq] at *
    omega
  unfold splitSpace
  rw [if_neg (by omega), if_neg (by omega), hback.1]
  exact hfound _

/-- **The iteration converges**: `n + 3` rounds are enough from a distance of `32 ^ n`. -/
theorem splitSpace_converges (hsol : solution + tagBlocks solution = space) :
    ∀ {n rounds payload : Nat}, solution ≤ payload + 32 ^ n → payload ≤ solution + 32 ^ n →
    payload ≤ space → splitSpace space (rounds + n + 3) payload = some (solution, tagBlocks solution)
  | 0, rounds, payload, hlow, hhigh, hspace => by
    have hfits : tagBlocks payload ≤ space := by
      rw [tagBlocks_eq]
      omega
    exact splitSpace_near hsol hlow hhigh hfits
  | n + 1, rounds, payload, hlow, hhigh, hspace => by
    have hfits : tagBlocks payload ≤ space := by
      rw [tagBlocks_eq]
      omega
    obtain ⟨hlow', hhigh'⟩ := round_closer hsol hlow hhigh
    have hdistance : (32 ^ (n + 1) + 31) / 32 = 32 ^ n := by
      rw [Nat.pow_succ]
      omega
    rw [hdistance] at hlow' hhigh'
    have hrounds : rounds + (n + 1) + 3 = rounds + n + 3 + 1 := by omega
    rw [hrounds]
    unfold splitSpace
    rw [if_neg (by omega)]
    by_cases hfixed : space - tagBlocks payload = payload
    · rw [if_pos hfixed, solution_unique hsol (by omega : payload + tagBlocks payload = space)]
    · rw [if_neg hfixed]
      exact splitSpace_converges hsol hlow' hhigh' (by omega)

/-- The loop of the source, which has 64 rounds for a space of at most 64 bits. -/
theorem splitSpace_64 (hspace : space ≤ uint64Max) : splitSpace space 64 space
      = if space % 33 = 1 then none else some (payloadOf space, tagBlocks (payloadOf space)) := by
  split
  · next hgap =>
    cases hsplit : splitSpace space 64 space with
    | none => rfl
    | some found =>
      obtain ⟨hsum, htags⟩ := splitSpace_solves hsplit
      rw [htags] at hsum
      exact absurd hsum (not_solves hgap)
  next hgap =>
  have hsol := payloadOf_solves hgap
  have hbound : uint64Max ≤ 32 ^ 13 := by decide
  have hfound : splitSpace space (48 + 13 + 3) space = some (payloadOf space, tagBlocks (payloadOf space)) :=
    splitSpace_converges hsol (by omega) (by omega) (Nat.le_refl _)
  exact hfound

/-! ## §4. Layouts. -/

/-- A layout fills the partition behind its header: state, journal, tags and payload, in this order and
without a gap. -/
structure Layout.Fills (l : Layout) (first count header : Nat) : Prop where
  state : l.stateFirstLba = first + header
  journal : l.journalFirstLba = l.stateFirstLba + stateBlocks
  tags : l.tagFirstLba = l.journalFirstLba + journalBlocks
  payload : l.payloadFirstLba = l.tagFirstLba + l.tagBlockCount
  last : l.payloadFirstLba + l.payloadBlockCount = first + count

variable {partitionFirstLba partitionBlockCount headerBlockCount : UInt64}

/-- What a layout that was found is like. -/
theorem layout_some {l : Layout} (h : layout partitionFirstLba partitionBlockCount headerBlockCount = some l) :
    l.Fills partitionFirstLba.toNat partitionBlockCount.toNat headerBlockCount.toNat ∧
      l.tagBlockCount = tagBlocks l.payloadBlockCount ∧ layoutValid l = true := by
  unfold layout at h
  dsimp only at h
  split at h
  · cases h
  next hrange =>
  split at h
  · cases h
  next hroom =>
  split at h
  · cases h
  next payload tags hsplit =>
  split at h
  · cases h
  next hfits =>
  split at h
  · next hlast =>
    obtain ⟨-, htags⟩ := splitSpace_solves hsplit
    obtain rfl := Option.some.inj h
    have hmax : uint64Max = 2 ^ 64 - 1 := rfl
    have hst : stateBlocks = 2 := rfl
    have hjournal : journalBlocks = 4 := rfl
    have hresv : reservedBlocks = 6 := rfl
    refine ⟨⟨rfl, rfl, rfl, rfl, hlast⟩, htags, ?_⟩
    unfold layoutValid
    rw [decide_eq_true_eq]
    dsimp only
    have hend : partitionFirstLba.toNat + partitionBlockCount.toNat ≤ uint64Max := by
      have hcnt := partitionBlockCount.toNat_lt
      omega
    have hpay : partitionFirstLba.toNat + headerBlockCount.toNat + stateBlocks + journalBlocks + tags
        ≤ uint64Max - payload := Nat.le_sub_of_add_le (by omega)
    exact ⟨by omega, by omega, htags, by omega, rfl, by omega, rfl, by omega, rfl, hpay⟩
  · cases h

/-- **A layout is found** for a partition in the address space with room for one payload block, unless the
blocks behind header and reserved blocks number `33 k + 1`; and a layout that is found has its regions in
order and in place, the right number of tag blocks, and is valid. -/
theorem layout_found_iff (partitionFirstLba partitionBlockCount headerBlockCount : UInt64) :
    (partitionFirstLba.toNat + partitionBlockCount.toNat ≤ uint64Max →
      headerBlockCount.toNat + reservedBlocks + 2 ≤ partitionBlockCount.toNat →
      ((layout partitionFirstLba partitionBlockCount headerBlockCount).isSome = true ↔
        (partitionBlockCount.toNat - headerBlockCount.toNat - reservedBlocks) % 33 ≠ 1)) ∧
    ∀ l, layout partitionFirstLba partitionBlockCount headerBlockCount = some l →
      l.Fills partitionFirstLba.toNat partitionBlockCount.toNat headerBlockCount.toNat ∧
        l.tagBlockCount = tagBlocks l.payloadBlockCount ∧ layoutValid l = true := by
  refine ⟨fun hrange hroom => ?_, fun l => layout_some⟩
  set first := partitionFirstLba.toNat with hfst
  set count := partitionBlockCount.toNat with hcnt
  set header := headerBlockCount.toNat with hheader
  have hmax : uint64Max = 2 ^ 64 - 1 := rfl
  have hst : stateBlocks = 2 := rfl
  have hjournal : journalBlocks = 4 := rfl
  have hresv : reservedBlocks = 6 := rfl
  unfold layout
  rw [← hfst, ← hcnt, ← hheader, if_neg (by omega), if_neg (by omega), splitSpace_64 (by omega)]
  set space := count - header - reservedBlocks with hspace
  by_cases hgap : space % 33 = 1
  · rw [if_pos hgap]
    simp [hgap]
  rw [if_neg hgap]
  have hsol := payloadOf_solves hgap
  have hpos : 1 ≤ payloadOf space ∧ 1 ≤ tagBlocks (payloadOf space) := by
    rw [tagBlocks_eq] at hsol ⊢
    omega
  dsimp only
  rw [if_neg (by omega), if_pos (by omega)]
  simp [hgap]

/-- A partition of 41 blocks without a header has a layout. -/
theorem layout_found_41 : (layout 0 41 0).isSome = true :=
  ((layout_found_iff 0 41 0).1 (by decide) (by decide)).mpr (by decide)

/-- A partition of 40 blocks without a header has none: 34 blocks are left for tags and payload, 33 payload
blocks would need 2 tag blocks and 32 leave a block over. -/
theorem layout_not_found : (0 : UInt64).toNat + (40 : UInt64).toNat ≤ uint64Max ∧
    (0 : UInt64).toNat + reservedBlocks + 2 ≤ (40 : UInt64).toNat ∧ layout 0 40 0 = none := by decide

end RinRuntime.Crypt
