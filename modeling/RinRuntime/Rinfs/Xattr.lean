/-
Rinfs.Xattr — the check of an attribute block of RinFS (`src/rinfs/rinfs.c`).

A block read from the device is checked before anything else looks at it, so the check meets any bytes at
all. It is modelled over a memory that goes on behind the block, and as a computation over the offsets it
has read so far: what it reads is part of what it does.
-/
import RinRuntime.Lib.Exec

namespace RinRuntime.Rinfs.Xattr
open Lib

/-! ## §1. The check. -/

/-- `RINFS_XATTR_HEADER_BYTES`. -/
def headerBytes : Nat := 16

/-- `RINFS_XATTR_RECORD_BYTES`. -/
def recordBytes : Nat := 6

/-- `RINFS_XATTR_MAGIC`, "RAX1". -/
def magic : Nat := 0x31584152

/-- `RINFS_XATTR_VERSION`. -/
def version : Nat := 1

/-- `RINFS_XATTR_NAME_MAX`. -/
def nameMax : Nat := 255

/-- `RINFS_XATTR_ENTRY_MAX`. -/
def entryMax : Nat := 64

/-- Memory from the first byte of the block on. -/
abbrev Memory := Nat → UInt8

/-- A check over the offsets read so far; it fails where the code returns 0. -/
abbrev Check := Exec Unit (List Nat)

/-- `block[i]`. -/
def byteAt (mem : Memory) (i : Nat) : Check UInt8 := fun reads => (.ok (mem i), i :: reads)

/-- `rinfs_xattr_read_u16`. -/
def readU16 (mem : Memory) (i : Nat) : Check Nat := do
  let byte0 ← byteAt mem i
  let byte1 ← byteAt mem (i + 1)
  pure (byte0.toNat ||| byte1.toNat <<< 8)

/-- `rinfs_xattr_read_u32`. -/
def readU32 (mem : Memory) (i : Nat) : Check Nat := do
  let byte0 ← byteAt mem i
  let byte1 ← byteAt mem (i + 1)
  let byte2 ← byteAt mem (i + 2)
  let byte3 ← byteAt mem (i + 3)
  pure (byte0.toNat ||| byte1.toNat <<< 8 ||| byte2.toNat <<< 16 ||| byte3.toNat <<< 24)

/-- A byte no name may have: the end of a string, a slash, a control character. -/
def RefusedByte (byte : UInt8) : Prop := byte = 0 ∨ byte = 0x2f ∨ byte < 0x20 ∨ byte = 0x7f

instance (byte : UInt8) : Decidable (RefusedByte byte) := inferInstanceAs (Decidable (_ ∨ _))

/-- The loop of `rinfs_xattr_name_valid`. -/
def nameBytes (mem : Memory) : (left i : Nat) → Check Unit
  | 0, _ => pure ()
  | left + 1, i => do
    let byte ← byteAt mem i
    Exec.require (¬ RefusedByte byte) ()
    nameBytes mem left (i + 1)

/-- `rinfs_xattr_name_valid` of the `length` bytes at `i`. -/
def nameValid (mem : Memory) (i length : Nat) : Check Unit := do
  Exec.require (length ≠ 0 ∧ length ≤ nameMax) ()
  nameBytes mem length i

/-- The loop over the records; it returns the cursor behind the last one. The cursor never passes
`bytes_used`, so neither the differences nor the sums leave 32 bits. -/
def records (mem : Memory) (bytesUsed : Nat) : (left cursor : Nat) → Check Nat
  | 0, cursor => pure cursor
  | left + 1, cursor => do
    Exec.require (recordBytes ≤ bytesUsed - cursor) ()
    let nameLength ← readU16 mem cursor
    let valueLength ← readU32 mem (cursor + 2)
    -- the bytes of the name are looked at before its length is compared with what is left
    nameValid mem (cursor + recordBytes) nameLength
    Exec.require (nameLength ≤ bytesUsed - (cursor + recordBytes)) ()
    Exec.require (valueLength ≤ bytesUsed - (cursor + recordBytes + nameLength)) ()
    records mem bytesUsed left (cursor + recordBytes + nameLength + valueLength)

/-- The loop over the unused bytes. -/
def zeroBytes (mem : Memory) : (left i : Nat) → Check Unit
  | 0, _ => pure ()
  | left + 1, i => do
    let byte ← byteAt mem i
    Exec.require (byte = 0) ()
    zeroBytes mem left (i + 1)

/-- `rinfs_xattr_block_valid`. -/
def blockValid (mem : Memory) (blockSize : Nat) : Check Unit := do
  Exec.require (headerBytes ≤ blockSize) ()
  let magic' ← readU32 mem 0
  Exec.require (magic' = magic) ()
  let version' ← readU16 mem 4
  Exec.require (version' = version) ()
  let reserved ← readU32 mem 12
  Exec.require (reserved = 0) ()
  let entryCount ← readU16 mem 6
  let bytesUsed ← readU32 mem 8
  Exec.require (entryCount ≤ entryMax ∧ headerBytes ≤ bytesUsed ∧ bytesUsed ≤ blockSize) ()
  let cursor ← records mem bytesUsed entryCount headerBytes
  Exec.require (cursor = bytesUsed) ()
  zeroBytes mem (blockSize - bytesUsed) bytesUsed

/-! ## §2. What the fields say. -/

/-- The 16-bit field at `i`. -/
def u16At (mem : Memory) (i : Nat) : Nat := (mem i).toNat ||| (mem (i + 1)).toNat <<< 8

/-- The 32-bit field at `i`. -/
def u32At (mem : Memory) (i : Nat) : Nat :=
  (mem i).toNat ||| (mem (i + 1)).toNat <<< 8 ||| (mem (i + 2)).toNat <<< 16 ||| (mem (i + 3)).toNat <<< 24

/-- The header passes. -/
def HeaderPasses (mem : Memory) (blockSize : Nat) : Prop :=
  headerBytes ≤ blockSize ∧ u32At mem 0 = magic ∧ u16At mem 4 = version ∧ u32At mem 12 = 0
    ∧ u16At mem 6 ≤ entryMax ∧ headerBytes ≤ u32At mem 8 ∧ u32At mem 8 ≤ blockSize

/-- The name of the record at `cursor` is settled inside the block: its length is refused as it is, or it
ends inside the block, or a byte of it that lies inside the block is refused. -/
def NameInside (mem : Memory) (blockSize cursor : Nat) : Prop :=
  let nameLength := u16At mem cursor
  let i := cursor + recordBytes
  nameLength = 0 ∨ nameMax < nameLength ∨ i + nameLength ≤ blockSize
    ∨ ∃ k < nameLength, i + k < blockSize ∧ RefusedByte (mem (i + k))

/-- The record at `cursor` passes. -/
def RecordPasses (mem : Memory) (bytesUsed cursor : Nat) : Prop :=
  let nameLength := u16At mem cursor
  let i := cursor + recordBytes
  (nameLength ≠ 0 ∧ nameLength ≤ nameMax) ∧ (∀ k < nameLength, ¬ RefusedByte (mem (i + k)))
    ∧ nameLength ≤ bytesUsed - i ∧ u32At mem (cursor + 2) ≤ bytesUsed - (i + nameLength)

/-- Of the `left` records from `cursor` on, every one that is reached has its name settled inside the
block: those before it pass, and its own lengths are there. -/
def NamesInside (mem : Memory) (blockSize bytesUsed : Nat) : (left cursor : Nat) → Prop
  | 0, _ => True
  | left + 1, cursor => recordBytes ≤ bytesUsed - cursor →
      NameInside mem blockSize cursor ∧ (RecordPasses mem bytesUsed cursor →
        NamesInside mem blockSize bytesUsed left
          (cursor + recordBytes + u16At mem cursor + u32At mem (cursor + 2)))

/-! ## §3. The reads. -/

/-- Every offset lies inside the block. -/
def Inside (blockSize : Nat) (reads : List Nat) : Prop := ∀ i ∈ reads, i < blockSize

@[simp] theorem inside_nil {blockSize : Nat} : Inside blockSize [] := nofun

@[simp] theorem inside_cons {blockSize i : Nat} {reads : List Nat} :
    Inside blockSize (i :: reads) ↔ i < blockSize ∧ Inside blockSize reads := List.forall_mem_cons

section
variable {mem : Memory} {blockSize bytesUsed i left cursor : Nat} {reads : List Nat} {α : Type}
  {E : Unit → List Nat → Prop}

@[simp] theorem wp_byteAt {Q : UInt8 → List Nat → Prop} :
    Exec.wp (byteAt mem i) Q E reads ↔ Q (mem i) (i :: reads) := Iff.rfl

@[simp] theorem wp_readU16 {Q : Nat → List Nat → Prop} :
    Exec.wp (readU16 mem i) Q E reads ↔ Q (u16At mem i) ((i + 1) :: i :: reads) := Iff.rfl

@[simp] theorem wp_readU32 {Q : Nat → List Nat → Prop} : Exec.wp (readU32 mem i) Q E reads
      ↔ Q (u32At mem i) ((i + 3) :: (i + 2) :: (i + 1) :: i :: reads) := Iff.rfl

theorem wp_zeroBytes (h : i + left ≤ blockSize) :
    Exec.wp (zeroBytes mem left i) (fun _ => Inside blockSize) (fun _ => Inside blockSize) reads
      ↔ Inside blockSize reads := by
  induction left generalizing i reads with
  | zero => rfl
  | succ left ih =>
    have hi : i < blockSize := by omega
    simp only [zeroBytes, Exec.wp_bind, wp_byteAt, Exec.wp_require, ih (by omega : i + 1 + left ≤ _),
      inside_cons, hi, true_and, Classical.imp_and_neg_imp_iff]

/-- The scan of a name stays inside the block exactly when the name ends in it or a byte in it stops the
scan; `R` is what must hold once the scan is through. -/
theorem wp_nameBytes {Q : Unit → List Nat → Prop} {R : Prop}
    (hQ : ∀ reads, Q () reads ↔ Inside blockSize reads ∧ R) :
    Exec.wp (nameBytes mem left i) Q (fun _ => Inside blockSize) reads ↔ Inside blockSize reads
        ∧ (left = 0 ∨ i + left ≤ blockSize ∨ ∃ k < left, i + k < blockSize ∧ RefusedByte (mem (i + k)))
        ∧ ((∀ k < left, ¬ RefusedByte (mem (i + k))) → R) := by
  induction left generalizing i reads with
  | zero => simp [nameBytes, hQ]
  | succ left ih =>
    have hshift (k : Nat) : i + 1 + k = i + (k + 1) := by omega
    simp only [nameBytes, Exec.wp_bind, wp_byteAt, Exec.wp_require, ih, inside_cons,
      Nat.exists_lt_succ_left, Nat.forall_lt_succ_left, hshift, Nat.add_zero]
    by_cases href : RefusedByte (mem i)
    · grind
    · grind

/-- The walk over the records stays inside the block exactly when the names it reaches do. -/
theorem wp_records {Q : Nat → List Nat → Prop} (hused : bytesUsed ≤ blockSize)
    (hQ : ∀ {cursor reads}, cursor ≤ bytesUsed → (Q cursor reads ↔ Inside blockSize reads))
    (h : cursor ≤ bytesUsed) :
    Exec.wp (records mem bytesUsed left cursor) Q (fun _ => Inside blockSize) reads
      ↔ Inside blockSize reads ∧ NamesInside mem blockSize bytesUsed left cursor := by
  induction left generalizing cursor reads with
  | zero => simp [records, NamesInside, hQ h]
  | succ left ih =>
    simp only [records, nameValid, Exec.wp_bind, Exec.wp_require, wp_readU16, wp_readU32, NamesInside]
    by_cases hlengths : recordBytes ≤ bytesUsed - cursor
    · have hlt : cursor + 5 < blockSize := by
        unfold recordBytes at hlengths
        omega
      -- what is left to ask once the name is through
      rw [wp_nameBytes (R := u16At mem cursor ≤ bytesUsed - (cursor + recordBytes) →
        u32At mem (cursor + 2) ≤ bytesUsed - (cursor + recordBytes + u16At mem cursor) →
        NamesInside mem blockSize bytesUsed left
          (cursor + recordBytes + u16At mem cursor + u32At mem (cursor + 2)))]
      · simp only [inside_cons, NameInside, RecordPasses]
        grind
      intro reads
      by_cases hname : u16At mem cursor ≤ bytesUsed - (cursor + recordBytes)
      · by_cases hvalue : u32At mem (cursor + 2) ≤ bytesUsed - (cursor + recordBytes + u16At mem cursor)
        · simp only [hname, hvalue, true_imp_iff, not_true, false_imp_iff, and_true]
          exact ih (by omega)
        · simp [hname, hvalue]
      · simp [hname]
    · simp [hlengths]

/-- **What the check of an attribute block reads.** It stays inside the block exactly when, after a header
that passes, every record the walk reaches has its name settled inside the block. -/
theorem blockValid_inside_iff (mem : Memory) (blockSize : Nat) :
    (∀ i ∈ (blockValid mem blockSize []).2, i < blockSize) ↔ (HeaderPasses mem blockSize →
          NamesInside mem blockSize (u32At mem 8) (u16At mem 6) headerBytes) := by
  have hreads : Exec.wp (blockValid mem blockSize) (fun _ => Inside blockSize)
      (fun _ => Inside blockSize) [] ↔ Inside blockSize (blockValid mem blockSize []).2 := by
    unfold Exec.wp
    split <;> simp [*]
  refine hreads.symm.trans ?_
  simp only [blockValid, Exec.wp_bind, Exec.wp_require, wp_readU16, wp_readU32, HeaderPasses]
  by_cases hsize : headerBytes ≤ blockSize
  · have hlt {i : Nat} (h : i < 16) : i < blockSize := Nat.lt_of_lt_of_le h hsize
    by_cases hfields : u16At mem 6 ≤ entryMax ∧ headerBytes ≤ u32At mem 8 ∧ u32At mem 8 ≤ blockSize
    · rw [wp_records hfields.2.2 _ hfields.2.1]
      · simp [hsize, hfields, hlt]
      · intro cursor reads h
        rw [wp_zeroBytes (by omega), Classical.imp_and_neg_imp_iff]
    · simp [hsize, hfields, hlt]
  · simp [hsize]

end

/-- A block of 1024 bytes in full use: a record whose value reaches up to the last six bytes, and in these
the lengths of a second record, with a name of one byte. -/
def crossing : Memory := fun i =>
  if i = 1018 then 1
  else [0x52, 0x41, 0x58, 0x31, 1, 0, 2, 0, 0, 4, 0, 0, 0, 0, 0, 0, 1, 0, 0xe3, 3, 0, 0, 0x61].getD i 0

/-- The name of the second record begins behind the block, and its byte is read. -/
theorem blockValid_reads_behind : ¬ ∀ i ∈ (blockValid crossing 1024 []).2, i < 1024 := by
  decide

end RinRuntime.Rinfs.Xattr
