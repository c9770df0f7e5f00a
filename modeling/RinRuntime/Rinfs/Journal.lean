/-
Rinfs.Journal — the rename journal of RinFS (`src/rinfs/rinfs.c`).

The journal inode has one block, or two with the dual-journal feature, each with one packed record.
`encode`/`decode` are the copies between a block and `RinFS_RenameJournal`, `journalRecordState` judges a
block, `journalLoad` picks the live record, and `journalStoreWrites`/`journalClearWrites` list the slot
writes of a store and of a clear in order. The device reports no errors here, so the read-back of
`rinfs_journal_write_slot` always agrees.
-/
import Mathlib.Control.Traversable.Basic
import RinRuntime.Lib.DualSlot
import RinRuntime.Lib.LittleEndian
import Mathlib.Data.List.GetD
import Mathlib.Logic.Function.Iterate

namespace RinRuntime.Rinfs
open Lib LittleEndian List

/-- A block of the device. -/
abbrev Block := List (BitVec 8)

/-! ## §1. The checksum. -/

/-- One round of `crc32_init`. -/
def crcRound (c : BitVec 32) : BitVec 32 :=
  if c.getLsbD 0 then 0xEDB88320#32 ^^^ (c >>> 1) else c >>> 1

/-- `crc32_table`. -/
def crcTable (i : BitVec 8) : BitVec 32 := crcRound^[8] (i.setWidth 32)

/-- `rinfs_checksum`. -/
def checksum (data : List (BitVec 8)) : BitVec 32 :=
  let crc := data.foldl
    (fun (crc : BitVec 32) byte =>
      crcTable ((crc ^^^ byte.setWidth 32).setWidth 8) ^^^ (crc >>> 8)) 0xFFFFFFFF#32
  crc ^^^ 0xFFFFFFFF#32

/-! ## §2. The record. -/

/-- `RINFS_NAME_MAX`. -/
def nameMax : Nat := 255

/-- `RINFS_RENAME_JOURNAL_MAGIC`, "RRNJ". -/
def renameJournalMagic : BitVec 32 := 0x4A4E5252

/-- `RINFS_RENAME_JOURNAL_VERSION`. -/
def renameJournalVersion : BitVec 16 := 1

/-- `RINFS_RENAME_JOURNAL_ACTIVE`. -/
def renameJournalActive : BitVec 16 := 1

/-- `RinFS_RenameJournal`. -/
structure RenameJournal where
  magic : BitVec 32
  version : BitVec 16
  state : BitVec 16
  sequence : BitVec 32
  checksum : BitVec 32
  oldDir : BitVec 64
  newDir : BitVec 64
  oldIno : BitVec 64
  replacedIno : BitVec 64
  oldType : BitVec 8
  flags : BitVec 8
  oldNameLen : BitVec 16
  newNameLen : BitVec 16
  reserved : BitVec 16
  oldName : List (BitVec 8)
  newName : List (BitVec 8)
  deriving DecidableEq, Repr

/-- The packed image of a record. -/
def RenameJournal.encode (record : RenameJournal) : List (BitVec 8) :=
  encodeLE 4 record.magic ++ (encodeLE 2 record.version ++ (encodeLE 2 record.state ++
  (encodeLE 4 record.sequence ++ (encodeLE 4 record.checksum ++
  (encodeLE 8 record.oldDir ++ (encodeLE 8 record.newDir ++
  (encodeLE 8 record.oldIno ++ (encodeLE 8 record.replacedIno ++
  (encodeLE 1 record.oldType ++ (encodeLE 1 record.flags ++
  (encodeLE 2 record.oldNameLen ++ (encodeLE 2 record.newNameLen ++ (encodeLE 2 record.reserved ++
  (record.oldName ++ record.newName))))))))))))))

/-- The record at the start of a block. -/
def RenameJournal.decode (block : Block) : RenameJournal :=
  StateT.run' (m := Id) (do
    let magic ← readLE 4 32
    let version ← readLE 2 16
    let state ← readLE 2 16
    let sequence ← readLE 4 32
    let checksum ← readLE 4 32
    let oldDir ← readLE 8 64
    let newDir ← readLE 8 64
    let oldIno ← readLE 8 64
    let replacedIno ← readLE 8 64
    let oldType ← readLE 1 8
    let flags ← readLE 1 8
    let oldNameLen ← readLE 2 16
    let newNameLen ← readLE 2 16
    let reserved ← readLE 2 16
    let oldName ← readBytes (nameMax + 1)
    let newName ← readBytes (nameMax + 1)
    return ⟨magic, version, state, sequence, checksum, oldDir, newDir, oldIno, replacedIno, oldType,
      flags, oldNameLen, newNameLen, reserved, oldName, newName⟩) block

/-- What `rinfs_journal_record_state` makes of a record: 0, 1 or -1. -/
inductive RecordState where
  | empty
  | active
  | invalid
  deriving DecidableEq, Repr

/-- The checksum a record should carry. -/
def RenameJournal.calculated (record : RenameJournal) : BitVec 32 :=
  Rinfs.checksum { record with checksum := 0 }.encode

/-- `rinfs_journal_record_state`. -/
def journalRecordState (record : RenameJournal) : RecordState :=
  if record.magic = 0 ∧ record.state = 0 then .empty
  else if record.magic ≠ renameJournalMagic ∨
      record.version ≠ renameJournalVersion ∨
      record.state ≠ renameJournalActive ∨
      record.oldNameLen = 0 ∨ nameMax < record.oldNameLen.toNat ∨
      record.newNameLen = 0 ∨ nameMax < record.newNameLen.toNat ∨
      record.oldName.getD record.oldNameLen.toNat 0 ≠ 0 ∨
      record.newName.getD record.newNameLen.toNat 0 ≠ 0 then .invalid
  else if record.checksum = record.calculated then .active else .invalid

/-- One round of `rinfs_journal_load`: `saw_empty`, and the live record so far. -/
def journalLoadStep (acc : Bool × Option RenameJournal) (block : Block) :
    Bool × Option RenameJournal :=
  let candidate := RenameJournal.decode block
  match journalRecordState candidate with
  | .empty => (true, acc.2)
  | .invalid => acc
  | .active =>
      match acc.2 with
      | none => (acc.1, some candidate)
      | some record =>
          if DualSlot.newer candidate.sequence record.sequence then (acc.1, some candidate) else acc

/-- `rinfs_journal_load` over the blocks of the journal inode: `none` is `RINFS_ERR_CORRUPT`. -/
def journalLoad (slots : List Block) : Option (Option RenameJournal) :=
  let acc := slots.foldl journalLoadStep (false, none)
  if acc.2.isNone && !acc.1 then none else some acc.2

/-! ## §3. The writers. -/

/-- The record as `rinfs_journal_store` writes it. -/
def RenameJournal.sealed (record : RenameJournal) : RenameJournal :=
  { record with checksum := record.calculated }

/-- A block with a record at its start. -/
def slotImage (blockSize : Nat) (record : RenameJournal) : Block :=
  record.encode ++ List.replicate (blockSize - record.encode.length) 0

/-- A zeroed block. -/
def zeroBlock (blockSize : Nat) : Block := List.replicate blockSize 0

/-- The write of `rinfs_journal_store`. -/
def journalStoreWrites (blockSize count : Nat) (record : RenameJournal) : List (Nat × Block) :=
  [(record.sequence.toNat % count, slotImage blockSize record.sealed)]

/-- The writes of `rinfs_journal_clear`: the stale slot before the newest one. -/
def journalClearWrites (blockSize : Nat) (slots : List Block) : List (Nat × Block) :=
  match journalLoad slots with
  | none => []
  | some active =>
      let count := slots.length
      let activeSlot := match active with
        | some record => record.sequence.toNat % count
        | none => 0
      (List.range count).map fun pass =>
        (if active.isSome ∧ count = 2 then (if pass = 0 then activeSlot ^^^ 1 else activeSlot) else pass,
          zeroBlock blockSize)

/-- A file name: 1 to 255 bytes without a terminator among them. -/
structure FileName where
  bytes : List (BitVec 8)
  length_pos : 0 < bytes.length
  length_le : bytes.length ≤ nameMax
  noNul : 0#8 ∉ bytes
  deriving DecidableEq

/-- The name in a `char[RINFS_NAME_MAX + 1]` of a zeroed record. -/
def FileName.field (name : FileName) : List (BitVec 8) :=
  name.bytes ++ List.replicate (nameMax + 1 - name.bytes.length) 0

/-- What a caller journals. -/
structure Intent where
  oldDir : BitVec 64
  oldName : FileName
  newDir : BitVec 64
  newName : FileName
  oldIno : BitVec 64
  replacedIno : BitVec 64
  oldType : BitVec 8
  flags : BitVec 8
  deriving DecidableEq

/-- The flags of a rename (`rinfs_journal_begin_rename`). -/
def renameFlags (hasReplaced exchange : Bool) : BitVec 8 :=
  (if hasReplaced then 0x01#8 else 0#8) ||| (if exchange then 0x04#8 else 0#8)

/-- The arguments of `rinfs_journal_begin_rename`. -/
def renameIntent (oldDir : BitVec 64) (oldName : FileName) (newDir : BitVec 64) (newName : FileName)
    (oldIno : BitVec 64) (oldType : BitVec 8) (hasReplaced : Bool) (replacedIno : BitVec 64)
    (exchange : Bool) : Intent :=
  ⟨oldDir, oldName, newDir, newName, oldIno, replacedIno, oldType, renameFlags hasReplaced exchange⟩

/-- The record both of them build. -/
def Intent.record (intent : Intent) (sequence : BitVec 32) : RenameJournal where
  magic := renameJournalMagic
  version := renameJournalVersion
  state := renameJournalActive
  sequence := sequence
  checksum := 0
  oldDir := intent.oldDir
  newDir := intent.newDir
  oldIno := intent.oldIno
  replacedIno := intent.replacedIno
  oldType := intent.oldType
  flags := intent.flags
  oldNameLen := BitVec.ofNat 16 intent.oldName.bytes.length
  newNameLen := BitVec.ofNat 16 intent.newName.bytes.length
  reserved := 0
  oldName := intent.oldName.field
  newName := intent.newName.field

/-! ## §4. What a block shows. -/

/-- A block as a cell of the dual-slot register. -/
def slotCell (block : Block) : DualSlot.Cell RenameJournal :=
  match journalRecordState (RenameJournal.decode block) with
  | .empty => .empty
  | .invalid => .junk
  | .active => .live (RenameJournal.decode block)

/-- Loading the journal is loading the register. -/
theorem journalLoad_eq (slots : List Block) :
    journalLoad slots = DualSlot.load RenameJournal.sequence (slots.map slotCell) := by
  have hstep : (fun acc block => DualSlot.loadStep RenameJournal.sequence acc (slotCell block))
      = journalLoadStep := by
    funext acc block
    cases hst : journalRecordState (RenameJournal.decode block) with
    | empty | invalid => simp [slotCell, journalLoadStep, DualSlot.loadStep, hst]
    | active =>
      simp only [slotCell, journalLoadStep, DualSlot.loadStep, hst]
      cases acc.2 <;> rfl
  unfold journalLoad DualSlot.load
  rw [foldl_map, hstep]

theorem RenameJournal.decode_encode {record : RenameJournal} (hold : record.oldName.length = nameMax + 1)
    (hnew : record.newName.length = nameMax + 1) (rest : Block) :
    decode (record.encode ++ rest) = record := by
  unfold decode encode
  simp only [append_assoc, StateT.run', bind, StateT.bind, readLE_encodeLE,
    readBytes_append hold, readBytes_append hnew, Nat.le_refl, Functor.map, Nat.reduceMul]
  rfl

theorem FileName.length_field (name : FileName) : name.field.length = nameMax + 1 := by
  have hle := name.length_le
  rw [FileName.field, length_append, length_replicate]
  omega

/-- The length field holds the length, and the name is terminated there. -/
theorem FileName.field_terminated (name : FileName) :
    (BitVec.ofNat 16 name.bytes.length).toNat = name.bytes.length ∧
      name.field.getD name.bytes.length 0 = 0#8 := by
  have hle := name.length_le
  unfold nameMax at hle
  constructor
  · rw [BitVec.toNat_ofNat, Nat.mod_eq_of_lt (by omega)]
  rw [FileName.field, getD_append_right _ _ _ _ (Nat.le_refl _), Nat.sub_self,
    getD_eq_getElem?_getD, getElem?_replicate]
  split <;> rfl

/-- A stored record reads back as itself and is active. -/
theorem slotCell_image (blockSize : Nat) (intent : Intent) (sequence : BitVec 32) :
    slotCell (slotImage blockSize (intent.record sequence).sealed)
      = .live (intent.record sequence).sealed := by
  have hdecode : RenameJournal.decode (slotImage blockSize (intent.record sequence).sealed)
      = (intent.record sequence).sealed :=
    RenameJournal.decode_encode intent.oldName.length_field intent.newName.length_field _
  have hst : journalRecordState (intent.record sequence).sealed = .active := by
    obtain ⟨holdLen, holdEnd⟩ := intent.oldName.field_terminated
    obtain ⟨hnewLen, hnewEnd⟩ := intent.newName.field_terminated
    have hold := intent.oldName.length_pos
    have hnew := intent.newName.length_pos
    have hold0 : BitVec.ofNat 16 intent.oldName.bytes.length ≠ 0#16 := by
      intro h
      rw [h] at holdLen
      exact absurd holdLen.symm (Nat.ne_of_gt hold)
    have hnew0 : BitVec.ofNat 16 intent.newName.bytes.length ≠ 0#16 := by
      intro h
      rw [h] at hnewLen
      exact absurd hnewLen.symm (Nat.ne_of_gt hnew)
    unfold journalRecordState
    rw [if_neg, if_neg, if_pos]
    · rfl
    · show ¬ (renameJournalMagic ≠ renameJournalMagic ∨ renameJournalVersion ≠ renameJournalVersion ∨
        renameJournalActive ≠ renameJournalActive ∨ BitVec.ofNat 16 intent.oldName.bytes.length = 0 ∨
        nameMax < (BitVec.ofNat 16 intent.oldName.bytes.length).toNat ∨
        BitVec.ofNat 16 intent.newName.bytes.length = 0 ∨
        nameMax < (BitVec.ofNat 16 intent.newName.bytes.length).toNat ∨
        intent.oldName.field.getD (BitVec.ofNat 16 intent.oldName.bytes.length).toNat 0 ≠ 0 ∨
        intent.newName.field.getD (BitVec.ofNat 16 intent.newName.bytes.length).toNat 0 ≠ 0)
      rw [holdLen, hnewLen, holdEnd, hnewEnd]
      simp [hold0, hnew0, Nat.not_lt.mpr intent.oldName.length_le, Nat.not_lt.mpr intent.newName.length_le]
    · intro h
      exact absurd h.1 (by show ¬ renameJournalMagic = 0; decide)
  unfold slotCell
  rw [hdecode, hst]

end RinRuntime.Rinfs
