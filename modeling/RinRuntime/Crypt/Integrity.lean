/-
Crypt.Integrity — the integrity volume on its block device.

A volume keeps a tag for every payload sector. A write goes through a journal: new sector and tag page to
two journal pages, two copies of a descriptor for them, sector and page to their places, then empty
descriptors. Recovery finishes a write that a valid descriptor stands for.

HMAC-SHA256 is a parameter of the volume. Scratch buffers and their wiping are left out.
-/
import RinRuntime.Crypt.Layout
import RinRuntime.Lib.CrashDisk
import RinRuntime.Lib.LittleEndian

namespace RinRuntime.Crypt
open Lib LittleEndian CrashDisk

/-! ## §1. Blocks and authentication codes. -/

abbrev Byte := BitVec 8

/-- A block of `RIN_CRYPT_INTEGRITY_BLOCK_SIZE` bytes. -/
abbrev Block := Vector Byte 512

/-- A tag of `RIN_CRYPT_INTEGRITY_TAG_SIZE` bytes. -/
abbrev Tag := Vector Byte 16

/-- The bytes of a block from an offset on. -/
def bytesAt (b : Block) (offset length : Nat) : List Byte := (b.toList.drop offset).take length

/-- The little-endian number at an offset. -/
def numberAt (b : Block) (offset length : Nat) : Nat := ofLE (bytesAt b offset length)

/-- Whether all bytes are zero. -/
def allZero (bytes : List Byte) : Bool := bytes.all (· == 0)

/-- The bytes of a text. -/
def text (s : String) : List Byte := s.toList.map fun c => BitVec.ofNat 8 c.toNat

/-- What a volume is opened with: where its parts are, the keys, and HMAC-SHA256. -/
structure Volume where
  layout : Layout
  hmac : (key message : List Byte) → Vector Byte 32
  key : Vector Byte 32
  volumeId : Vector Byte 16
  keyEpoch : UInt64

/-- HMAC-SHA256 under the key of the volume. -/
def Volume.mac (v : Volume) (message : List Byte) : Vector Byte 32 := v.hmac v.key.toList message

/-- The first bytes of a digest. -/
def truncate (digest : Vector Byte 32) : Tag := Vector.ofFn fun i : Fin 16 => digest.get ⟨i.val, by omega⟩

/-- The fields that a tag binds a sector to: epoch, position and volume. -/
def Volume.tagFields (v : Volume) (position : Nat) : List Byte :=
  toLE 8 v.keyEpoch.toNat ++ toLE 8 position ++ v.volumeId.toList

/-- `rin_crypt_integrity_tag`: what it authenticates. -/
def Volume.tagMessage (v : Volume) (position : Nat) (ciphertext : Block) : List Byte :=
  text "RinOS RCT2 sector tag" ++ v.tagFields position ++ ciphertext.toList

/-- `rin_crypt_integrity_tag`. -/
def Volume.tag (v : Volume) (position : Nat) (ciphertext : Block) : Tag :=
  truncate (v.mac (v.tagMessage position ciphertext))

/-- `rin_crypt_integrity_zero_sector_tag`: what it authenticates. -/
def Volume.zeroSectorMessage (v : Volume) (position : Nat) : List Byte :=
  text "RinOS RCT2 logical zero sector" ++ v.tagFields position

/-- `rin_crypt_integrity_zero_sector_tag`. -/
def Volume.zeroSectorTag (v : Volume) (position : Nat) : Tag := truncate (v.mac (v.zeroSectorMessage position))

/-- The slot of a sector in its tag page. -/
def slotOf (index : Nat) : Fin 32 := ⟨index % tagsPerBlock, Nat.mod_lt _ (by decide)⟩

/-- The tag in a slot of a tag page. -/
def pageTag (page : Block) (slot : Fin 32) : Tag :=
  Vector.ofFn fun i : Fin 16 => page.get ⟨slot.val * 16 + i.val, by omega⟩

/-- Put a tag into a slot of a tag page. -/
def setTag (page : Block) (slot : Fin 32) (tag : Tag) : Block :=
  Vector.ofFn fun i : Fin 512 =>
    if i.val / 16 = slot.val then tag.get ⟨i.val % 16, Nat.mod_lt _ (by decide)⟩ else page.get i

/-! ## §2. The state blocks. -/

/-- The magic of a state block, `RIV2`. -/
def stateMagic : List Byte := [0x52, 0x49, 0x56, 0x32]

/-- `rin_crypt_integrity_state_mac`. -/
def Volume.stateMac (v : Volume) (state : Block) : Vector Byte 32 :=
  v.mac (text "RinOS RCT2 initialized volume state" ++ v.volumeId.toList ++ bytesAt state 0 56)

/-- The distance of a part from the state blocks. -/
def Layout.fromState (l : Layout) (lba : Nat) : Nat :=
  if l.stateFirstLba ≤ lba then lba - l.stateFirstLba else uint64Max

/-- `rin_crypt_integrity_state_valid`: the status, or 0. -/
def stateValid (v : Volume) (state : Block) : Nat :=
  if v.keyEpoch = 0 ∨ bytesAt state 0 4 ≠ stateMagic ∨ numberAt state 4 4 ≠ 1 ∨
      numberAt state 16 8 ≠ v.keyEpoch.toNat ∨ numberAt state 24 8 ≠ v.layout.payloadBlockCount ∨
      numberAt state 32 8 ≠ v.layout.tagBlockCount ∨
      numberAt state 40 8 ≠ v.layout.fromState v.layout.payloadFirstLba ∨
      numberAt state 48 8 ≠ v.layout.fromState v.layout.tagFirstLba then 0
  else if numberAt state 8 4 ≠ 1 ∧ numberAt state 8 4 ≠ 2 then 0
  else if allZero (bytesAt state 12 4) = false ∨ allZero (bytesAt state 88 424) = false then 0
  else if (v.stateMac state).toList ≠ bytesAt state 56 32 then 0
  else numberAt state 8 4

/-- The first bytes of the state block that `rin_crypt_integrity_state_write` writes. -/
def Volume.stateHead (v : Volume) (status : Nat) : List Byte :=
  stateMagic ++ toLE 4 1 ++ toLE 4 status ++ List.replicate 4 0 ++ toLE 8 v.keyEpoch.toNat ++
    toLE 8 v.layout.payloadBlockCount ++ toLE 8 v.layout.tagBlockCount ++
    toLE 8 (v.layout.payloadFirstLba - v.layout.stateFirstLba) ++
    toLE 8 (v.layout.tagFirstLba - v.layout.stateFirstLba)

theorem length_stateHead (v : Volume) (status : Nat) : (v.stateHead status).length = 56 := by
  simp [Volume.stateHead, stateMagic, length_toLE]

/-- The state block that `rin_crypt_integrity_state_write` writes. -/
def Volume.stateBlock (v : Volume) (status : Nat) : Block :=
  ⟨(v.stateHead status ++ (v.mac (text "RinOS RCT2 initialized volume state" ++ v.volumeId.toList ++
      v.stateHead status)).toList ++ List.replicate 424 0).toArray, by
    rw [List.size_toArray, List.length_append, List.length_append, length_stateHead, Vector.length_toList,
      List.length_replicate]⟩

/-- `RIN_CRYPT_INTEGRITY_STATE_…`, without that of a failed read. -/
inductive VolumeState where
  | empty
  | pending
  | ready
  | readyPending
  | invalid
  deriving DecidableEq

/-- What the two state blocks say together. -/
def stateOf (v : Volume) (first second : Block) : VolumeState :=
  let firstZero := allZero first.toList
  let secondZero := allZero second.toList
  let firstState := if firstZero then 0 else stateValid v first
  let secondState := if secondZero then 0 else stateValid v second
  if firstState = 2 ∧ secondState = 2 then .ready
  else if firstState = 2 ∧ secondState = 1 ∨ secondState = 2 ∧ firstState = 1 then .readyPending
  else if firstState = 1 ∧ (secondState = 1 ∨ secondZero) ∨ secondState = 1 ∧ firstZero then .pending
  else if firstZero ∧ secondZero then .empty
  else .invalid

/-- The failures of `RinCryptIntegrityResult`. -/
inductive Failure where
  | io
  | auth
  | invalid
  deriving DecidableEq

/-- Programs on the device of a volume. -/
abbrev Program := Exec Failure (Device Block)

/-- `rin_crypt_integrity_state_read`. -/
def stateRead (v : Volume) : Program VolumeState := do
  if layoutValid v.layout = false ∨ uint64Max - 1 < v.layout.stateFirstLba then
    pure .invalid
  else
    let first ← readBlock .io v.layout.stateFirstLba
    let second ← readBlock .io (v.layout.stateFirstLba + 1)
    pure (stateOf v first second)

/-! ## §3. Descriptors. -/

/-- The magic of a descriptor, `RCJ2`. -/
def journalMagic : List Byte := [0x52, 0x43, 0x4a, 0x32]

/-- A descriptor: forty bytes and their code, padded with zeros. -/
def sealed (head : List Byte) (code : Vector Byte 32) (h : head.length = 40) : Block :=
  ⟨(head ++ code.toList ++ List.replicate 440 0).toArray, by
    rw [List.size_toArray, List.length_append, List.length_append, h, Vector.length_toList,
      List.length_replicate]⟩

/-- `rin_crypt_integrity_empty_journal_mac`. -/
def Volume.emptyJournalMac (v : Volume) (head : List Byte) : Vector Byte 32 :=
  v.mac (text "RinOS RCT2 empty write-ahead journal" ++ v.volumeId.toList ++ head)

/-- `rin_crypt_integrity_empty_journal_valid`. -/
def emptyJournalValid (v : Volume) (d : Block) : Bool :=
  decide (v.keyEpoch ≠ 0 ∧ bytesAt d 0 4 = journalMagic ∧ numberAt d 4 4 = 1 ∧ bytesAt d 28 1 = [1] ∧
    numberAt d 32 8 = v.keyEpoch.toNat ∧ allZero (bytesAt d 8 20) = true ∧ allZero (bytesAt d 29 3) = true ∧
    allZero (bytesAt d 72 440) = true ∧ (v.emptyJournalMac (bytesAt d 0 40)).toList = bytesAt d 40 32)

/-- The forty bytes of an empty descriptor. -/
def Volume.emptyHead (v : Volume) : List Byte :=
  journalMagic ++ toLE 4 1 ++ List.replicate 20 0 ++ [1] ++ List.replicate 3 0 ++ toLE 8 v.keyEpoch.toNat

theorem length_emptyHead (v : Volume) : v.emptyHead.length = 40 := by
  simp [Volume.emptyHead, journalMagic, length_toLE]

/-- The empty descriptor. -/
def Volume.emptyJournal (v : Volume) : Block :=
  sealed v.emptyHead (v.emptyJournalMac v.emptyHead) (length_emptyHead v)

/-- `rin_crypt_integrity_empty_journal_write`. -/
def emptyJournalWrite (v : Volume) (copyIndex : Nat) : Program Unit := do
  Exec.require (layoutValid v.layout = true ∧ v.keyEpoch ≠ 0 ∧ copyIndex < 2 ∧
    v.layout.journalFirstLba ≤ uint64Max - copyIndex) .invalid
  writeThrough .io (v.layout.journalFirstLba + copyIndex) v.emptyJournal

/-- `rin_crypt_integrity_journal_mac`. -/
def Volume.journalMac (v : Volume) (head : List Byte) (ciphertext page : Block) : Vector Byte 32 :=
  v.mac (text "RinOS RCT2 write-ahead journal" ++ head ++ ciphertext.toList ++ page.toList)

/-- The sector a descriptor is for. -/
def descriptorIndex (d : Block) : Nat := numberAt d 8 8

/-- `rin_crypt_integrity_journal_valid`. -/
def journalValid (v : Volume) (d ciphertext page : Block) : Bool :=
  decide (layoutValid v.layout = true ∧ bytesAt d 0 4 = journalMagic ∧ numberAt d 4 4 = 1 ∧
    numberAt d 32 8 = v.keyEpoch.toNat ∧ allZero (bytesAt d 28 4) = true ∧
    allZero (bytesAt d 72 440) = true ∧ descriptorIndex d < v.layout.payloadBlockCount ∧
    numberAt d 16 8 = descriptorIndex d / tagsPerBlock ∧ numberAt d 24 4 = descriptorIndex d % tagsPerBlock ∧
    numberAt d 16 8 < v.layout.tagBlockCount ∧
    (v.journalMac (bytesAt d 0 40) ciphertext page).toList = bytesAt d 40 32 ∧
    v.tag (descriptorIndex d) ciphertext = pageTag page (slotOf (descriptorIndex d)))

/-- The forty bytes of the descriptor of a sector. -/
def Volume.journalHead (v : Volume) (index : Nat) : List Byte :=
  journalMagic ++ toLE 4 1 ++ toLE 8 index ++ toLE 8 (index / tagsPerBlock) ++
    toLE 4 (index % tagsPerBlock) ++ List.replicate 4 0 ++ toLE 8 v.keyEpoch.toNat

theorem length_journalHead (v : Volume) (index : Nat) : (v.journalHead index).length = 40 := by
  simp [Volume.journalHead, journalMagic, length_toLE]

/-- The descriptor of a sector. -/
def Volume.journal (v : Volume) (index : Nat) (ciphertext page : Block) : Block :=
  sealed (v.journalHead index) (v.journalMac (v.journalHead index) ciphertext page)
    (length_journalHead v index)

/-! ## §4. Recovery, verification and writes. -/

/-- Both descriptors are made empty, one after the other. -/
def clearJournal (v : Volume) : Program Unit := do
  (emptyJournalWrite v 0).orFail fun _ => .io
  (emptyJournalWrite v 1).orFail fun _ => .io

/-- Sector and tag page go to their places, and the descriptors are made empty. -/
def applyJournal (v : Volume) (index : Nat) (ciphertext page : Block) : Program Unit := do
  writeThrough .io (v.layout.payloadFirstLba + index) ciphertext
  writeThrough .io (v.layout.tagFirstLba + index / tagsPerBlock) page
  clearJournal v

/-- The end of `rin_crypt_integrity_recover`, without a valid descriptor. -/
def repairJournal (v : Volume) (firstEmpty secondEmpty : Bool) : Program Unit := do
  Exec.require (firstEmpty = true ∨ secondEmpty = true) .invalid
  Exec.when (firstEmpty = false) ((emptyJournalWrite v 0).orFail fun _ => .io)
  Exec.when (secondEmpty = false) ((emptyJournalWrite v 1).orFail fun _ => .io)

/-- The end of `rin_crypt_integrity_recover`, with a valid descriptor. -/
def replayJournal (v : Volume) (descriptor ciphertext page : Block) : Program Unit := do
  let index := descriptorIndex descriptor
  Exec.require (index < v.layout.payloadBlockCount ∧ numberAt descriptor 16 8 = index / tagsPerBlock ∧
    numberAt descriptor 16 8 < v.layout.tagBlockCount ∧ v.layout.payloadFirstLba ≤ uint64Max - index ∧
    v.layout.tagFirstLba ≤ uint64Max - numberAt descriptor 16 8) .invalid
  applyJournal v index ciphertext page

/-- What `rin_crypt_integrity_recover` does with the four journal blocks. -/
def recoverJournal (v : Volume) (first second ciphertext page : Block) : Program Unit :=
  let firstZero := allZero first.toList
  let secondZero := allZero second.toList
  let firstEmpty := !firstZero && emptyJournalValid v first
  let secondEmpty := !secondZero && emptyJournalValid v second
  let firstValid := !firstZero && journalValid v first ciphertext page
  let secondValid := !secondZero && journalValid v second ciphertext page
  if firstValid = false ∧ secondValid = false then repairJournal v firstEmpty secondEmpty
  else if firstValid = true ∧ secondValid = true ∧ first ≠ second then Exec.fail .invalid
  else replayJournal v (if firstValid = true then first else second) ciphertext page

/-- `rin_crypt_integrity_recover`. -/
def recover (v : Volume) : Program Unit := do
  Exec.require (v.keyEpoch ≠ 0) .invalid
  let state ← stateRead v
  Exec.require (state = .ready) .auth
  Exec.require (v.layout.journalFirstLba ≤ uint64Max - 3) .io
  let first ← readBlock .io v.layout.journalFirstLba
  let second ← readBlock .io (v.layout.journalFirstLba + 1)
  Exec.require (¬ (allZero first.toList = true ∧ allZero second.toList = true)) .invalid
  let ciphertext ← readBlock .io (v.layout.journalFirstLba + 2)
  let page ← readBlock .io (v.layout.journalFirstLba + 3)
  recoverJournal v first second ciphertext page

/-- How `rin_crypt_integrity_verify_cipher` succeeds. -/
inductive Verdict where
  | ok
  | zeroSector
  deriving DecidableEq

/-- The tests of `rin_crypt_integrity_verify_cipher` on a tag page. -/
def verifyTag (v : Volume) (index : Nat) (ciphertext page : Block) : Except Failure Verdict :=
  if allZero ciphertext.toList = true ∧ v.zeroSectorTag index = pageTag page (slotOf index) then .ok .zeroSector
  else if v.tag index ciphertext = pageTag page (slotOf index) then .ok .ok
  else .error .auth

/-- `rin_crypt_integrity_verify_cipher`. -/
def verifyCipher (v : Volume) (index : Nat) (ciphertext : Block) : Program Verdict := do
  Exec.require (layoutValid v.layout = true ∧ index < v.layout.payloadBlockCount ∧ v.keyEpoch ≠ 0) .invalid
  Exec.require (index / tagsPerBlock < v.layout.tagBlockCount ∧ v.layout.payloadFirstLba ≤ uint64Max - index ∧
    v.layout.tagFirstLba ≤ uint64Max - index / tagsPerBlock) .invalid
  let page ← readBlock .io (v.layout.tagFirstLba + index / tagsPerBlock)
  match verifyTag v index ciphertext page with
  | .ok verdict => pure verdict
  | .error e => Exec.fail e

/-- Sector, tag page and descriptor go to the journal. -/
def writeJournal (v : Volume) (index : Nat) (ciphertext page : Block) : Program Unit := do
  let descriptor := v.journal index ciphertext page
  writeBlock .io (v.layout.journalFirstLba + 2) ciphertext
  writeBlock .io (v.layout.journalFirstLba + 3) page
  flush .io
  writeBlock .io v.layout.journalFirstLba descriptor
  writeBlock .io (v.layout.journalFirstLba + 1) descriptor
  flush .io

/-- `rin_crypt_integrity_write_cipher`. -/
def writeCipher (v : Volume) (index : Nat) (ciphertext : Block) : Program Unit := do
  Exec.require (layoutValid v.layout = true ∧ index < v.layout.payloadBlockCount ∧ v.keyEpoch ≠ 0) .invalid
  Exec.require (index / tagsPerBlock < v.layout.tagBlockCount ∧ v.layout.payloadFirstLba ≤ uint64Max - index ∧
    v.layout.tagFirstLba ≤ uint64Max - index / tagsPerBlock ∧
    v.layout.journalFirstLba ≤ uint64Max - 3) .invalid
  recover v
  clearJournal v
  let page ← readBlock .io (v.layout.tagFirstLba + index / tagsPerBlock)
  let page := setTag page (slotOf index) (v.tag index ciphertext)
  writeJournal v index ciphertext page
  applyJournal v index ciphertext page

end RinRuntime.Crypt
