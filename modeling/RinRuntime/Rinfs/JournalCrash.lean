/-
Rinfs.JournalCrash — the rename journal under crashes.

A volume with a dual-slot journal takes one call after another: a record is begun, the journal is cleared,
or the call is cut short, its current slot write torn at any byte, and the volume is mounted again with the
sequence number its superblock happens to hold. A mount that finds a live record clears it before it begins
another.

`journalLoad_follows`: as long as no store is cut short over a block torn by an earlier crash, or while a
slot cannot be read, a load returns the content of the journal at every moment. `journalLoad_corrupt` breaks the
proviso: recovery leaves a torn slot behind when nothing is live, and the next store, torn in the other
slot, makes both unreadable.
-/
import RinRuntime.Rinfs.Journal

namespace RinRuntime.Rinfs
open Lib LittleEndian DualSlot List

/-! ## §1. Calls and crashes. -/

/-- A write torn after `cut` bytes. -/
def torn (new old : Block) (cut : Nat) : Block := new.take cut ++ old.drop cut

/-- A volume as the journal sees it: the slots, `s_journal_seq` of the running mount, and whether this
mount still has to replay a live record. -/
structure Volume where
  slots : List Block
  sequence : BitVec 32
  recovering : Bool

/-- A freshly formatted dual-slot journal, at any sequence number. -/
def Volume.formatted (blockSize : Nat) (sequence : BitVec 32) : Volume :=
  ⟨[zeroBlock blockSize, zeroBlock blockSize], sequence, false⟩

/-- A call on the journal. -/
inductive Call where
  | begin (intent : Intent)
  | clear

/-- The record a begin stores. -/
def Volume.next (v : Volume) (intent : Intent) : RenameJournal :=
  intent.record (v.sequence + 1#32)

/-- The slot writes of a call. -/
def Volume.writes (blockSize : Nat) (v : Volume) : Call → List (Nat × Block)
  | .begin intent => journalStoreWrites blockSize v.slots.length (v.next intent)
  | .clear => journalClearWrites blockSize v.slots

/-- A slot write that completes. -/
def writeSlot (slots : List Block) (write : Nat × Block) : List Block := slots.set write.1 write.2

/-- A slot write torn after `cut` bytes. -/
def tearSlot (cut : Nat) (slots : List Block) (write : Nat × Block) : List Block :=
  slots.set write.1 (torn write.2 (slots.getD write.1 []) cut)

/-- The volume after a call. -/
def Volume.finish (blockSize : Nat) (v : Volume) (call : Call) : Volume where
  slots := (v.writes blockSize call).foldl writeSlot v.slots
  sequence := match call with
    | .begin _ => v.sequence + 1#32
    | .clear => v.sequence
  recovering := match call with
    | .begin _ => v.recovering
    | .clear => false

/-- The slots when a call stops in its write `done`, after `cut` bytes of it. -/
def Volume.cutSlots (blockSize : Nat) (v : Volume) (call : Call) (done cut : Nat) : List Block :=
  let before := ((v.writes blockSize call).take done).foldl writeSlot v.slots
  ((v.writes blockSize call).drop done).head?.elim before (tearSlot cut before)

/-- The volume after a crash and the next mount, whose superblock holds `sequence`. -/
def Volume.crash (blockSize : Nat) (v : Volume) (call : Call) (done cut : Nat)
    (sequence : BitVec 32) : Volume where
  slots := v.cutSlots blockSize call done cut
  sequence := sequence
  recovering := ((journalLoad (v.cutSlots blockSize call done cut)).join).isSome

/-- What happens to a volume: a call, or a call cut short and a new mount. -/
inductive Event where
  | call (call : Call)
  | crash (call : Call) (done cut : Nat) (sequence : BitVec 32)

/-- A block that is zeroed or holds a completely stored record. -/
def Stored (blockSize : Nat) (block : Block) : Prop :=
  block = zeroBlock blockSize ∨
    ∃ intent sequence, block = slotImage blockSize (Intent.record intent sequence).sealed

/-- A mount with a live record to replay clears it before it begins another. -/
def Volume.Admits (v : Volume) : Call → Prop
  | .begin _ => v.recovering = false
  | .clear => True

/-- The checksum tells a record torn over `old` from a record. -/
def Detects (new old : Block) (cut : Nat) : Prop :=
  journalRecordState (RenameJournal.decode (torn new old cut)) = .active →
    torn new old cut = old ∨ torn new old cut = new

/-- The block a begin overwrites. -/
def Volume.target (v : Volume) (intent : Intent) : Block :=
  v.slots.getD ((v.next intent).sequence.toNat % v.slots.length) []

/-- The checksum detects a torn store of this call, where the slot was not torn before. -/
def ChecksumDetects (blockSize : Nat) (v : Volume) (call : Call) (cut : Nat) : Prop :=
  ∀ intent, call = .begin intent → Stored blockSize (v.target intent) →
    Detects (slotImage blockSize (v.next intent).sealed) (v.target intent) cut

/-- One event. -/
inductive Step (blockSize : Nat) : Volume → Event → Volume → Prop
  | call (v : Volume) (call : Call) (hadmits : v.Admits call) :
      Step blockSize v (.call call) (v.finish blockSize call)
  | crash (v : Volume) (call : Call) (done cut : Nat) (sequence : BitVec 32)
      (hadmits : v.Admits call) (hdone : done < (v.writes blockSize call).length)
      (hcut : cut ≤ blockSize) (hdetects : ChecksumDetects blockSize v call cut) :
      Step blockSize v (.crash call done cut sequence) (v.crash blockSize call done cut sequence)

/-- Runs whose events all meet a condition. -/
inductive Run (blockSize : Nat) (Meets : Volume → Event → Prop) : Volume → Volume → Prop
  | refl (v : Volume) : Run blockSize Meets v v
  | step {start v v' : Volume} {event : Event} (hrun : Run blockSize Meets start v)
      (hmeets : Meets v event) (hstep : Step blockSize v event v') : Run blockSize Meets start v'

/-- No store is cut short over a block torn by an earlier crash, or while a slot reads neither empty nor
as a record. -/
def StoresIntact (blockSize : Nat) (v : Volume) (event : Event) : Prop :=
  ∀ intent done cut sequence, event = .crash (.begin intent) done cut sequence →
    Stored blockSize (v.target intent) ∧ ∀ block ∈ v.slots, slotCell block ≠ .junk

/-- How an event changes the content of the journal. -/
def Effect (v : Volume) : Event → Option RenameJournal → Option RenameJournal → Prop
  | .call (.begin intent), _, content' => content' = some (v.next intent).sealed
  | .call .clear, _, content' => content' = none
  | .crash (.begin intent) .., content, content' =>
      content' = content ∨ content' = some (v.next intent).sealed
  | .crash .clear .., content, content' => content' = content ∨ content' = none

/-! ## §2. Torn blocks. -/
section
variable {blockSize : Nat} {v v' : Volume} {content : Option RenameJournal}

theorem journalRecordState_eq_empty {record : RenameJournal} :
    journalRecordState record = .empty ↔ record.magic = 0 ∧ record.state = 0 := by
  unfold journalRecordState
  constructor
  · intro h
    split_ifs at h with hnil
    exact hnil
  · intro h
    rw [if_pos h]

theorem magic_of_active {record : RenameJournal} (h : journalRecordState record = .active) :
    record.magic = renameJournalMagic := by
  unfold journalRecordState at h
  split_ifs at h with h1 h2 h3
  by_contra hmagic
  exact h2 (.inl hmagic)

/-- A block shows no record when its first four and its seventh and eighth bytes are zero. -/
theorem slotCell_eq_empty {block : Block} : slotCell block = .empty ↔ (∀ byte ∈ block.take 4, byte = 0#8) ∧
      ∀ byte ∈ ((block.drop 4).drop 2).take 2, byte = 0#8 := by
  have hmagic : (RenameJournal.decode block).magic = decodeLE 32 (block.take 4) := rfl
  have hst : (RenameJournal.decode block).state = decodeLE 16 (((block.drop 4).drop 2).take 2) := rfl
  rw [← decodeLE_eq_zero (w := 32) (by rw [length_take]; omega),
    ← decodeLE_eq_zero (w := 16) (by rw [length_take]; omega), ← hmagic, ← hst]
  have hcell : slotCell block = .empty ↔ journalRecordState (RenameJournal.decode block) = .empty := by
    unfold slotCell
    cases journalRecordState (RenameJournal.decode block) <;> simp
  rw [hcell, journalRecordState_eq_empty]
  exact Iff.rfl

theorem slotCell_zeroBlock (blockSize : Nat) : slotCell (zeroBlock blockSize) = .empty := by
  rw [slotCell_eq_empty]
  constructor
  · intro byte hbyte
    exact eq_of_mem_replicate (mem_of_mem_take hbyte)
  intro byte hbyte
  exact eq_of_mem_replicate (mem_of_mem_drop (mem_of_mem_drop (mem_of_mem_take hbyte)))

variable {sequence : BitVec 32} {slots : List Block} {cut : Nat}

theorem getElem_torn_zero (old : Block) (hcut : cut ≤ blockSize) (i : Nat) :
    (torn (zeroBlock blockSize) old cut)[i]? = if i < cut then some 0#8 else old[i]? := by
  unfold torn zeroBlock
  rw [take_replicate, Nat.min_eq_left hcut]
  split_ifs with hi
  · rw [List.getElem?_append_left (by rw [length_replicate]; exact hi), List.getElem?_replicate, if_pos hi]
    rfl
  rw [List.getElem?_append_right (by rw [length_replicate]; omega), length_replicate,
    List.getElem?_drop]
  congr 1
  omega

/-- Zeroing an empty block, or part of it, leaves it empty. -/
theorem slotCell_torn_zero_empty {old : Block} (hcut : cut ≤ blockSize)
    (hold : slotCell old = .empty) : slotCell (torn (zeroBlock blockSize) old cut) = .empty := by
  rw [slotCell_eq_empty] at hold ⊢
  obtain ⟨hmagic, hst⟩ := hold
  -- every byte of the torn block is zero or the old one
  have hbyte : ∀ (i : Nat) (byte : BitVec 8), (torn (zeroBlock blockSize) old cut)[i]? = some byte →
      byte = 0#8 ∨ old[i]? = some byte := by
    intro i byte h
    rw [getElem_torn_zero old hcut] at h
    split_ifs at h with hi
    · left
      simpa using h.symm
    · exact .inr h
  constructor
  · intro byte hmem
    obtain ⟨i, hi⟩ := mem_iff_getElem?.mp hmem
    rw [List.getElem?_take] at hi
    split_ifs at hi with hlt
    rcases hbyte i byte hi with h | h
    · exact h
    · exact hmagic byte (mem_iff_getElem?.mpr ⟨i, by rw [List.getElem?_take, if_pos hlt, h]⟩)
  intro byte hmem
  obtain ⟨i, hi⟩ := mem_iff_getElem?.mp hmem
  rw [List.getElem?_take] at hi
  split_ifs at hi with hlt
  rw [List.getElem?_drop, List.getElem?_drop] at hi
  rcases hbyte _ byte hi with h | h
  · exact h
  · exact hst byte (mem_iff_getElem?.mpr
      ⟨i, by rw [List.getElem?_take, if_pos hlt, List.getElem?_drop, List.getElem?_drop, h]⟩)

/-- A block torn while it is zeroed is as it was, or shows no record. -/
theorem slotCell_torn_zero (old : Block) (hcut : cut ≤ blockSize) :
    Interrupted (slotCell old) .empty (slotCell (torn (zeroBlock blockSize) old cut)) := by
  rcases Nat.eq_zero_or_pos cut with rfl | hpos
  · exact .inl rfl
  right; right
  intro record hlive
  have hact : journalRecordState
      (RenameJournal.decode (torn (zeroBlock blockSize) old cut)) = .active := by
    unfold slotCell at hlive
    cases hs : journalRecordState (RenameJournal.decode (torn (zeroBlock blockSize) old cut)) <;>
      simp_all
  -- the first byte is zero, the magic's is not
  have hmagic := magic_of_active hact
  obtain ⟨rest, hrest⟩ : ∃ rest, torn (zeroBlock blockSize) old cut = 0#8 :: rest := by
    have hfst := getElem_torn_zero old hcut 0
    rw [if_pos hpos] at hfst
    cases htorn : torn (zeroBlock blockSize) old cut with
    | nil => rw [htorn] at hfst; exact absurd hfst (by simp)
    | cons byte rest =>
      rw [htorn] at hfst
      exact ⟨rest, by rw [show byte = 0#8 by simpa using hfst]⟩
  have hvalue : (RenameJournal.decode (torn (zeroBlock blockSize) old cut)).magic
      = BitVec.ofNat 32 (256 * ofLE (rest.take 3)) := by
    rw [hrest]
    show decodeLE 32 (0#8 :: rest.take 3) = _
    rw [decodeLE, ofLE]
    simp
  rw [hvalue] at hmagic
  have hnat := congrArg BitVec.toNat hmagic
  rw [BitVec.toNat_ofNat, show renameJournalMagic.toNat = 1246646866 by decide] at hnat
  omega

/-- A store torn over a block that was not torn is as it was, complete, or shows no record. -/
theorem slotCell_torn_store {intent : Intent} {old : Block}
    (hdetects : Detects (slotImage blockSize (intent.record sequence).sealed) old cut) :
    Interrupted (slotCell old) (.live (intent.record sequence).sealed)
      (slotCell (torn (slotImage blockSize (intent.record sequence).sealed) old cut)) := by
  by_cases hact : journalRecordState (RenameJournal.decode
      (torn (slotImage blockSize (intent.record sequence).sealed) old cut)) = .active
  · rcases hdetects hact with h | h
    · exact .inl (by rw [h])
    · exact .inr (.inl (by rw [h, slotCell_image]))
  right; right
  intro record hlive
  unfold slotCell at hlive
  split at hlive <;> simp_all

/-! ## §3. One event. -/

/-- The slots of a volume as cells. -/
def Volume.cells (v : Volume) : List (Cell RenameJournal) := v.slots.map slotCell

/-- The journal holds `content`, and a mount that may begin a record counts on from it. -/
structure Journaled (v : Volume) (content : Option RenameJournal) : Prop where
  holds : Holds RenameJournal.sequence v.cells content
  counted : v.recovering = false → ∀ record, content = some record → record.sequence = v.sequence

theorem Journaled.load (h : Journaled v content) : journalLoad v.slots = some content := by
  rw [journalLoad_eq]
  exact h.holds.load

theorem Journaled.length (h : Journaled v content) : v.slots.length = 2 := by
  have hlen := h.holds.length
  rwa [Volume.cells, length_map] at hlen

/-- The next record's number follows the live one's. -/
theorem Journaled.successor (h : Journaled v content) (hrdy : v.recovering = false)
    (intent : Intent) : ∀ last, content = some last →
      (v.next intent).sealed.sequence = last.sequence + 1#32 := by
  intro last hlast
  rw [h.counted hrdy last hlast]
  rfl

theorem cells_set (slots : List Block) (slot : Nat) (block : Block) :
    (slots.set slot block).map slotCell = (slots.map slotCell).set slot (slotCell block) :=
  map_set

/-- A slot of the journal as a cell. -/
theorem getD_cells {slot : Nat} (hlt : slot < slots.length) :
    (slots.map slotCell).getD slot .junk = slotCell (slots.getD slot []) := by
  rw [getD_eq_getElem _ _ (by rw [length_map]; exact hlt), getD_eq_getElem _ _ hlt, getElem_map]

/-- The writes of a clear on a journal that holds a record, and on one that holds none. -/
def clearOrder (blockSize : Nat) : Option RenameJournal → List (Nat × Block)
  | some record => [(1 - record.sequence.toNat % 2, zeroBlock blockSize),
      (record.sequence.toNat % 2, zeroBlock blockSize)]
  | none => [(0, zeroBlock blockSize), (1, zeroBlock blockSize)]

theorem journalClearWrites_eq (h : Journaled v content) :
    journalClearWrites blockSize v.slots = clearOrder blockSize content := by
  unfold journalClearWrites
  rw [h.load, h.length]
  cases content with
  | none => rfl
  | some record =>
    rcases Nat.mod_two_eq_zero_or_one record.sequence.toNat with hparity | hparity <;>
      simp [hparity, range_succ, clearOrder]

theorem Journaled.finish (h : Journaled v content) {call : Call} (hadmits : v.Admits call) :
    ∃ content', Journaled (v.finish blockSize call) content' ∧ Effect v (.call call) content content' := by
  cases call with
  | begin intent =>
    refine ⟨_, ⟨?_, ?_⟩, rfl⟩
    · show Holds _ ((v.slots.set ((v.next intent).sequence.toNat % v.slots.length)
        (slotImage blockSize (v.next intent).sealed)).map slotCell) _
      have himage := slotCell_image blockSize intent (v.sequence + 1#32)
      rw [cells_set, Volume.next, himage, h.length]
      exact h.holds.store _ (h.successor hadmits intent)
    intro _ record hrec
    obtain rfl : (v.next intent).sealed = record := by simpa using hrec
    rfl
  | clear =>
    refine ⟨none, ⟨?_, fun _ record hrec => absurd hrec (by simp)⟩, rfl⟩
    show Holds _ (((journalClearWrites blockSize v.slots).foldl writeSlot v.slots).map slotCell) _
    rw [journalClearWrites_eq h]
    cases content with
    | none =>
      show Holds _ (((v.slots.set 0 _).set 1 _).map slotCell) _
      rw [cells_set, cells_set, slotCell_zeroBlock]
      exact h.holds.clear (by decide : 1 < 2)
    | some record =>
      show Holds _ (((v.slots.set _ _).set _ _).map slotCell) _
      rw [cells_set, cells_set, slotCell_zeroBlock]
      have hslot : record.sequence.toNat % 2 < 2 := Nat.mod_lt _ (by decide)
      exact h.holds.clear hslot

/-- What a mount finds after a crash. -/
theorem Journaled.of_holds {call : Call} {done cut : Nat}
    (h : Holds RenameJournal.sequence ((v.cutSlots blockSize call done cut).map slotCell) content) :
    Journaled (v.crash blockSize call done cut sequence) content := by
  refine ⟨h, ?_⟩
  intro hrdy record hrec
  have hload : journalLoad (v.cutSlots blockSize call done cut) = some content := by
    rw [journalLoad_eq]
    exact h.load
  have hrecovering : ((journalLoad (v.cutSlots blockSize call done cut)).join).isSome = false := hrdy
  rw [hload, hrec] at hrecovering
  exact absurd hrecovering (by simp)

theorem Journaled.crashBegin (h : Journaled v content) {intent : Intent} {done cut : Nat}
    (hadmits : v.Admits (.begin intent)) (hdone : done < (v.writes blockSize (.begin intent)).length)
    (hdetects : ChecksumDetects blockSize v (.begin intent) cut)
    (hstored : Stored blockSize (v.target intent)) (hread : ∀ block ∈ v.slots, slotCell block ≠ .junk) :
    ∃ content', Journaled (v.crash blockSize (.begin intent) done cut sequence) content' ∧
      Effect v (.crash (.begin intent) done cut sequence) content content' := by
  obtain rfl : done = 0 := by
    have hone : (v.writes blockSize (.begin intent)).length = 1 := rfl
    omega
  have hslot : (v.next intent).sequence.toNat % 2 < 2 := Nat.mod_lt _ (by decide)
  have hcell := slotCell_torn_store (hdetects intent rfl hstored)
  unfold Volume.target at hcell
  rw [h.length, ← getD_cells (by rw [h.length]; exact hslot)] at hcell
  have hjunk : Cell.junk ∉ v.cells := by
    intro hmem
    obtain ⟨block, hblock, hj⟩ := mem_map.mp hmem
    exact hread block hblock hj
  have hcut : (v.cutSlots blockSize (.begin intent) 0 cut).map slotCell
      = v.cells.set ((v.next intent).sequence.toNat % 2) (slotCell (torn
          (slotImage blockSize (v.next intent).sealed)
          (v.slots.getD ((v.next intent).sequence.toNat % 2) []) cut)) := by
    show (v.slots.set _ _).map slotCell = _
    rw [cells_set, h.length]
    rfl
  rcases h.holds.interruptedStore _ (h.successor hadmits intent) hjunk hcell with hheld | hheld
  · exact ⟨content, .of_holds (by rw [hcut]; exact hheld), .inl rfl⟩
  · exact ⟨_, .of_holds (by rw [hcut]; exact hheld), .inr rfl⟩

/-- Zeroing a slot of a journal without a live record, or part of it. -/
theorem holds_tearZero
    (h : Holds RenameJournal.sequence (slots.map slotCell) none) {slot cut : Nat} (hslot : slot < 2)
    (hcut : cut ≤ blockSize) : Holds RenameJournal.sequence
      ((tearSlot cut slots (slot, zeroBlock blockSize)).map slotCell) none := by
  have hlt : slot < slots.length := by
    have hlen := h.length
    rw [length_map] at hlen
    omega
  have hold : (slots.map slotCell)[slot]? = some (slotCell (slots.getD slot [])) := by
    rw [List.getElem?_map, getD_eq_getElem _ _ hlt, List.getElem?_eq_getElem hlt]
    rfl
  show Holds _ ((slots.set slot _).map slotCell) _
  rw [cells_set]
  apply h.interruptedErase hslot
  · intro record hlive
    rcases slotCell_torn_zero (slots.getD slot []) hcut with heq | heq | hnone
    · -- unchanged, and the slot showed no record before
      rw [hlive] at heq
      exact (h.empty rfl).1 record (mem_of_getElem? (by rw [hold, heq]))
    · rw [hlive] at heq
      exact absurd heq (by simp)
    · exact hnone record hlive
  intro hnil
  rw [hold] at hnil
  exact slotCell_torn_zero_empty hcut (by simpa using hnil)

theorem holds_writeZero
    (h : Holds RenameJournal.sequence (slots.map slotCell) none) {slot : Nat} (hslot : slot < 2) :
    Holds RenameJournal.sequence ((writeSlot slots (slot, zeroBlock blockSize)).map slotCell) none := by
  show Holds _ ((slots.set slot _).map slotCell) _
  rw [cells_set, slotCell_zeroBlock]
  exact h.interruptedErase hslot (fun record => by simp) (fun _ => rfl)

theorem Journaled.crashClear (h : Journaled v content) {done cut : Nat}
    (hdone : done < (v.writes blockSize .clear).length) (hcut : cut ≤ blockSize) :
    ∃ content', Journaled (v.crash blockSize .clear done cut sequence) content' ∧
      Effect v (.crash .clear done cut sequence) content content' := by
  have hwrites : v.writes blockSize .clear = _ := journalClearWrites_eq h
  cases content with
  | none =>
    refine ⟨none, .of_holds ?_, .inl rfl⟩
    unfold Volume.cutSlots
    rw [hwrites] at hdone ⊢
    have hlt : done < 2 := hdone
    obtain rfl | rfl : done = 0 ∨ done = 1 := by omega
    · exact holds_tearZero h.holds (by decide) hcut
    · exact holds_tearZero (holds_writeZero h.holds (by decide)) (by decide) hcut
  | some record =>
    have hlen := h.length
    have hp : record.sequence.toNat % 2 < 2 := Nat.mod_lt _ (by decide)
    have hq : 1 - record.sequence.toNat % 2 < 2 := by omega
    have hlt : done < 2 := by
      rw [hwrites] at hdone
      exact hdone
    obtain rfl | rfl : done = 0 ∨ done = 1 := by omega
    · -- the stale slot is torn
      refine ⟨_, .of_holds ?_, .inl rfl⟩
      unfold Volume.cutSlots
      rw [hwrites]
      show Holds _ ((v.slots.set _ _).map slotCell) _
      rw [cells_set]
      apply h.holds.interruptedStale
      rw [Volume.cells, getD_cells (by rw [hlen]; exact hq)]
      exact slotCell_torn_zero _ hcut
    -- the stale slot is zeroed, the live one torn
    have hstale : Holds RenameJournal.sequence
        (v.cells.set (1 - record.sequence.toNat % 2) .empty) (some record) :=
      h.holds.interruptedStale (.inr (.inl rfl))
    have hnil : (v.cells.set (1 - record.sequence.toNat % 2) .empty)[1 -
        record.sequence.toNat % 2]? = some .empty :=
      List.getElem?_set_self (by rw [h.holds.length]; exact hq)
    have hlive : slotCell ((v.slots.set (1 - record.sequence.toNat % 2)
        (zeroBlock blockSize)).getD (record.sequence.toNat % 2) []) = .live record := by
      rw [← getD_cells (by rw [length_set, hlen]; exact hp), cells_set, slotCell_zeroBlock,
        getD_eq_getElem?_getD]
      have hget := (hstale.live record rfl).1
      rw [Volume.cells] at hget
      rw [hget]
      rfl
    have hcell := slotCell_torn_zero ((v.slots.set (1 - record.sequence.toNat % 2)
        (zeroBlock blockSize)).getD (record.sequence.toNat % 2) []) hcut
    rw [hlive] at hcell
    have hcells : (v.cutSlots blockSize .clear 1 cut).map slotCell
        = (v.cells.set (1 - record.sequence.toNat % 2) .empty).set (record.sequence.toNat % 2)
          (slotCell (torn (zeroBlock blockSize) ((v.slots.set (1 - record.sequence.toNat % 2)
            (zeroBlock blockSize)).getD (record.sequence.toNat % 2) []) cut)) := by
      unfold Volume.cutSlots
      rw [hwrites]
      show ((v.slots.set _ _).set _ _).map slotCell = _
      rw [cells_set, cells_set, slotCell_zeroBlock]
      rfl
    rcases hstale.interruptedLast hnil hcell with hheld | hheld
    · exact ⟨_, .of_holds (by rw [hcells]; exact hheld), .inl rfl⟩
    · exact ⟨_, .of_holds (by rw [hcells]; exact hheld), .inr rfl⟩

/-- **One event**: the content of the journal changes as the event says. -/
theorem Journaled.step (h : Journaled v content) {event : Event} (hstep : Step blockSize v event v')
    (hmeets : StoresIntact blockSize v event) :
    ∃ content', Journaled v' content' ∧ Effect v event content content' := by
  cases hstep with
  | call call hadmits => exact h.finish hadmits
  | crash call done cut sequence hadmits hdone hcut hdetects =>
    cases call with
    | begin intent =>
      obtain ⟨hstored, hread⟩ := hmeets intent done cut sequence rfl
      exact h.crashBegin hadmits hdone hdetects hstored hread
    | clear => exact h.crashClear hdone hcut

theorem journaled_formatted (blockSize : Nat) (sequence : BitVec 32) :
    Journaled (.formatted blockSize sequence) none where
  holds := by
    show Holds _ [slotCell _, slotCell _] _
    rw [slotCell_zeroBlock]
    exact holds_cleared
  counted := fun _ record h => absurd h (by simp)

/-! ## §4. Runs. -/

theorem Run.journaled (hrun : Run blockSize (StoresIntact blockSize) (.formatted blockSize sequence) v) :
    ∃ content, Journaled v content := by
  generalize hstart : Volume.formatted blockSize sequence = start at hrun
  induction hrun with
  | refl =>
    subst hstart
    exact ⟨none, journaled_formatted blockSize sequence⟩
  | step _ hmeets hstep ih =>
    obtain ⟨content, hcont⟩ := ih
    obtain ⟨content', hcont', _⟩ := hcont.step hstep hmeets
    exact ⟨content', hcont'⟩

end

/-- **The journal under crashes.** In every run from a formatted journal, at any sequence number, in
which no store is cut short over a torn block, or while a slot cannot be read: a load never
reports corruption, and it returns the content that the calls and crashes so far have left. -/
theorem journalLoad_follows (blockSize : Nat) (sequence : BitVec 32) (v v' : Volume) (event : Event)
    (hrun : Run blockSize (StoresIntact blockSize) (.formatted blockSize sequence) v)
    (hmeets : StoresIntact blockSize v event) (hstep : Step blockSize v event v') :
    journalLoad (Volume.formatted blockSize sequence).slots = some none ∧
      ∃ content content', journalLoad v.slots = some content ∧
        journalLoad v'.slots = some content' ∧ Effect v event content content' := by
  obtain ⟨content, hcont⟩ := hrun.journaled
  obtain ⟨content', hcont', heffect⟩ := hcont.step hstep hmeets
  exact ⟨(journaled_formatted blockSize sequence).load, content, content', hcont.load,
    hcont'.load, heffect⟩

/-! ## §5. A torn slot that recovery leaves behind. -/

/-- A rename of the entry `a` of directory 2 to `b`. -/
def shortRename : Intent :=
  renameIntent 2 ⟨[0x61], by decide, by decide, by decide⟩ 2 ⟨[0x62], by decide, by decide, by decide⟩
    11 1 false 0 false

/-- The block of this rename, stored at number 1. -/
def renameImage : Block := slotImage 1024 ((Volume.formatted 1024 0).next shortRename).sealed

/-- The volume with this rename stored. -/
def storedRename : Volume := (Volume.formatted 1024 0).finish 1024 (.begin shortRename)

/-- The volume after the clear of this rename is torn in the live slot. -/
def tornClear : Volume where
  slots := [zeroBlock 1024, torn (zeroBlock 1024) renameImage 4]
  sequence := 1
  recovering := false

theorem storedRename_writes :
    storedRename.writes 1024 .clear = [(0, zeroBlock 1024), (1, zeroBlock 1024)] := by
  have hfinish : ∃ content, Journaled storedRename content ∧
      Effect (.formatted 1024 0) (.call (.begin shortRename)) none content :=
    (journaled_formatted 1024 0).finish rfl
  obtain ⟨content, hcont, heffect⟩ := hfinish
  obtain rfl : content = some ((Volume.formatted 1024 0).next shortRename).sealed := heffect
  show journalClearWrites 1024 storedRename.slots = _
  rw [show journalClearWrites 1024 storedRename.slots = _ from journalClearWrites_eq hcont]
  rfl

theorem tornClear_eq : storedRename.crash 1024 .clear 1 4 1 = tornClear := by
  have hstored : storedRename.slots = [zeroBlock 1024, renameImage] := rfl
  have hslots : storedRename.cutSlots 1024 .clear 1 4 = tornClear.slots := by
    unfold Volume.cutSlots
    rw [storedRename_writes, hstored]
    rfl
  have hload : journalLoad tornClear.slots = some none := by decide +kernel
  unfold Volume.crash
  rw [hslots, hload]
  rfl

theorem step_tornClear : Step 1024 storedRename (.crash .clear 1 4 1) tornClear := by
  rw [← tornClear_eq]
  refine .crash _ _ _ _ _ trivial ?_ (by decide) (fun _ h => absurd h (by simp))
  rw [storedRename_writes]
  show 1 < 2
  decide

/-- The torn clear by itself is harmless. -/
theorem journalLoad_follows_tornClear : ∃ content content', journalLoad storedRename.slots = some content ∧
      journalLoad tornClear.slots = some content' ∧
      Effect storedRename (.crash .clear 1 4 1) content content' := by
  have hcall : StoresIntact 1024 (.formatted 1024 0) (.call (.begin shortRename)) :=
    fun _ _ _ _ h => absurd h (by simp)
  have hclear : StoresIntact 1024 storedRename (.crash .clear 1 4 1) :=
    fun _ _ _ _ h => absurd h (by simp)
  have hrun : Run 1024 (StoresIntact 1024) (.formatted 1024 0) storedRename :=
    .step (.refl _) hcall (.call _ _ rfl)
  exact (journalLoad_follows 1024 0 storedRename tornClear _ hrun hclear step_tornClear).2

/-- A clear torn in the live slot leaves nothing to recover, and the torn slot stays. The next store,
torn in the other slot, leaves no readable slot: the load reports corruption. -/
theorem journalLoad_corrupt : ∃ v₁ v₂ v₃, Step 1024 (.formatted 1024 0) (.call (.begin shortRename)) v₁ ∧
      Step 1024 v₁ (.crash .clear 1 4 1) v₂ ∧ journalLoad v₂.slots = some none ∧ v₂.recovering = false ∧
      Step 1024 v₂ (.crash (.begin shortRename) 0 2 1) v₃ ∧ journalLoad v₃.slots = none := by
  have hload : journalLoad tornClear.slots = some none := by decide +kernel
  have htorn : journalRecordState (RenameJournal.decode (torn
      (slotImage 1024 (tornClear.next shortRename).sealed) (zeroBlock 1024) 2)) = .invalid := by
    decide +kernel
  refine ⟨storedRename, tornClear, _, .call _ _ rfl, step_tornClear, hload, rfl,
    .crash _ _ _ _ _ rfl (by decide) (by decide) ?_, by decide +kernel⟩
  intro intent hintent _ hact
  obtain rfl : shortRename = intent := by simpa using hintent
  have hinv := htorn.symm.trans hact
  exact absurd hinv (by simp)

end RinRuntime.Rinfs
