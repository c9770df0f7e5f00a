/-
Crypt.Descriptor — which blocks are authentic journal descriptors.

The descriptor that is written for a sector is valid with the journal pages it is written for, and the
empty descriptor is a valid empty one. No block is both: byte 28 tells them apart.
-/
import RinRuntime.Crypt.Integrity

namespace RinRuntime.Crypt
open Lib LittleEndian

/-! ## §1. Fields. -/

/-- A field in the middle of bytes. -/
theorem field_at {bytes : List Byte} (before : List Byte) {field : List Byte} (after : List Byte)
    {offset length : Nat} (h : bytes = before ++ (field ++ after)) (hbef : before.length = offset)
    (hfield : field.length = length) : (bytes.drop offset).take length = field := by
  rw [h, ← hbef, ← hfield, List.drop_left, List.take_left]

theorem toList_sealed (head : List Byte) (code : Vector Byte 32) (h : head.length = 40) :
    (sealed head code h).toList = head ++ code.toList ++ List.replicate 440 0 := rfl

/-- A field of the first forty bytes of a descriptor. -/
theorem bytesAt_sealed {head : List Byte} (before : List Byte) {field : List Byte} (after : List Byte)
    {offset length : Nat} (code : Vector Byte 32) (h : head.length = 40)
    (hhead : head = before ++ (field ++ after)) (hbef : before.length = offset)
    (hfield : field.length = length) : bytesAt (sealed head code h) offset length = field := by
  unfold bytesAt
  rw [toList_sealed]
  refine field_at before (after ++ (code.toList ++ List.replicate 440 0)) ?_ hbef hfield
  rw [hhead]
  simp only [List.append_assoc]

theorem bytesAt_sealed_head (head : List Byte) (code : Vector Byte 32) (h : head.length = 40) :
    bytesAt (sealed head code h) 0 40 = head :=
  bytesAt_sealed [] [] code h (by rw [List.append_nil]; rfl) rfl h

/-- The code is read where it was written. -/
theorem bytesAt_sealed_code (head : List Byte) (code : Vector Byte 32) (h : head.length = 40) :
    bytesAt (sealed head code h) 40 32 = code.toList := by
  unfold bytesAt
  rw [toList_sealed]
  exact field_at head _ (List.append_assoc ..) h (Vector.length_toList ..)

theorem bytesAt_sealed_rest (head : List Byte) (code : Vector Byte 32) (h : head.length = 40) :
    bytesAt (sealed head code h) 72 440 = List.replicate 440 0 := by
  unfold bytesAt
  rw [toList_sealed]
  refine field_at (head ++ code.toList) [] (by rw [List.append_nil]) ?_ (List.length_replicate ..)
  rw [List.length_append, h, Vector.length_toList]

theorem allZero_replicate (n : Nat) : allZero (List.replicate n 0) = true := by
  unfold allZero
  rw [List.all_eq_true]
  intro b hb
  rw [List.eq_of_mem_replicate hb]
  rfl

variable {v : Volume} {d : Block}

/-- A descriptor with the magic is not an erased one. -/
theorem not_zero_of_magic (h : bytesAt d 0 4 = journalMagic) : allZero d.toList = false := by
  refine Bool.eq_false_iff.mpr fun hzero => ?_
  have hmem : (0x52 : Byte) ∈ d.toList := by
    have hhead : (0x52 : Byte) ∈ bytesAt d 0 4 := by
      rw [h]
      exact List.mem_cons_self ..
    exact List.mem_of_mem_take hhead
  have hbyte := List.all_eq_true.mp hzero _ hmem
  exact absurd hbyte (by decide)

/-! ## §2. The two kinds. -/

/-- Eight bytes hold a 64-bit number. -/
theorem ofLE_toLE_eight {x : Nat} (h : x < 2 ^ 64) : ofLE (toLE 8 x) = x := by
  rw [ofLE_toLE]
  exact Nat.mod_eq_of_lt h

/-- **The empty descriptor is a valid one.** -/
theorem emptyJournal_valid (hepoch : v.keyEpoch ≠ 0) : emptyJournalValid v v.emptyJournal = true := by
  have hlen := length_emptyHead v
  have hmagic : bytesAt v.emptyJournal 0 4 = journalMagic :=
    bytesAt_sealed [] _ _ hlen (by simp only [Volume.emptyHead, List.append_assoc, List.nil_append]; rfl)
      rfl rfl
  have hver : bytesAt v.emptyJournal 4 4 = toLE 4 1 :=
    bytesAt_sealed journalMagic _ _ hlen (by simp only [Volume.emptyHead, List.append_assoc]; rfl) rfl rfl
  have hfields : bytesAt v.emptyJournal 8 20 = List.replicate 20 0 :=
    bytesAt_sealed (journalMagic ++ toLE 4 1) _ _ hlen
      (by simp only [Volume.emptyHead, List.append_assoc]; rfl) rfl rfl
  have hmark : bytesAt v.emptyJournal 28 1 = [1] :=
    bytesAt_sealed (journalMagic ++ toLE 4 1 ++ List.replicate 20 0) _ _ hlen
      (by simp only [Volume.emptyHead, List.append_assoc]; rfl) rfl rfl
  have hpadding : bytesAt v.emptyJournal 29 3 = List.replicate 3 0 :=
    bytesAt_sealed (journalMagic ++ toLE 4 1 ++ List.replicate 20 0 ++ [1]) _ _ hlen
      (by simp only [Volume.emptyHead, List.append_assoc]; rfl) rfl rfl
  have hkey : bytesAt v.emptyJournal 32 8 = toLE 8 v.keyEpoch.toNat :=
    bytesAt_sealed (journalMagic ++ toLE 4 1 ++ List.replicate 20 0 ++ [1] ++ List.replicate 3 0) [] _ hlen
      (by simp only [Volume.emptyHead, List.append_assoc, List.append_nil]) rfl (length_toLE ..)
  have hhead : bytesAt v.emptyJournal 0 40 = v.emptyHead := bytesAt_sealed_head ..
  have hcode : bytesAt v.emptyJournal 40 32 = (v.emptyJournalMac v.emptyHead).toList := bytesAt_sealed_code ..
  have hrest : bytesAt v.emptyJournal 72 440 = List.replicate 440 0 := bytesAt_sealed_rest ..
  unfold emptyJournalValid numberAt
  rw [decide_eq_true_eq, hmagic, hver, hfields, hmark, hpadding, hkey, hhead, hcode, hrest]
  exact ⟨hepoch, rfl, rfl, rfl, ofLE_toLE_eight v.keyEpoch.toNat_lt, allZero_replicate 20,
    allZero_replicate 3, allZero_replicate 440, rfl⟩

/-- **The descriptor of a sector is valid** with its ciphertext and a tag page that has its tag. -/
theorem journal_valid {index : Nat} {ciphertext page : Block}
    (hlay : layoutValid v.layout = true) (hidx : index < v.layout.payloadBlockCount)
    (htag : v.tag index ciphertext = pageTag page (slotOf index)) :
    journalValid v (v.journal index ciphertext page) ciphertext page = true ∧
      descriptorIndex (v.journal index ciphertext page) = index := by
  have hlen := length_journalHead v index
  have hmagic : bytesAt (v.journal index ciphertext page) 0 4 = journalMagic :=
    bytesAt_sealed [] _ _ hlen (by simp only [Volume.journalHead, List.append_assoc, List.nil_append]; rfl)
      rfl rfl
  have hver : bytesAt (v.journal index ciphertext page) 4 4 = toLE 4 1 :=
    bytesAt_sealed journalMagic _ _ hlen (by simp only [Volume.journalHead, List.append_assoc]; rfl) rfl
      rfl
  have hnum : bytesAt (v.journal index ciphertext page) 8 8 = toLE 8 index :=
    bytesAt_sealed (journalMagic ++ toLE 4 1) _ _ hlen
      (by simp only [Volume.journalHead, List.append_assoc]; rfl) rfl (length_toLE ..)
  have htagIndex : bytesAt (v.journal index ciphertext page) 16 8 = toLE 8 (index / tagsPerBlock) :=
    bytesAt_sealed (journalMagic ++ toLE 4 1 ++ toLE 8 index) _ _ hlen
      (by simp only [Volume.journalHead, List.append_assoc]; rfl) (by simp [journalMagic, length_toLE])
      (length_toLE ..)
  have hslot : bytesAt (v.journal index ciphertext page) 24 4 = toLE 4 (index % tagsPerBlock) :=
    bytesAt_sealed (journalMagic ++ toLE 4 1 ++ toLE 8 index ++ toLE 8 (index / tagsPerBlock)) _ _ hlen
      (by simp only [Volume.journalHead, List.append_assoc]; rfl) (by simp [journalMagic, length_toLE])
      (length_toLE ..)
  have hpadding : bytesAt (v.journal index ciphertext page) 28 4 = List.replicate 4 0 :=
    bytesAt_sealed (journalMagic ++ toLE 4 1 ++ toLE 8 index ++ toLE 8 (index / tagsPerBlock) ++
        toLE 4 (index % tagsPerBlock)) _ _ hlen
      (by simp only [Volume.journalHead, List.append_assoc]; rfl) (by simp [journalMagic, length_toLE])
      (List.length_replicate ..)
  have hkey : bytesAt (v.journal index ciphertext page) 32 8 = toLE 8 v.keyEpoch.toNat :=
    bytesAt_sealed (journalMagic ++ toLE 4 1 ++ toLE 8 index ++ toLE 8 (index / tagsPerBlock) ++
        toLE 4 (index % tagsPerBlock) ++ List.replicate 4 0) [] _ hlen
      (by simp only [Volume.journalHead, List.append_assoc, List.append_nil])
      (by simp [journalMagic, length_toLE]) (length_toLE ..)
  have hhead : bytesAt (v.journal index ciphertext page) 0 40 = v.journalHead index := bytesAt_sealed_head ..
  have hcode : bytesAt (v.journal index ciphertext page) 40 32
      = (v.journalMac (v.journalHead index) ciphertext page).toList := bytesAt_sealed_code ..
  have hrest : bytesAt (v.journal index ciphertext page) 72 440 = List.replicate 440 0 :=
    bytesAt_sealed_rest ..
  -- the numbers fit into their fields
  obtain ⟨-, -, htags, -, -, -, htag0, -, hpay, hlast⟩ := of_decide_eq_true hlay
  have hfits : v.layout.payloadBlockCount < 2 ^ 64 := by
    have hmax : uint64Max = 2 ^ 64 - 1 := rfl
    have hjournal : journalBlocks = 4 := rfl
    omega
  have hread : descriptorIndex (v.journal index ciphertext page) = index := by
    unfold descriptorIndex numberAt
    rw [hnum]
    exact ofLE_toLE_eight (by omega)
  refine ⟨?_, hread⟩
  unfold journalValid
  rw [decide_eq_true_eq, hread]
  unfold numberAt
  rw [hmagic, hver, htagIndex, hslot, hpadding, hkey, hhead, hcode, hrest]
  have hquot : index / tagsPerBlock ≤ index := Nat.div_le_self ..
  have hremainder : index % tagsPerBlock < 32 := Nat.mod_lt _ (by decide)
  have hpage : index / tagsPerBlock < v.layout.tagBlockCount := by
    rw [htags, tagBlocks_eq]
    unfold tagsPerBlock
    omega
  rw [ofLE_toLE_eight (x := index / tagsPerBlock) (by omega)]
  refine ⟨hlay, rfl, rfl, ofLE_toLE_eight v.keyEpoch.toNat_lt, allZero_replicate 4, allZero_replicate 440,
    hidx, rfl, ?_, hpage, rfl, htag⟩
  rw [ofLE_toLE]
  exact Nat.mod_eq_of_lt (by omega)

/-- **No block is a descriptor of both kinds.** -/
theorem not_valid_of_empty (h : emptyJournalValid v d = true) (ciphertext page : Block) :
    journalValid v d ciphertext page = false := by
  refine Bool.eq_false_iff.mpr fun hval => ?_
  obtain ⟨-, -, -, hmark, -⟩ := of_decide_eq_true h
  obtain ⟨-, -, -, -, hzero, -⟩ := of_decide_eq_true hval
  have hmem : (1 : Byte) ∈ bytesAt d 28 4 := by
    have hone : (1 : Byte) ∈ bytesAt d 28 1 := by
      rw [hmark]
      exact List.mem_singleton_self _
    exact List.take_subset_take_left _ (by decide : (1 : Nat) ≤ 4) hone
  exact absurd (List.all_eq_true.mp hzero _ hmem) (by decide)

theorem not_zero_of_empty (h : emptyJournalValid v d = true) :
    allZero d.toList = false := not_zero_of_magic (of_decide_eq_true h).2.1

theorem not_zero_of_valid {d ciphertext page : Block}
    (h : journalValid v d ciphertext page = true) : allZero d.toList = false :=
  not_zero_of_magic (of_decide_eq_true h).2.1

/-! ## §3. Tag pages. -/

theorem get_eq_getElem {n : Nat} (xs : Vector Byte n) (i : Fin n) : xs.get i = xs[i.val] := rfl

/-- A tag is read back from its slot. -/
theorem pageTag_setTag (page : Block) (slot : Fin 32) (tag : Tag) : pageTag (setTag page slot tag) slot = tag := by
  apply Vector.ext
  intro i hi
  have hslot : (slot.val * 16 + i) / 16 = slot.val := by omega
  have hbyte : i % 16 = i := Nat.mod_eq_of_lt hi
  simp [pageTag, setTag, get_eq_getElem, hslot, hbyte]

/-- The other slots keep their tags. -/
theorem pageTag_setTag_other (page : Block) {slot other : Fin 32} (tag : Tag) (h : other ≠ slot) :
    pageTag (setTag page slot tag) other = pageTag page other := by
  apply Vector.ext
  intro i hi
  have hslot : (other.val * 16 + i) / 16 ≠ slot.val := fun heq => h (Fin.ext (by omega))
  simp [pageTag, setTag, get_eq_getElem, hslot]

end RinRuntime.Crypt
