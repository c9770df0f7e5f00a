/-
Crypt.Stages — the programs of an integrity volume, stage by stage.

A stage is what is durable and what is on its way. For every program this module lists its stages and the
medium it ends with; what holds after a crash is then a question about the listed stages (`Through`).
-/
import RinRuntime.Crypt.Descriptor

namespace RinRuntime.Crypt
open Lib Exec CrashDisk Bool

/-! ## §1. Places. -/

/-- Where the journal begins: two descriptors, then a sector and a tag page. -/
abbrev Volume.journalFirst (v : Volume) : Nat := v.layout.journalFirstLba

/-- Where a sector is. -/
def Volume.sectorLba (v : Volume) (index : Nat) : Nat := v.layout.payloadFirstLba + index

/-- Where the tag page of a sector is. -/
def Volume.pageLba (v : Volume) (index : Nat) : Nat := v.layout.tagFirstLba + index / tagsPerBlock

/-- The parts of a valid layout follow one another. -/
structure Volume.Ordered (v : Volume) : Prop where
  journal : v.layout.stateFirstLba + 2 = v.journalFirst
  tags : v.journalFirst + 4 = v.layout.tagFirstLba
  payload : v.layout.tagFirstLba + v.layout.tagBlockCount = v.layout.payloadFirstLba
  last : v.layout.payloadFirstLba + v.layout.payloadBlockCount ≤ uint64Max
  pages : v.layout.tagBlockCount = (v.layout.payloadBlockCount + 31) / 32

theorem layout_ordered {v : Volume} (h : layoutValid v.layout = true) : v.Ordered := by
  obtain ⟨-, -, hpages, -, hjournal, -, htags, -, hpay, hlast⟩ := of_decide_eq_true h
  have hfour : journalBlocks = 4 := rfl
  rw [tagBlocks_eq] at hpages
  exact ⟨hjournal, htags, hpay, by omega, hpages⟩

section
variable {v : Volume} {index : Nat}

/-- Sector and tag page lie behind the journal, and the page before the sector. -/
theorem places (h : layoutValid v.layout = true) (hidx : index < v.layout.payloadBlockCount) :
    v.journalFirst + 4 ≤ v.pageLba index ∧ v.pageLba index < v.layout.payloadFirstLba ∧
      v.layout.payloadFirstLba ≤ v.sectorLba index ∧ index / tagsPerBlock < v.layout.tagBlockCount := by
  obtain ⟨-, htags, hpay, -, hpages⟩ := layout_ordered h
  have hthirtytwo : tagsPerBlock = 32 := rfl
  unfold Volume.pageLba Volume.sectorLba
  rw [hthirtytwo]
  omega

/-- The tests for overflow pass. -/
theorem no_overflow (h : layoutValid v.layout = true) (hidx : index < v.layout.payloadBlockCount) :
    v.layout.payloadFirstLba ≤ uint64Max - index ∧ v.layout.tagFirstLba ≤ uint64Max - index / tagsPerBlock := by
  obtain ⟨-, htags, hpay, hlast, -⟩ := layout_ordered h
  have hquot : index / tagsPerBlock ≤ index := Nat.div_le_self ..
  omega

theorem journal_no_overflow (h : layoutValid v.layout = true) : v.journalFirst ≤ uint64Max - 3 := by
  obtain ⟨-, htags, hpay, hlast, -⟩ := layout_ordered h
  omega

end

/-! ## §2. Media. -/

/-- The state blocks are ready. -/
structure Ready (v : Volume) (m : Disk Block) : Prop where
  epoch : v.keyEpoch ≠ 0
  layout : layoutValid v.layout = true
  state : stateOf v (m v.layout.stateFirstLba) (m (v.layout.stateFirstLba + 1)) = .ready

/-- A copy of the descriptor is a valid empty one. -/
def EmptyAt (v : Volume) (m : Disk Block) (copy : Nat) : Prop :=
  emptyJournalValid v (m (v.journalFirst + copy)) = true

/-- A copy of the descriptor is valid with the journal pages. -/
def ValidAt (v : Volume) (m : Disk Block) (copy : Nat) : Prop :=
  journalValid v (m (v.journalFirst + copy)) (m (v.journalFirst + 2))
    (m (v.journalFirst + 3)) = true

instance (v : Volume) (m : Disk Block) (copy : Nat) : Decidable (EmptyAt v m copy) := by
  unfold EmptyAt; infer_instance

instance (v : Volume) (m : Disk Block) (copy : Nat) : Decidable (ValidAt v m copy) := by
  unfold ValidAt; infer_instance

/-- A copy of the descriptor is authentic. -/
def AuthenticAt (v : Volume) (m : Disk Block) (copy : Nat) : Prop := EmptyAt v m copy ∨ ValidAt v m copy

/-- A journal that recovery accepts: a descriptor is authentic, and two valid ones are the same. -/
structure Accepted (v : Volume) (m : Disk Block) : Prop where
  some : ∃ copy < 2, AuthenticAt v m copy
  same : ValidAt v m 0 → ValidAt v m 1 → m v.journalFirst = m (v.journalFirst + 1)

/-- One descriptor is made empty. -/
def emptied (v : Volume) (m : Disk Block) (copy : Nat) : Disk Block :=
  Function.update m (v.journalFirst + copy) v.emptyJournal

/-- Both descriptors are made empty. -/
def cleared (v : Volume) (m : Disk Block) : Disk Block := emptied v (emptied v m 0) 1

/-- A descriptor is made empty unless it is. -/
def repaired (v : Volume) (m : Disk Block) (copy : Nat) : Disk Block :=
  if EmptyAt v m copy then m else emptied v m copy

/-- Sector and tag page are in their places. -/
def replayed (v : Volume) (m : Disk Block) (index : Nat) (ciphertext page : Block) : Disk Block :=
  Function.update (Function.update m (v.sectorLba index) ciphertext) (v.pageLba index) page

/-- The valid descriptor that recovery goes by. -/
def chosenCopy (v : Volume) (m : Disk Block) : Option Nat :=
  if ValidAt v m 0 then some 0 else if ValidAt v m 1 then some 1 else none

/-- The sector of a copy of the descriptor. -/
def indexAt (v : Volume) (m : Disk Block) (copy : Nat) : Nat :=
  descriptorIndex (m (v.journalFirst + copy))

/-- What recovery makes of a medium. -/
def recovered (v : Volume) (m : Disk Block) : Disk Block :=
  match chosenCopy v m with
  | none => repaired v (repaired v m 0) 1
  | some copy => cleared v (replayed v m (indexAt v m copy) (m (v.journalFirst + 2))
      (m (v.journalFirst + 3)))

/-- Ciphertext and tag page are in the journal pages. -/
def filled (v : Volume) (m : Disk Block) (ciphertext page : Block) : Disk Block :=
  Function.update (Function.update m (v.journalFirst + 2) ciphertext)
    (v.journalFirst + 3) page

/-- Both copies of the descriptor are written. -/
def described (v : Volume) (m : Disk Block) (descriptor : Block) : Disk Block :=
  Function.update (Function.update m v.journalFirst descriptor) (v.journalFirst + 1)
    descriptor

/-- The tag page of a sector, with the tag of a new ciphertext. -/
def newPage (v : Volume) (m : Disk Block) (index : Nat) (ciphertext : Block) : Block :=
  setTag (m (v.pageLba index)) (slotOf index) (v.tag index ciphertext)

/-- The medium with the journal of a write. -/
def journaled (v : Volume) (m : Disk Block) (index : Nat) (ciphertext page : Block) : Disk Block :=
  described v (filled v m ciphertext page) (v.journal index ciphertext page)

section
variable {v : Volume} {m : Disk Block} {copy k : Nat}

theorem emptied_other (hne : k ≠ copy) :
    emptied v m copy (v.journalFirst + k) = m (v.journalFirst + k) :=
  Function.update_of_ne (by omega) ..

theorem repaired_other (hne : k ≠ copy) :
    repaired v m copy (v.journalFirst + k) = m (v.journalFirst + k) := by
  unfold repaired
  split
  · rfl
  · exact emptied_other hne

end

/-! ## §3. Stages. -/

def clearStages (v : Volume) (m : Disk Block) : List (Stage Block) :=
  writeStages m v.journalFirst v.emptyJournal ++
    writeStages (emptied v m 0) (v.journalFirst + 1) v.emptyJournal

def applyStages (v : Volume) (m : Disk Block) (index : Nat) (ciphertext page : Block) : List (Stage Block) :=
  writeStages m (v.sectorLba index) ciphertext ++
    writeStages (Function.update m (v.sectorLba index) ciphertext) (v.pageLba index) page ++
    clearStages v (replayed v m index ciphertext page)

/-- The stages of repairing one copy. -/
def repairStages (v : Volume) (m : Disk Block) (copy : Nat) : List (Stage Block) :=
  if EmptyAt v m copy then [] else writeStages m (v.journalFirst + copy) v.emptyJournal

def recoverStages (v : Volume) (m : Disk Block) : List (Stage Block) :=
  (m, []) :: match chosenCopy v m with
    | none => repairStages v m 0 ++ repairStages v (repaired v m 0) 1
    | some copy => applyStages v m (indexAt v m copy) (m (v.journalFirst + 2))
        (m (v.journalFirst + 3))

def fillStages (v : Volume) (m : Disk Block) (index : Nat) (ciphertext page : Block) : List (Stage Block) :=
  [(m, []), (m, [(v.journalFirst + 2, ciphertext)]),
    (m, [(v.journalFirst + 2, ciphertext), (v.journalFirst + 3, page)]),
    (filled v m ciphertext page, []),
    (filled v m ciphertext page, [(v.journalFirst, v.journal index ciphertext page)]),
    (filled v m ciphertext page, [(v.journalFirst, v.journal index ciphertext page),
      (v.journalFirst + 1, v.journal index ciphertext page)])]

/-- The stages of a write after recovery. -/
def cipherStages (v : Volume) (m : Disk Block) (index : Nat) (ciphertext : Block) : List (Stage Block) :=
  clearStages v m ++
    fillStages v (cleared v m) index ciphertext (newPage v (cleared v m) index ciphertext) ++
    applyStages v (journaled v (cleared v m) index ciphertext (newPage v (cleared v m) index ciphertext)) index
      ciphertext (newPage v (cleared v m) index ciphertext)

/-- What a write makes of a recovered medium. -/
def rewritten (v : Volume) (m : Disk Block) (index : Nat) (ciphertext : Block) : Disk Block :=
  cleared v (replayed v
    (journaled v (cleared v m) index ciphertext (newPage v (cleared v m) index ciphertext)) index ciphertext
    (newPage v (cleared v m) index ciphertext))

/-! ## §4. The programs go through their stages. -/
section
variable {v : Volume} {d : Device Block} {steady : Prop} {m : Disk Block} {index : Nat}
  {ciphertext page : Block} {C : Disk Block → List (Nat × Block) → Prop} {Q : Unit → Device Block → Prop}

variable {copy : Nat}

section
variable (hepoch : v.keyEpoch ≠ 0) (hlay : layoutValid v.layout = true)
include hepoch hlay

/-- **Writing an empty descriptor.** -/
theorem wp_emptyJournalWrite (hcopy : copy < 2) (h : d.At steady m [])
    (hC : Through C (writeStages m (v.journalFirst + copy) v.emptyJournal))
    (hQ : ∀ d', d'.At steady (emptied v m copy) [] → Q () d') :
    wp ((emptyJournalWrite v copy).orFail fun _ => Failure.io) Q (Lost .io steady C) d := by
  have hplace : v.layout.journalFirstLba ≤ _ := journal_no_overflow hlay
  unfold emptyJournalWrite
  rw [wp_orFail, wp_bind, wp_require]
  refine ⟨fun _ => ?_, fun hfails => absurd ⟨hlay, hepoch, hcopy, by omega⟩ hfails⟩
  refine wp_mono (wp_writeThrough h hC hQ) (fun _ _ hq => hq) ?_
  rintro e d' ⟨-, hrest⟩
  exact ⟨rfl, hrest⟩

/-- **Clearing the journal.** -/
theorem wp_clearJournal (h : d.At steady m []) (hC : Through C (clearStages v m))
    (hQ : ∀ d', d'.At steady (cleared v m) [] → Q () d') : wp (clearJournal v) Q (Lost .io steady C) d := by
  obtain ⟨hfst, hsec⟩ := through_append.mp hC
  unfold clearJournal
  rw [wp_bind]
  refine wp_emptyJournalWrite hepoch hlay (by decide) h hfst fun d' h' => ?_
  exact wp_emptyJournalWrite hepoch hlay (by decide) h' hsec hQ

/-- **Applying the journal.** -/
theorem wp_applyJournal (h : d.At steady m []) (hC : Through C (applyStages v m index ciphertext page))
    (hQ : ∀ d', d'.At steady (cleared v (replayed v m index ciphertext page)) [] → Q () d') :
    wp (applyJournal v index ciphertext page) Q (Lost .io steady C) d := by
  obtain ⟨hwrites, hclear⟩ := through_append.mp hC
  obtain ⟨hsector, hpage⟩ := through_append.mp hwrites
  unfold applyJournal
  rw [wp_bind]
  refine wp_writeThrough h hsector fun d' h' => ?_
  rw [wp_bind]
  refine wp_writeThrough h' hpage fun d'' h'' => ?_
  exact wp_clearJournal hepoch hlay h'' hclear hQ

theorem wp_repair (hcopy : copy < 2) {isEmpty : Bool} (hnil : isEmpty = true ↔ EmptyAt v m copy)
    (h : d.At steady m []) (hC : Through C (repairStages v m copy))
    (hQ : ∀ d', d'.At steady (repaired v m copy) [] → Q () d') :
    wp (Exec.when (isEmpty = false) ((emptyJournalWrite v copy).orFail fun _ => Failure.io)) Q
      (Lost .io steady C) d := by
  unfold repairStages at hC
  unfold repaired at hQ
  rw [wp_when]
  refine ⟨fun hunset => ?_, fun hset => ?_⟩
  · have hnot : ¬ EmptyAt v m copy := fun hnil' => eq_false_iff.mp hunset (hnil.mpr hnil')
    rw [if_neg hnot] at hC hQ
    exact wp_emptyJournalWrite hepoch hlay hcopy h hC hQ
  · rw [if_pos (hnil.mp (not_eq_false _ ▸ hset))] at hQ
    exact hQ d h

end

/-- What recovery does with the journal of a medium. -/
def recoverJournalOf (v : Volume) (m : Disk Block) : Program Unit :=
  recoverJournal v (m v.journalFirst) (m (v.journalFirst + 1))
    (m (v.journalFirst + 2)) (m (v.journalFirst + 3))

/-- Authentic descriptors are not zero, so the tests for zero blocks decide nothing. -/
theorem recoverJournalOf_eq (v : Volume) (m : Disk Block) : recoverJournalOf v m =
      if ¬ ValidAt v m 0 ∧ ¬ ValidAt v m 1 then
        repairJournal v (emptyJournalValid v (m v.journalFirst))
          (emptyJournalValid v (m (v.journalFirst + 1)))
      else if ValidAt v m 0 ∧ ValidAt v m 1 ∧ m v.journalFirst ≠ m (v.journalFirst + 1) then
        Exec.fail .invalid
      else replayJournal v (if ValidAt v m 0 then m v.journalFirst else m (v.journalFirst + 1))
        (m (v.journalFirst + 2)) (m (v.journalFirst + 3)) := by
  have hnil : ∀ block : Block, (!allZero block.toList && emptyJournalValid v block)
      = emptyJournalValid v block := by
    intro block
    cases h : emptyJournalValid v block with
    | false => rw [Bool.and_false]
    | true => rw [not_zero_of_empty h]; rfl
  have hval : ∀ block ciphertext page : Block, (!allZero block.toList && journalValid v block ciphertext page)
      = journalValid v block ciphertext page := by
    intro block ciphertext page
    cases h : journalValid v block ciphertext page with
    | false => rw [Bool.and_false]
    | true => rw [not_zero_of_valid h]; rfl
  unfold recoverJournalOf recoverJournal
  simp only [hnil, hval, ← not_eq_true]
  rfl

/-- **Replaying** a valid descriptor. -/
theorem wp_replayJournal (hepoch : v.keyEpoch ≠ 0) (hval : ValidAt v m copy) (h : d.At steady m [])
    (hC : Through C (applyStages v m (indexAt v m copy) (m (v.journalFirst + 2))
      (m (v.journalFirst + 3))))
    (hQ : ∀ d', d'.At steady (cleared v (replayed v m (indexAt v m copy)
      (m (v.journalFirst + 2)) (m (v.journalFirst + 3)))) [] → Q () d') :
    wp (replayJournal v (m (v.journalFirst + copy)) (m (v.journalFirst + 2))
      (m (v.journalFirst + 3))) Q (Lost .io steady C) d := by
  obtain ⟨hlay, -, -, -, -, -, hlt, hquot, -, htags, -⟩ := of_decide_eq_true hval
  obtain ⟨hpay, htag⟩ := no_overflow hlay hlt
  unfold replayJournal
  rw [wp_bind, wp_require]
  refine ⟨fun _ => ?_, fun hfails => absurd ⟨hlt, hquot, htags, hpay, ?_⟩ hfails⟩
  · exact wp_applyJournal hepoch hlay h hC hQ
  · rw [hquot]
    exact htag

/-- The copy that recovery goes by is valid. -/
theorem chosenCopy_spec (v : Volume) (m : Disk Block) : match chosenCopy v m with
    | none => ∀ copy < 2, ¬ ValidAt v m copy
    | some copy => copy < 2 ∧ ValidAt v m copy := by
  unfold chosenCopy
  split_ifs with hfst hsec
  · exact ⟨by decide, hfst⟩
  · exact ⟨by decide, hsec⟩
  intro copy hcopy
  rcases (by omega : copy = 0 ∨ copy = 1) with rfl | rfl
  · exact hfst
  · exact hsec

/-- Without a valid descriptor the authentic one is empty. -/
theorem Accepted.empty_of_none (h : Accepted v m) (hnone : ∀ copy < 2, ¬ ValidAt v m copy) :
    EmptyAt v m 0 ∨ EmptyAt v m 1 := by
  obtain ⟨copy, hcopy, hnil | hval⟩ := h.some
  · rcases (by omega : copy = 0 ∨ copy = 1) with rfl | rfl
    · exact Or.inl hnil
    · exact Or.inr hnil
  · exact absurd hval (hnone copy hcopy)

/-- **What recovery does with the journal.** -/
theorem wp_recoverJournal (hrdy : Ready v m) (hacc : Accepted v m) (h : d.At steady m [])
    (hC : Through C (recoverStages v m)) (hQ : ∀ d', d'.At steady (recovered v m) [] → Q () d') :
    wp (recoverJournalOf v m) Q (Lost .io steady C) d := by
  have hchosen := chosenCopy_spec v m
  unfold recovered at hQ
  obtain ⟨-, hstages⟩ := through_cons.mp hC
  rw [recoverJournalOf_eq]
  cases hcase : chosenCopy v m with
  | none =>
    rw [hcase] at hchosen hstages hQ
    have hnone := hchosen
    obtain ⟨hfst, hsec⟩ := through_append.mp hstages
    rw [if_pos ⟨hnone 0 (by decide), hnone 1 (by decide)⟩]
    unfold repairJournal
    rw [wp_bind, wp_require]
    refine ⟨fun _ => ?_, fun hfails => absurd (hacc.empty_of_none hnone) hfails⟩
    rw [wp_bind]
    refine wp_repair hrdy.epoch hrdy.layout (by decide) Iff.rfl h hfst fun d' h' => ?_
    refine wp_repair hrdy.epoch hrdy.layout (by decide) ?_ h' hsec hQ
    -- repairing the first copy does not touch the second
    unfold EmptyAt
    rw [repaired_other (by decide)]
  | some copy =>
    rw [hcase] at hchosen hstages hQ
    obtain ⟨hcopy, hval⟩ := hchosen
    have hreplay := wp_replayJournal hrdy.epoch hval h hstages hQ
    rw [if_neg fun hnone => ?_, if_neg fun hdiffer => hdiffer.2.2 (hacc.same hdiffer.1 hdiffer.2.1)]
    · unfold chosenCopy at hcase
      by_cases hfst : ValidAt v m 0
      · rw [if_pos hfst] at hcase
        cases hcase
        rw [if_pos hfst]
        exact hreplay
      rw [if_neg hfst] at hcase
      rw [if_neg hfst]
      split at hcase
      · cases hcase
        exact hreplay
      · cases hcase
    rcases (by omega : copy = 0 ∨ copy = 1) with rfl | rfl
    · exact hnone.1 hval
    · exact hnone.2 hval

/-- The reads of recovery: only on a ready volume does it go on to the journal. -/
theorem wp_recover_reads {E : Failure → Device Block → Prop} (h : d.At steady m [])
    (hio : ∀ d', d'.At steady m [] → ¬ steady → E .io d') (hoth : ¬ Ready v m → ∀ e d', E e d')
    (hzero : allZero (m v.journalFirst).toList = true →
      allZero (m (v.journalFirst + 1)).toList = true → ∀ d', E .invalid d')
    (hrest : Ready v m → ∀ d', d'.At steady m [] → wp (recoverJournalOf v m) Q E d') :
    wp (recover v) Q E d := by
  unfold recover stateRead
  rw [wp_bind, wp_require]
  refine ⟨fun hepoch => ?_, fun hfails => hoth (fun hrdy => hfails hrdy.epoch) ..⟩
  rw [wp_bind, wp_ite]
  refine ⟨fun hinv => ?_, fun hlay => ?_⟩
  · rw [wp_pure, wp_bind, wp_require]
    refine ⟨fun hrdy => VolumeState.noConfusion hrdy, fun _ => hoth (fun hrdy => ?_) ..⟩
    rcases hinv with hinv | hlate
    · exact absurd hrdy.layout (eq_false_iff.mp hinv)
    have hjournal := (layout_ordered hrdy.layout).journal
    have hplace := journal_no_overflow hrdy.layout
    omega
  rw [wp_bind]
  refine wp_readBlock h (hio _ h) fun d1 h1 => ?_
  rw [wp_bind]
  refine wp_readBlock h1 (hio _ h1) fun d2 h2 => ?_
  rw [wp_pure, wp_bind, wp_require]
  refine ⟨fun hst => ?_, fun hfails => hoth (fun hrdy => hfails hrdy.state) ..⟩
  have hval : layoutValid v.layout = true := by
    by_contra hinv
    exact hlay (Or.inl (eq_false_iff.mpr hinv))
  rw [wp_bind, wp_require]
  refine ⟨fun _ => ?_, fun hfails => absurd (journal_no_overflow hval) hfails⟩
  rw [wp_bind]
  refine wp_readBlock h2 (hio _ h2) fun d3 h3 => ?_
  rw [wp_bind]
  refine wp_readBlock h3 (hio _ h3) fun d4 h4 => ?_
  rw [wp_bind, wp_require]
  refine ⟨fun _ => ?_, fun hfails => hzero (not_not.mp hfails).1 (not_not.mp hfails).2 _⟩
  rw [wp_bind]
  refine wp_readBlock h4 (hio _ h4) fun d5 h5 => ?_
  rw [wp_bind]
  refine wp_readBlock h5 (hio _ h5) fun d6 h6 => ?_
  exact hrest ⟨hepoch, hval, hst⟩ d6 h6

theorem AuthenticAt.not_zero (h : AuthenticAt v m copy) :
    allZero (m (v.journalFirst + copy)).toList = false := by
  rcases h with hnil | hval
  · exact not_zero_of_empty hnil
  · exact not_zero_of_valid hval

theorem Accepted.not_zero (h : Accepted v m) (hfst : allZero (m v.journalFirst).toList = true)
    (hsec : allZero (m (v.journalFirst + 1)).toList = true) : False := by
  obtain ⟨copy, hcopy, hauth⟩ := h.some
  have hnot := hauth.not_zero
  rcases (by omega : copy = 0 ∨ copy = 1) with rfl | rfl
  · exact eq_false_iff.mp hnot hfst
  · exact eq_false_iff.mp hnot hsec

/-- **Recovery** of an accepted journal. -/
theorem wp_recover (hrdy : Ready v m) (hacc : Accepted v m) (h : d.At steady m [])
    (hC : Through C (recoverStages v m)) (hQ : ∀ d', d'.At steady (recovered v m) [] → Q () d') :
    wp (recover v) Q (Lost .io steady C) d :=
  wp_recover_reads h (fun _ h' => h'.crash (through_cons.mp hC).1) (fun hnot => absurd hrdy hnot)
    (fun hfst hsec => (hacc.not_zero hfst hsec).elim)
    fun _ _ h' => wp_recoverJournal hrdy hacc h' hC hQ

/-- **Filling the journal.** -/
theorem wp_writeJournal (h : d.At steady m []) (hC : Through C (fillStages v m index ciphertext page))
    (hQ : ∀ d', d'.At steady (journaled v m index ciphertext page) [] → Q () d') :
    wp (writeJournal v index ciphertext page) Q (Lost .io steady C) d := by
  unfold fillStages at hC
  simp only [through_cons] at hC
  obtain ⟨h0, h1, h2, h3, h4, h5, -⟩ := hC
  unfold writeJournal
  rw [wp_bind]
  refine wp_writeBlock h h0 fun d1 h₁ => ?_
  rw [wp_bind]
  refine wp_writeBlock h₁ h1 fun d2 h₂ => ?_
  rw [wp_bind]
  refine wp_flush h₂ h2 fun d3 h₃ => ?_
  rw [wp_bind]
  refine wp_writeBlock (m := filled v m ciphertext page) h₃ h3 fun d4 h₄ => ?_
  rw [wp_bind]
  refine wp_writeBlock h₄ h4 fun d5 h₅ => ?_
  exact wp_flush h₅ h5 fun d6 h6 => hQ d6 h6

/-- What a write does after recovery. -/
def afterRecover (v : Volume) (index : Nat) (ciphertext : Block) : Program Unit := do
  clearJournal v
  let page ← readBlock .io (v.layout.tagFirstLba + index / tagsPerBlock)
  let page := setTag page (slotOf index) (v.tag index ciphertext)
  writeJournal v index ciphertext page
  applyJournal v index ciphertext page

/-- **A write** of a sector, after recovery. -/
theorem wp_afterRecover (hepoch : v.keyEpoch ≠ 0) (hlay : layoutValid v.layout = true) (h : d.At steady m [])
    (hC : Through C (cipherStages v m index ciphertext))
    (hQ : ∀ d', d'.At steady (rewritten v m index ciphertext) [] → Q () d') :
    wp (afterRecover v index ciphertext) Q (Lost .io steady C) d := by
  obtain ⟨hjournal, happly⟩ := through_append.mp hC
  obtain ⟨hclear, hfill⟩ := through_append.mp hjournal
  unfold afterRecover
  rw [wp_bind]
  refine wp_clearJournal hepoch hlay h hclear fun d2 h2 => ?_
  rw [wp_bind]
  refine wp_readBlock h2 (h2.crash (through_cons.mp hfill).1) fun d3 h3 => ?_
  show wp (writeJournal v index ciphertext (newPage v (cleared v m) index ciphertext) >>=
    fun _ => applyJournal v index ciphertext (newPage v (cleared v m) index ciphertext)) Q _ d3
  rw [wp_bind]
  refine wp_writeJournal h3 hfill fun d4 h4 => ?_
  exact wp_applyJournal hepoch hlay h4 happly hQ

/-- A write to a ready volume is recovery and what follows it. -/
theorem writeCipher_eq (hrdy : Ready v m) (hidx : index < v.layout.payloadBlockCount) (ciphertext : Block) :
    writeCipher v index ciphertext = recover v >>= fun _ => afterRecover v index ciphertext := by
  obtain ⟨-, -, -, hquot⟩ := places hrdy.layout hidx
  obtain ⟨hpay, htags⟩ := no_overflow hrdy.layout hidx
  unfold writeCipher Exec.require
  rw [if_pos ⟨hrdy.layout, hidx, hrdy.epoch⟩,
    if_pos ⟨hquot, hpay, htags, journal_no_overflow hrdy.layout⟩]
  rfl

/-- **A write** of a sector, to a volume whose journal is accepted. -/
theorem wp_writeCipher (hrdy : Ready v m) (hacc : Accepted v m)
    (hidx : index < v.layout.payloadBlockCount) (h : d.At steady m [])
    (hC : Through C (recoverStages v m ++ cipherStages v (recovered v m) index ciphertext))
    (hQ : ∀ d', d'.At steady (rewritten v (recovered v m) index ciphertext) [] → Q () d') :
    wp (writeCipher v index ciphertext) Q (Lost .io steady C) d := by
  obtain ⟨hrecover, hstages⟩ := through_append.mp hC
  rw [writeCipher_eq hrdy hidx, wp_bind]
  refine wp_recover hrdy hacc h hrecover fun d' h' => ?_
  exact wp_afterRecover hrdy.epoch hrdy.layout h' hstages hQ

/-! ## §5. Journals that are rejected. -/

/-- A journal that is not accepted is invalid. -/
theorem wp_recoverJournal_rejected (hrej : ¬ Accepted v m) :
    wp (recoverJournalOf v m) (fun _ _ => False) (fun e _ => e = .invalid) d := by
  rw [recoverJournalOf_eq]
  split
  · next hnone =>
    unfold repairJournal
    rw [wp_bind, wp_require]
    refine ⟨fun hnil => absurd ⟨?_, fun hval => ?_⟩ hrej, fun _ => rfl⟩
    · rcases hnil with hnil | hnil
      · exact ⟨0, by decide, Or.inl hnil⟩
      · exact ⟨1, by decide, Or.inl hnil⟩
    · exact absurd hval hnone.1
  next hnone =>
  split
  · rw [wp_fail]
  next hdiffer =>
  refine absurd ⟨?_, fun hfst hsec => ?_⟩ hrej
  · by_contra hsome
    push Not at hsome
    exact hnone ⟨fun hval => hsome 0 (by decide) (Or.inr hval),
      fun hval => hsome 1 (by decide) (Or.inr hval)⟩
  · by_contra hne
    exact hdiffer ⟨hfst, hsec, hne⟩

/-- **When recovery reports INVALID** on a ready volume. -/
theorem recover_rejected (hrdy : Ready v m) (hrej : ¬ Accepted v m) :
    (recover v (Device.on m)).1 = .error .invalid := by
  have hwp : wp (recover v) (fun _ _ => False) (fun e _ => e = .invalid) (Device.on m) :=
    wp_recover_reads (Device.on_at m) (fun _ _ => absurd trivial)
      (fun hnot => absurd hrdy hnot) (fun _ _ _ => rfl) fun _ d' _ => wp_recoverJournal_rejected hrej
  rcases hx : recover v (Device.on m) with ⟨e | u, d'⟩
  · rw [wp_error hwp hx]
  · exact (wp_ok hwp hx).elim

/-- Recovery on a medium with power returns, and leaves `base`. -/
def Recovers (v : Volume) (m base : Disk Block) : Prop :=
  ∃ d', recover v (Device.on m) = (.ok (), d') ∧ d'.view = base

theorem Accepted.recovers (h : Accepted v m) (hrdy : Ready v m) : Recovers v m (recovered v m) := by
  have hwp : wp (recover v) (fun _ d' => d'.At True (recovered v m) [])
      (Lost .io True fun _ _ => True) (Device.on m) :=
    wp_recover hrdy h (Device.on_at m) (fun _ _ => trivial) fun _ hd' => hd'
  obtain ⟨_, d', hrun, hd'⟩ := returns_of_wp hwp
  exact ⟨d', hrun, hd'.view_eq⟩

/-- **Recovery succeeds exactly on ready volumes with an accepted journal.** -/
theorem recovers_iff {base : Disk Block} :
    Recovers v m base ↔ Ready v m ∧ Accepted v m ∧ base = recovered v m := by
  constructor
  · rintro ⟨d', hrun, rfl⟩
    have hrdy : Ready v m := by
      have hwp : wp (recover v) (fun _ _ => Ready v m) (fun _ _ => True) (Device.on m) := by
        refine wp_recover_reads (Device.on_at m) (fun _ _ _ => trivial) (fun _ _ _ => trivial)
          (fun _ _ _ => trivial) fun hrdy d'' _ => ?_
        unfold wp
        split
        · exact hrdy
        · trivial
      have hrdy := wp_ok hwp hrun
      exact hrdy
    have hacc : Accepted v m := by
      by_contra hrej
      have hinv := recover_rejected hrdy hrej
      rw [hrun] at hinv
      cases hinv
    obtain ⟨d'', hrun', hview⟩ := hacc.recovers hrdy
    rw [hrun] at hrun'
    refine ⟨hrdy, hacc, ?_⟩
    rw [← hview, (Prod.mk.inj hrun').2]
  · rintro ⟨hrdy, hacc, rfl⟩
    exact hacc.recovers hrdy

end
end RinRuntime.Crypt
