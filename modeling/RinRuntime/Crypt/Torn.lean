/-
Crypt.Torn — a write that is interrupted on a device that can tear blocks.

A block with an unflushed write may be torn into anything. The copies of the journal descriptor are cleared
one at a time, but the new descriptor goes to both of them under one flush: there both may be torn.
-/
import RinRuntime.Crypt.WriteCrash

namespace RinRuntime.Crypt
open Lib CrashDisk

/-! ## §1. The descriptors after a crash. -/

/-- The descriptors of an image: one is authentic, unless both blocks are torn, or the first one while the
second was `lost` before; and two valid ones are the same. -/
structure Descriptors (v : Volume) (lost : Prop) (torn : Nat → Prop) (image : Disk Block) : Prop where
  some : (∃ copy < 2, AuthenticAt v image copy) ∨
    torn v.journalFirst ∧ (torn (v.journalFirst + 1) ∨ lost)
  same : ValidAt v image 0 → ValidAt v image 1 →
    image v.journalFirst = image (v.journalFirst + 1)
  damaged : torn v.journalFirst → lost → ¬ AuthenticAt v image 1

/-- The bytes of torn blocks are no authentic descriptor. -/
def Unforged (v : Volume) (torn : Nat → Prop) (image : Disk Block) : Prop :=
  ∀ copy < 2, torn (v.journalFirst + copy) → ¬ AuthenticAt v image copy

/-- The state blocks are durable, and a crash leaves the descriptors as said above. -/
structure TornSafe (v : Volume) (lost : Prop) (m : Disk Block) (writes : List (Nat × Block)) : Prop where
  ready : Ready v m
  state : ∀ write ∈ writes, v.journalFirst ≤ write.1
  left : ∀ torn image, Tears m writes torn image → Unforged v torn image → Descriptors v lost torn image

section
variable {v : Volume} {disk m image : Disk Block} {writes : List (Nat × Block)} {index copy : Nat}
  {ciphertext page : Block} {lost : Prop} {torn : Nat → Prop}

theorem TornSafe.image_ready (h : TornSafe v lost m writes) (himage : Tears m writes torn image) : Ready v image :=
  h.ready.of_state fun _ _ hlt => himage.same fun _ hb => absurd (h.state _ hb) (Nat.not_le.mpr hlt)

/-- The blocks up to the end of the journal are all that matters for its descriptors. -/
theorem authenticAt_congr {m' : Disk Block} (h : ∀ a, a < v.journalFirst + 4 → m' a = m a)
    (hcopy : copy < 2) : AuthenticAt v m' copy ↔ AuthenticAt v m copy := by
  have hval := @validAt_congr v m m' copy (fun a ha => h a ha.2) hcopy
  unfold AuthenticAt EmptyAt
  rw [hval, h _ (by omega)]

theorem Accepted.congr {m' : Disk Block} (h : Accepted v m)
    (hsame : ∀ a, a < v.journalFirst + 4 → m' a = m a) : Accepted v m' := by
  obtain ⟨copy, hcopy, hauth⟩ := h.some
  refine ⟨⟨copy, hcopy, (authenticAt_congr hsame hcopy).mpr hauth⟩, fun hfst hsec => ?_⟩
  rw [hsame _ (by omega), hsame _ (by omega)]
  exact h.same ((validAt_congr (fun a ha => hsame a ha.2) (by decide)).mp hfst)
    ((validAt_congr (fun a ha => hsame a ha.2) (by decide)).mp hsec)

/-- While nothing is written to the journal, it stays accepted. -/
theorem tornSafe_of_accepted (hrdy : Ready v m) (hacc : Accepted v m)
    (hwrites : ∀ write ∈ writes, v.journalFirst + 4 ≤ write.1) : TornSafe v lost m writes := by
  refine ⟨hrdy, fun write hwrite => Nat.le_trans (Nat.le_add_right ..) (hwrites write hwrite), ?_⟩
  intro torn image himage _
  have hacc' : Accepted v image :=
    hacc.congr fun a ha => himage.same fun b hb => absurd (hwrites _ hb) (Nat.not_le.mpr ha)
  refine ⟨.inl hacc'.some, hacc'.same, fun htorn => ?_⟩
  obtain ⟨b, hb⟩ := himage.flight _ htorn
  exact absurd (hwrites _ hb) (by simp)

/-- An empty copy that is not written to stays. -/
theorem tornSafe_of_empty (hrdy : Ready v m) (hcopy : copy < 2) (hnil : EmptyAt v m copy)
    (hwrites : ∀ write ∈ writes, v.journalFirst ≤ write.1 ∧
      write.1 ≠ v.journalFirst + copy) (hlost : lost → copy = 0) : TornSafe v lost m writes := by
  refine ⟨hrdy, fun write hwrite => (hwrites write hwrite).1, fun torn image himage _ => ?_⟩
  have hnil' : EmptyAt v image copy := by
    unfold EmptyAt
    rw [himage.same fun b hb => (hwrites _ hb).2 rfl]
    exact hnil
  refine ⟨.inl ⟨copy, hcopy, .inl hnil'⟩, fun hfst hsec => ?_, fun htorn hlost' => ?_⟩
  · rcases (by omega : copy = 0 ∨ copy = 1) with rfl | rfl
    · exact absurd hfst hnil'.not_valid
    · exact absurd hsec hnil'.not_valid
  · obtain ⟨b, hb⟩ := himage.flight _ htorn
    cases hlost hlost'
    exact absurd rfl (hwrites _ hb).2

/-- While the first copy is made empty, the second one matters if the first is torn. -/
theorem tornSafe_of_first (hrdy : Ready v m) (hacc : Accepted v m)
    (hlost : lost ↔ ¬ AuthenticAt v m 1) :
    TornSafe v lost m [(v.journalFirst + 0, v.emptyJournal)] := by
  refine ⟨hrdy, by simp, fun torn image himage hforge => ?_⟩
  by_cases htorn : torn v.journalFirst
  · have hsec : AuthenticAt v image 1 ↔ AuthenticAt v m 1 := by
      unfold AuthenticAt EmptyAt ValidAt
      rw [himage.same (by simp), himage.same (by simp), himage.same (by simp)]
    have hfst : ¬ AuthenticAt v image 0 := hforge 0 (by decide) htorn
    refine ⟨?_, fun hval => absurd (.inr hval) hfst, fun _ hlost' => ?_⟩
    · by_cases hauth : AuthenticAt v m 1
      · exact .inl ⟨1, by decide, hsec.mpr hauth⟩
      · exact .inr ⟨htorn, .inr (hlost.mpr hauth)⟩
    · rw [hsec]
      exact hlost.mp hlost'
  rcases (himage.lands (by simpa using htorn)).single with rfl | rfl
  · exact ⟨.inl hacc.some, hacc.same, fun htorn' => absurd htorn' htorn⟩
  · have hnil : EmptyAt v (emptied v m 0) 0 := emptied_emptyAt hrdy
    exact ⟨.inl ⟨0, by decide, .inl hnil⟩, fun hval => absurd hval hnil.not_valid,
      fun htorn' => absurd htorn' htorn⟩

/-- While the new descriptor is on its way to both copies, a copy that is not torn is authentic. -/
theorem tornSafe_of_both (hclean : Clean v m) (hidx : index < v.layout.payloadBlockCount)
    (htag : v.tag index ciphertext = pageTag page (slotOf index)) :
    TornSafe v False (filled v m ciphertext page) [(v.journalFirst, v.journal index ciphertext page),
      (v.journalFirst + 1, v.journal index ciphertext page)] := by
  obtain ⟨hclean', -, hcipher, hpage⟩ := filled_clean hclean ciphertext page
  refine ⟨hclean'.ready, by simp, fun torn image himage hforge => ?_⟩
  have hcipher' : image (v.journalFirst + 2) = ciphertext := by
    rw [himage.same (by simp), hcipher]
  have hpage' : image (v.journalFirst + 3) = page := by
    rw [himage.same (by simp), hpage]
  have hval : ∀ copy, image (v.journalFirst + copy) = v.journal index ciphertext page →
      ValidAt v image copy := by
    intro copy hcopy
    unfold ValidAt
    rw [hcopy, hcipher', hpage']
    exact (journal_valid hclean.ready.layout hidx htag).1
  -- a block that is not torn holds the empty descriptor or the new one
  have hwhole : ∀ copy < 2, ¬ torn (v.journalFirst + copy) → EmptyAt v image copy ∨
      image (v.journalFirst + copy) = v.journal index ciphertext page := by
    intro copy hcopy htorn
    rcases himage.whole _ htorn with hsame | hwr
    · left
      unfold EmptyAt
      rw [hsame]
      exact hclean'.empty copy hcopy
    · right
      simp only [List.mem_cons, Prod.mk.injEq, List.not_mem_nil, or_false] at hwr
      exact hwr.elim And.right And.right
  have hauth : ∀ copy < 2, ¬ torn (v.journalFirst + copy) → AuthenticAt v image copy :=
    fun copy hcopy htorn => (hwhole copy hcopy htorn).imp_right (hval copy)
  refine ⟨?_, fun hfst hsec => ?_, fun _ => False.elim⟩
  · by_cases hfst : torn v.journalFirst
    · by_cases hsec : torn (v.journalFirst + 1)
      · exact .inr ⟨hfst, .inl hsec⟩
      · exact .inl ⟨1, by decide, hauth 1 (by decide) hsec⟩
    · exact .inl ⟨0, by decide, hauth 0 (by decide) hfst⟩
  · have hnew : ∀ copy < 2, ValidAt v image copy →
        image (v.journalFirst + copy) = v.journal index ciphertext page := by
      intro copy hcopy hval'
      refine (hwhole copy hcopy fun htorn => ?_).resolve_left fun hnil => hnil.not_valid hval'
      exact hforge copy hcopy htorn (.inr hval')
    exact (hnew 0 (by decide) hfst).trans (hnew 1 (by decide) hsec).symm

/-! ## §2. Stages. -/

/-- **Clearing the journal.** -/
theorem clearStages_torn (hrdy : Ready v m) (hacc : Accepted v m) (hlost : lost ↔ ¬ AuthenticAt v m 1) :
    Through (TornSafe v lost) (clearStages v m) := by
  have hrdy' : Ready v (emptied v m 0) := hrdy.of_sameData (emptied_sameData (by decide))
  have hnil : EmptyAt v (emptied v m 0) 0 := emptied_emptyAt hrdy
  refine through_append.mpr ⟨through_writeStages.mpr ⟨?_, ?_⟩, through_writeStages.mpr ⟨?_, ?_⟩⟩
  · exact tornSafe_of_accepted hrdy hacc (by simp)
  · exact tornSafe_of_first hrdy hacc hlost
  · exact tornSafe_of_empty hrdy' (by decide) hnil (by simp) fun _ => rfl
  · exact tornSafe_of_empty hrdy' (by decide) hnil (by simp) fun _ => rfl

/-- **Applying the journal.** -/
theorem applyStages_torn (hrdy : Ready v m) (hacc : Accepted v m)
    (hidx : index < v.layout.payloadBlockCount) (hlost : lost ↔ ¬ AuthenticAt v m 1) :
    Through (TornSafe v lost) (applyStages v m index ciphertext page) := by
  obtain ⟨hpage, hbtw, hsector, -⟩ := places hrdy.layout hidx
  have hmiddle : ∀ a, a < v.journalFirst + 4 →
      Function.update m (v.sectorLba index) ciphertext a = m a :=
    fun a ha => Function.update_of_ne (by omega) ..
  have hend : ∀ a, a < v.journalFirst + 4 → replayed v m index ciphertext page a = m a :=
    fun a ha => replayed_before hrdy.layout hidx m ciphertext page ha
  have hrdy' : Ready v (Function.update m (v.sectorLba index) ciphertext) :=
    hrdy.of_state fun a _ hlt => hmiddle a (by omega)
  refine through_append.mpr ⟨through_append.mpr ⟨through_writeStages.mpr ⟨?_, ?_⟩,
    through_writeStages.mpr ⟨?_, ?_⟩⟩, ?_⟩
  · exact tornSafe_of_accepted hrdy hacc (by simp)
  · refine tornSafe_of_accepted hrdy hacc fun write hwrite => ?_
    rw [List.mem_singleton.mp hwrite]
    show v.journalFirst + 4 ≤ v.sectorLba index
    omega
  · exact tornSafe_of_accepted hrdy' (hacc.congr hmiddle) (by simp)
  · refine tornSafe_of_accepted hrdy' (hacc.congr hmiddle) fun write hwrite => ?_
    rw [List.mem_singleton.mp hwrite]
    exact hpage
  · refine clearStages_torn (hrdy.replayed hidx ..) (hacc.congr hend) ?_
    rw [authenticAt_congr hend (by decide)]
    exact hlost

/-- **Recovery.** -/
theorem recoverStages_torn (hrdy : Ready v disk) (hacc : Accepted v disk) :
    Through (TornSafe v (¬ AuthenticAt v disk 1)) (recoverStages v disk) := by
  have hchosen := chosenCopy_spec v disk
  refine through_cons.mpr ⟨tornSafe_of_accepted hrdy hacc (by simp), ?_⟩
  cases hcase : chosenCopy v disk with
  | some copy =>
    rw [hcase] at hchosen
    exact applyStages_torn hrdy hacc hchosen.2.index_lt Iff.rfl
  | none =>
    rw [hcase] at hchosen
    refine through_append.mpr ⟨?_, ?_⟩
    · unfold repairStages
      split
      · exact through_nil
      next hdamaged =>
      -- the second copy is the empty one
      have hsec : EmptyAt v disk 1 := (hacc.empty_of_none hchosen).resolve_left hdamaged
      have hlost : ¬ AuthenticAt v disk 1 → 1 = 0 := fun hlost => absurd (.inl hsec) hlost
      exact through_writeStages.mpr ⟨tornSafe_of_empty hrdy (by decide) hsec (by simp) hlost,
        tornSafe_of_empty hrdy (by decide) hsec (by simp) hlost⟩
    have hfst : EmptyAt v (repaired v disk 0) 0 := repaired_emptyAt hrdy
    have hrdy' : Ready v (repaired v disk 0) := by
      unfold repaired
      split
      · exact hrdy
      · exact hrdy.of_sameData (emptied_sameData (by decide))
    unfold repairStages
    split
    · exact through_nil
    · exact through_writeStages.mpr ⟨tornSafe_of_empty hrdy' (by decide) hfst (by simp) fun _ => rfl,
        tornSafe_of_empty hrdy' (by decide) hfst (by simp) fun _ => rfl⟩

/-- **Filling the journal.** -/
theorem fillStages_torn (hclean : Clean v m) (hidx : index < v.layout.payloadBlockCount)
    (htag : v.tag index ciphertext = pageTag page (slotOf index)) :
    Through (TornSafe v False) (fillStages v m index ciphertext page) := by
  obtain ⟨hclean', -⟩ := filled_clean hclean ciphertext page
  have hfst := hclean.empty 0 (by decide)
  have hfst' := hclean'.empty 0 (by decide)
  have hsec' := hclean'.empty 1 (by decide)
  unfold fillStages
  simp only [through_cons]
  exact ⟨tornSafe_of_empty hclean.ready (by decide) hfst (by simp) False.elim,
    tornSafe_of_empty hclean.ready (by decide) hfst (by simp) False.elim,
    tornSafe_of_empty hclean.ready (by decide) hfst (by simp) False.elim,
    tornSafe_of_empty hclean'.ready (by decide) hfst' (by simp) False.elim,
    tornSafe_of_empty hclean'.ready (by decide) hsec' (by simp) False.elim,
    tornSafe_of_both hclean hidx htag, through_nil⟩

/-- **The stages of a write**, from a clean volume. -/
theorem cipherStages_torn (hclean : Clean v m) (hidx : index < v.layout.payloadBlockCount) :
    Through (TornSafe v False) (cipherStages v m index ciphertext) := by
  have hclean' : Clean v (cleared v m) := cleared_clean hclean.ready
  have htag : v.tag index ciphertext = pageTag (newPage v (cleared v m) index ciphertext) (slotOf index) :=
    (pageTag_setTag ..).symm
  obtain ⟨hrdy, -, -, -, -, hval⟩ := journaled_pending hclean' hidx htag
  refine through_append.mpr ⟨through_append.mpr ⟨?_, fillStages_torn hclean' hidx htag⟩, ?_⟩
  · have hsec : AuthenticAt v m 1 := .inl (hclean.empty 1 (by decide))
    refine clearStages_torn hclean.ready ⟨⟨1, by decide, hsec⟩, fun hfst => ?_⟩ (by simpa using hsec)
    exact absurd hfst (hclean.empty 0 (by decide)).not_valid
  · have hsec := hval 1 (by decide)
    have hauth : AuthenticAt v _ 1 := .inr hsec
    refine applyStages_torn hrdy ⟨⟨1, by decide, hauth⟩, fun _ _ => ?_⟩ hidx (by simpa using hauth)
    unfold journaled described
    rw [Function.update_of_ne (by omega), Function.update_self, Function.update_self]

end

/-! ## §3. Crashes. -/

/-- The device where a write has lost power after some operations. -/
def crashed (v : Volume) (index : Nat) (ciphertext : Block) (disk : Disk Block) (operations : Nat) :
    Device Block := (writeCipher v index ciphertext (Device.until disk operations)).2

/-- What a crash leaves that tears these blocks. -/
def TornImage (v : Volume) (index : Nat) (ciphertext : Block) (disk : Disk Block) (operations : Nat)
    (torn : Nat → Prop) (image : Disk Block) : Prop :=
  Tears (crashed v index ciphertext disk operations).durable (crashed v index ciphertext disk operations).pending
    torn image

/-- The first descriptor is the only authentic one, and power is lost in the recovery that a write begins with. -/
def LastCopy (v : Volume) (disk : Disk Block) (operations : Nat) : Prop :=
  ¬ AuthenticAt v disk 1 ∧ (recover v (Device.until disk operations)).1 ≠ .ok ()

section
variable {v : Volume} {disk image : Disk Block} {index operations : Nat} {ciphertext : Block} {torn : Nat → Prop}

theorem crashed_tornSafe (hrdy : Ready v disk) (hacc : Accepted v disk)
    (hidx : index < v.layout.payloadBlockCount) :
    TornSafe v (LastCopy v disk operations) (crashed v index ciphertext disk operations).durable
      (crashed v index ciphertext disk operations).pending := by
  obtain ⟨-, hclean, -, -⟩ := (hacc.recoverable hrdy).outcome
  obtain ⟨-, hclean', -⟩ := cipherStages_safe hclean hidx ciphertext
  have hrecover : Exec.wp (recover v) (fun _ d' => d'.At False (recovered v disk) [])
      (Lost .io False (TornSafe v (¬ AuthenticAt v disk 1))) (Device.until disk operations) :=
    wp_recover hrdy hacc (Device.until_at disk operations) (recoverStages_torn hrdy hacc)
      fun _ hd' => hd'
  unfold crashed LastCopy
  rw [writeCipher_eq hrdy hidx, Exec.run_bind]
  rcases hrun : recover v (Device.until disk operations) with ⟨e | _, d'⟩
  · -- power is lost in recovery
    have hsafe := (Exec.wp_error hrecover hrun).2.2
    simpa using hsafe
  have hat := Exec.wp_ok hrecover hrun
  have hwp : Exec.wp (afterRecover v index ciphertext)
      (fun _ d' => d'.At False (rewritten v (recovered v disk) index ciphertext) [])
      (Lost .io False (TornSafe v False)) d' :=
    wp_afterRecover hrdy.epoch hrdy.layout hat (cipherStages_torn hclean hidx) fun _ hd' => hd'
  have hsafe := final_of_wp hwp fun _ d' hd' => by
    rw [hd'.durable, hd'.pending]
    exact tornSafe_of_empty hclean'.ready (by decide) (hclean'.empty 0 (by decide)) (by simp) fun _ => rfl
  simpa using hsafe

/-- Recovery does not report INVALID exactly where it accepts the journal. -/
theorem not_invalid_iff (hrdy : Ready v image) :
    (recover v (Device.on image)).1 ≠ .error .invalid ↔ Accepted v image := by
  constructor
  · intro hval
    by_contra hrej
    exact hval (recover_rejected hrdy hrej)
  intro hacc hinv
  obtain ⟨d', hrun, -⟩ := hacc.recovers hrdy
  rw [hrun] at hinv
  cases hinv

/-- **When a torn write leaves a usable journal.** For a ready volume that recovery accepts, wherever a write
is cut off: where the bytes of torn blocks are no authentic descriptor, one is left, and recovery does not
report INVALID, unless both descriptor blocks are torn, or the first one is and there was no other. -/
theorem torn_journal_usable_iff {base : Disk Block} (hrecovers : Recovers v disk base)
    (hidx : index < v.layout.payloadBlockCount)
    (htorn : TornImage v index ciphertext disk operations torn image) (hforge : Unforged v torn image) :
    ((∃ copy < 2, AuthenticAt v image copy) ∧ (recover v (Device.on image)).1 ≠ .error .invalid) ↔
      ¬ (torn v.journalFirst ∧
        (torn (v.journalFirst + 1) ∨ LastCopy v disk operations)) := by
  obtain ⟨hrdy, hacc, -⟩ := recovers_iff.mp hrecovers
  have hsafe := @crashed_tornSafe v disk index operations ciphertext hrdy hacc hidx
  obtain ⟨hsome, hsame, hdamaged⟩ := hsafe.left torn image htorn hforge
  rw [not_invalid_iff (hsafe.image_ready htorn)]
  constructor
  · rintro ⟨⟨copy, hcopy, hauth⟩, -⟩ ⟨hfst, hsec⟩
    rcases (by omega : copy = 0 ∨ copy = 1) with rfl | rfl
    · exact hforge 0 hcopy hfst hauth
    · exact hsec.elim (fun hsec => hforge 1 hcopy hsec hauth)
        fun hlast => hdamaged hfst hlast hauth
  · intro hnot
    have hsome' := hsome.resolve_right hnot
    exact ⟨hsome', hsome', hsame⟩

end

/-- Blocks torn into bytes of no descriptor. -/
def tear (torn : Nat → Prop) [DecidablePred torn] (m : Disk Block) : Disk Block :=
  fun a => if torn a then Vector.replicate 512 0xff else m a

section
variable {v : Volume} {m : Disk Block} {torn : Nat → Prop} [DecidablePred torn]

theorem tear_tears {writes : List (Nat × Block)} (h : ∀ a, torn a → a ∈ writes.map Prod.fst) :
    Tears m writes torn (tear torn m) := by
  refine ⟨fun a ha => ?_, fun a ha => .inl (if_neg ha)⟩
  obtain ⟨⟨_, b⟩, hb, rfl⟩ := List.mem_map.mp (h a ha)
  exact ⟨b, hb⟩

theorem tear_unforged : Unforged v torn (tear torn m) := by
  intro copy _ htorn hauth
  have hmagic : bytesAt (tear torn m (v.journalFirst + copy)) 0 4 = journalMagic := by
    rcases hauth with hnil | hval
    · exact (of_decide_eq_true hnil).2.1
    · exact (of_decide_eq_true hval).2.1
  rw [tear, if_pos htorn] at hmagic
  exact absurd hmagic (by decide +kernel)

end

/-- Power is lost while the first descriptor is made empty, and tears it: the second one keeps the journal
usable. -/
theorem torn_journal_usable_first : ∃ image, TornImage smallVolume 0 (Vector.replicate 512 7) smallDisk 7 (· = 2) image ∧
    Unforged smallVolume (· = 2) image ∧ (∃ copy < 2, AuthenticAt smallVolume image copy) ∧
    (recover smallVolume (Device.on image)).1 ≠ .error .invalid := by
  have hplaces : (crashed smallVolume 0 (Vector.replicate 512 7) smallDisk 7).pending.map Prod.fst = [2] := by
    decide +kernel
  have htorn : TornImage smallVolume 0 (Vector.replicate 512 7) smallDisk 7 (· = 2) (tear (· = 2) _) :=
    tear_tears fun a ha => hplaces ▸ List.mem_singleton.mpr ha
  refine ⟨_, htorn, tear_unforged,
    (torn_journal_usable_iff smallDisk_recovers (by decide) htorn tear_unforged).mpr ?_⟩
  rintro ⟨-, hsec | hlast⟩
  · exact absurd hsec (by decide)
  · exact hlast.1 (.inl (smallDisk_clean.empty 1 (by decide)))

/-- Power is lost while both descriptors are in flight, and tears both. -/
theorem torn_journal_invalid : Recovers smallVolume smallDisk smallDisk ∧ ∃ image,
    TornImage smallVolume 0 (Vector.replicate 512 7) smallDisk 16 (fun a => a = 2 ∨ a = 3) image ∧
    (¬ ∃ copy < 2, AuthenticAt smallVolume image copy) ∧
    (recover smallVolume (Device.on image)).1 = .error .invalid := by
  have hplaces : (crashed smallVolume 0 (Vector.replicate 512 7) smallDisk 16).pending.map Prod.fst = [2, 3] := by
    decide +kernel
  obtain ⟨image, htorn, hforge⟩ : ∃ image,
      TornImage smallVolume 0 (Vector.replicate 512 7) smallDisk 16 (fun a => a = 2 ∨ a = 3) image ∧
        Unforged smallVolume (fun a => a = 2 ∨ a = 3) image := by
    refine ⟨_, tear_tears fun a ha => ?_, tear_unforged⟩
    rw [hplaces]
    simpa using ha
  have hnone : ¬ ∃ copy < 2, AuthenticAt smallVolume image copy := fun ⟨copy, hcopy, hauth⟩ =>
    hforge copy hcopy (by show 2 + copy = 2 ∨ 2 + copy = 3; omega) hauth
  obtain ⟨hrdy, hacc, -⟩ := recovers_iff.mp smallDisk_recovers
  have hrdy' := (crashed_tornSafe hrdy hacc (by decide)).image_ready htorn
  exact ⟨smallDisk_recovers, image, htorn, hnone, recover_rejected hrdy' fun hacc' => hnone hacc'.some⟩

end RinRuntime.Crypt
