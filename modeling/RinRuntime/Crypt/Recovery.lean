/-
Crypt.Recovery — what recovery makes of a volume, also when it is interrupted.

`Recoverable v m base`: the journal is idle and the data is `base`, or a valid descriptor is pending and
replaying its journal pages gives `base`. Recovery brings such a medium to `base` with a clean journal, and
at every stage of it the medium is still recoverable to `base`.
-/
import RinRuntime.Crypt.Stages

namespace RinRuntime.Crypt
open Lib CrashDisk Function

/-! ## §1. Data. -/

/-- A block of the journal. -/
def InJournal (v : Volume) (a : Nat) : Prop := v.journalFirst ≤ a ∧ a < v.journalFirst + 4

/-- The media agree outside the journal. -/
def SameData (v : Volume) (m m' : Disk Block) : Prop := ∀ a, ¬ InJournal v a → m a = m' a

theorem SameData.refl (v : Volume) (m : Disk Block) : SameData v m m := fun _ _ => rfl

variable {v : Volume} {m m' : Disk Block}

theorem SameData.symm (h : SameData v m m') : SameData v m' m :=
  fun a ha => (h a ha).symm

theorem SameData.trans {m m' m'' : Disk Block} (h : SameData v m m') (h' : SameData v m' m'') :
    SameData v m m'' := fun a ha => (h a ha).trans (h' a ha)

/-- Media that differ in two blocks of the journal only. -/
theorem sameData_of_two {i j : Nat} (hi : i < 4) (hj : j < 4) (h : ∀ a, a ≠ v.journalFirst + i →
      a ≠ v.journalFirst + j → m' a = m a) : SameData v m' m :=
  fun a ha => h a (fun heq => ha ⟨by omega, by omega⟩) fun heq => ha ⟨by omega, by omega⟩

/-- Writing to the journal leaves the data alone. -/
theorem sameData_update {a : Nat} (ha : InJournal v a) (m : Disk Block) (b : Block) :
    SameData v (update m a b) m := by
  intro x hx
  rw [update_of_ne]
  rintro rfl
  exact hx ha

theorem Ready.ordered {m : Disk Block} (h : Ready v m) : v.Ordered :=
  layout_ordered h.layout

/-- The state blocks are all that matters. -/
theorem Ready.of_state (h : Ready v m)
    (hsame : ∀ a, v.layout.stateFirstLba ≤ a → a < v.journalFirst → m' a = m a) : Ready v m' := by
  have hplaces := h.ordered.journal
  refine ⟨h.epoch, h.layout, ?_⟩
  rw [hsame _ (Nat.le_refl _) (by omega), hsame _ (Nat.le_succ _) (by omega)]
  exact h.state

theorem Ready.of_sameData (h : Ready v m) (hsame : SameData v m' m) : Ready v m' :=
  h.of_state fun a _ hlt => hsame a fun hin => absurd hin.1 (Nat.not_le.mpr hlt)

/-! ## §2. The journal. -/

/-- What holds of a copy holds of the first or of the second. -/
theorem or_of_copy {P : Nat → Prop} {copy : Nat} (hcopy : copy < 2) (h : P copy) : P 0 ∨ P 1 := by
  rcases (by omega : copy = 0 ∨ copy = 1) with rfl | rfl
  · exact Or.inl h
  · exact Or.inr h

/-- A valid descriptor is pending, for one sector. -/
structure PendingAt (v : Volume) (m : Disk Block) (index : Nat) : Prop where
  some : ValidAt v m 0 ∨ ValidAt v m 1
  index : ∀ copy < 2, ValidAt v m copy → descriptorIndex (m (v.journalFirst + copy)) = index
  same : ValidAt v m 0 → ValidAt v m 1 → m v.journalFirst = m (v.journalFirst + 1)

/-- The journal is clean: both descriptors are empty. -/
structure Clean (v : Volume) (m : Disk Block) : Prop where
  ready : Ready v m
  empty : ∀ copy < 2, EmptyAt v m copy

/-- **What recovery can bring to `base`.** -/
inductive Recoverable (v : Volume) (m base : Disk Block) : Prop where
  | idle (hrdy : Ready v m) (hnil : EmptyAt v m 0 ∨ EmptyAt v m 1)
      (hnone : ∀ copy < 2, ¬ ValidAt v m copy) (hdata : SameData v m base)
  | pending (hrdy : Ready v m) (index : Nat) (hpend : PendingAt v m index)
      (hdata : SameData v (replayed v m index (m (v.journalFirst + 2))
        (m (v.journalFirst + 3))) base)

section
variable {v : Volume} {m m' base base' : Disk Block} {index copy : Nat}

theorem Recoverable.ready (h : Recoverable v m base) : Ready v m := by
  cases h with
  | idle hrdy => exact hrdy
  | pending hrdy => exact hrdy

theorem Recoverable.trans (h : Recoverable v m base) (hsame : SameData v base base') : Recoverable v m base' := by
  cases h with
  | idle hrdy hnil hnone hdata => exact .idle hrdy hnil hnone (hdata.trans hsame)
  | pending hrdy index hpend hdata => exact .pending hrdy index hpend (hdata.trans hsame)

theorem EmptyAt.not_valid (h : EmptyAt v m copy) : ¬ ValidAt v m copy := by
  intro hval
  unfold ValidAt at hval
  rw [not_valid_of_empty h] at hval
  cases hval

theorem Clean.recoverable (h : Clean v m) (hsame : SameData v m base) : Recoverable v m base :=
  .idle h.ready (Or.inl (h.empty 0 (by decide))) (fun copy hcopy => (h.empty copy hcopy).not_valid) hsame

theorem ValidAt.index_lt (h : ValidAt v m copy) :
    descriptorIndex (m (v.journalFirst + copy)) < v.layout.payloadBlockCount :=
  (of_decide_eq_true h).2.2.2.2.2.2.1

theorem PendingAt.index_lt (h : PendingAt v m index) : index < v.layout.payloadBlockCount := by
  rcases h.some with hval | hval
  · rw [← h.index 0 (by decide) hval]
    exact hval.index_lt
  · rw [← h.index 1 (by decide) hval]
    exact hval.index_lt

/-- The journal blocks are all that matters for the descriptors. -/
theorem validAt_congr (h : ∀ a, InJournal v a → m' a = m a) (hcopy : copy < 2) :
    ValidAt v m' copy ↔ ValidAt v m copy := by
  have hin : ∀ k < 4, InJournal v (v.journalFirst + k) := by
    intro k hk
    exact ⟨Nat.le_add_right .., by omega⟩
  unfold ValidAt
  rw [h _ (hin copy (by omega)), h _ (hin 2 (by decide)), h _ (hin 3 (by decide))]

theorem PendingAt.congr (hpend : PendingAt v m index) (h : ∀ a, InJournal v a → m' a = m a) :
    PendingAt v m' index := by
  have hdesc : ∀ k < 2, m' (v.journalFirst + k) = m (v.journalFirst + k) := by
    intro k hk
    exact h _ ⟨Nat.le_add_right .., by omega⟩
  refine ⟨?_, ?_, ?_⟩
  · rw [validAt_congr h (by decide), validAt_congr h (by decide)]
    exact hpend.some
  · intro copy hcopy hval
    rw [hdesc copy hcopy]
    exact hpend.index copy hcopy ((validAt_congr h hcopy).mp hval)
  intro hfst hsec
  have hfst' := (validAt_congr h (by decide)).mp hfst
  have hsec' := (validAt_congr h (by decide)).mp hsec
  have h0 := hdesc 0 (by decide)
  rw [Nat.add_zero] at h0
  rw [h0, hdesc 1 (by decide)]
  exact hpend.same hfst' hsec'

/-- Replaying does not touch the journal or the state. -/
theorem replayed_before (hlay : layoutValid v.layout = true) (hidx : index < v.layout.payloadBlockCount)
    (m : Disk Block) (ciphertext page : Block) {a : Nat} (ha : a < v.journalFirst + 4) :
    replayed v m index ciphertext page a = m a := by
  obtain ⟨hpage, hbef, hsector, -⟩ := places hlay hidx
  unfold replayed
  rw [update_of_ne (by omega), update_of_ne (by omega)]

theorem Ready.replayed (h : Ready v m) (hidx : index < v.layout.payloadBlockCount) (ciphertext page : Block) :
    Ready v (replayed v m index ciphertext page) :=
  h.of_state fun _ _ hlt => replayed_before h.layout hidx m ciphertext page (Nat.lt_add_right 4 hlt)

/-- Replaying takes the same data to the same data. -/
theorem SameData.replayed (h : SameData v m m') (index : Nat) (ciphertext page : Block) :
    SameData v (replayed v m index ciphertext page) (replayed v m' index ciphertext page) := by
  intro a ha
  unfold Crypt.replayed
  by_cases hpage : a = v.pageLba index
  · rw [hpage, update_self, update_self]
  rw [update_of_ne hpage, update_of_ne hpage]
  by_cases hsector : a = v.sectorLba index
  · rw [hsector, update_self, update_self]
  · rw [update_of_ne hsector, update_of_ne hsector]
    exact h a ha

/-- The medium is recoverable to the data it has. -/
structure AtRest (v : Volume) (m base : Disk Block) : Prop where
  recoverable : Recoverable v m base
  data : SameData v m base

theorem Clean.atRest (h : Clean v m) (hsame : SameData v m base) : AtRest v m base :=
  ⟨h.recoverable hsame, hsame⟩

theorem emptied_emptyAt (hrdy : Ready v m) : EmptyAt v (emptied v m copy) copy := by
  unfold EmptyAt emptied
  rw [update_self]
  exact emptyJournal_valid hrdy.epoch

theorem emptied_sameData (hcopy : copy < 2) : SameData v (emptied v m copy) m :=
  sameData_update ⟨Nat.le_add_right .., by omega⟩ m _

/-- **Making a descriptor empty** keeps what recovery brings back. -/
theorem AtRest.emptied (h : AtRest v m base) (hcopy : copy < 2) : AtRest v (emptied v m copy) base := by
  have hrdy : Ready v (Crypt.emptied v m copy) := h.recoverable.ready.of_sameData (emptied_sameData hcopy)
  have hdata : SameData v (Crypt.emptied v m copy) base := (emptied_sameData hcopy).trans h.data
  have hnil : EmptyAt v (Crypt.emptied v m copy) copy := emptied_emptyAt h.recoverable.ready
  -- the other copy is as it was, and decides
  have hoth : ∀ other < 2, other ≠ copy → (ValidAt v (Crypt.emptied v m copy) other ↔ ValidAt v m other) := by
    intro other hlt hne
    unfold ValidAt
    rw [emptied_other hne, emptied_other (by omega), emptied_other (by omega)]
  refine ⟨?_, hdata⟩
  by_cases hval : ∃ other < 2, other ≠ copy ∧ ValidAt v m other
  · obtain ⟨other, hlt, hne, hval⟩ := hval
    cases h.recoverable with
    | idle _ _ hnone _ => exact absurd hval (hnone other hlt)
    | pending _ index hpend hbase =>
      have honly : ∀ k < 2, ValidAt v (Crypt.emptied v m copy) k → k = other := by
        intro k hk hk'
        by_contra hdiffers
        obtain rfl : k = copy := by omega
        exact hnil.not_valid hk'
      have hnow := (hoth other hlt hne).mpr hval
      refine .pending hrdy index ⟨?_, ?_, ?_⟩ ?_
      · exact or_of_copy hlt hnow
      · intro k hk hk'
        obtain rfl := honly k hk hk'
        rw [emptied_other hne]
        exact hpend.index k hlt hval
      · intro hfst hsec
        have h0 := honly 0 (by decide) hfst
        have h1 := honly 1 (by decide) hsec
        omega
      · rw [emptied_other (by omega), emptied_other (by omega)]
        exact ((emptied_sameData hcopy).replayed index _ _).trans hbase
  refine .idle hrdy ?_ ?_ hdata
  · exact or_of_copy hcopy hnil
  intro k hk hk'
  by_cases hne : k = copy
  · subst hne
    exact hnil.not_valid hk'
  · exact hval ⟨k, hk, hne, (hoth k hk hne).mp hk'⟩

end

/-! ## §3. Stages. -/

/-- Every image is recoverable to `base`. -/
def Safe (v : Volume) (base m : Disk Block) (writes : List (Nat × Block)) : Prop :=
  ∀ m', Lands m writes m' → Recoverable v m' base

section
variable {v : Volume} {m base base' : Disk Block} {index copy : Nat}

theorem safe_nil (h : Recoverable v m base) : Safe v base m [] := by
  intro m' hlands
  rw [hlands.eq]
  exact h

/-- A write between two recoverable media is safe. -/
theorem writeStages_safe {a : Nat} {b : Block} (h : Recoverable v m base)
    (h' : Recoverable v (update m a b) base) : Through (Safe v base) (writeStages m a b) := by
  refine through_writeStages.mpr ⟨safe_nil h, fun m' hlands => ?_⟩
  rcases hlands.single with rfl | rfl
  · exact h
  · exact h'

theorem Safe.trans {writes : List (Nat × Block)} (h : Safe v base m writes) (hsame : SameData v base base') :
    Safe v base' m writes := fun m' hlands => (h m' hlands).trans hsame

theorem cleared_clean (hrdy : Ready v m) : Clean v (cleared v m) := by
  have hrdy' : Ready v (emptied v m 0) := hrdy.of_sameData (emptied_sameData (by decide))
  refine ⟨hrdy'.of_sameData (emptied_sameData (by decide)), fun copy hcopy => ?_⟩
  rcases (by omega : copy = 1 ∨ copy = 0) with rfl | rfl
  · exact emptied_emptyAt hrdy'
  have hfst : EmptyAt v (emptied v m 0) 0 := emptied_emptyAt hrdy
  unfold EmptyAt cleared at *
  rw [emptied_other (by decide)]
  exact hfst

theorem cleared_sameData : SameData v (cleared v m) m :=
  (emptied_sameData (by decide)).trans (emptied_sameData (by decide))

/-- **Clearing the journal** of a medium at rest. -/
theorem clearStages_safe (hrest : AtRest v m base) : Through (Safe v base) (clearStages v m) := by
  have hfst := hrest.emptied (by decide : 0 < 2)
  have hsec := hfst.emptied (by decide : 1 < 2)
  exact through_append.mpr ⟨writeStages_safe hrest.recoverable hfst.recoverable,
    writeStages_safe hfst.recoverable hsec.recoverable⟩

/-- A medium with the same journal and state is recoverable by the same replay. -/
theorem recoverable_of_replayed {m' : Disk Block} {ciphertext page : Block} (hrdy : Ready v m)
    (hpend : PendingAt v m index) (hcipher : m (v.journalFirst + 2) = ciphertext)
    (hpage : m (v.journalFirst + 3) = page)
    (hbef : ∀ a, a < v.journalFirst + 4 → m' a = m a)
    (hreplayed : replayed v m' index ciphertext page = base) : Recoverable v m' base := by
  refine .pending (hrdy.of_state fun a _ hlt => hbef a (by omega)) index
    (hpend.congr fun a ha => hbef a ha.2) ?_
  rw [hbef _ (by omega), hbef _ (by omega), hcipher, hpage, hreplayed]
  exact SameData.refl v base

/-- **Applying the journal** of a pending descriptor. -/
theorem applyStages_safe {ciphertext page : Block} (hrdy : Ready v m) (hpend : PendingAt v m index)
    (hcipher : m (v.journalFirst + 2) = ciphertext)
    (hpage : m (v.journalFirst + 3) = page) :
    Through (Safe v (replayed v m index ciphertext page)) (applyStages v m index ciphertext page) := by
  obtain ⟨hbehind, hbtw, hsector, -⟩ := places hrdy.layout hpend.index_lt
  -- with the sector, or sector and page, in place, the replay ends the same
  have hreplay {m' : Disk Block} (hbef : ∀ a, a < v.journalFirst + 4 → m' a = m a)
      (hreplayed : replayed v m' index ciphertext page = replayed v m index ciphertext page) :=
    recoverable_of_replayed hrdy hpend hcipher hpage hbef hreplayed
  have hstart : Recoverable v m (replayed v m index ciphertext page) := hreplay (fun _ _ => rfl) rfl
  have hmiddle : Recoverable v (update m (v.sectorLba index) ciphertext)
      (replayed v m index ciphertext page) := by
    refine hreplay (fun a ha => update_of_ne (by omega) ..) ?_
    unfold replayed
    rw [update_idem]
  have hend : Recoverable v (replayed v m index ciphertext page) (replayed v m index ciphertext page) := by
    refine hreplay (fun a ha => replayed_before hrdy.layout hpend.index_lt m _ _ ha) ?_
    unfold replayed
    rw [update_comm (by omega : v.pageLba index ≠ v.sectorLba index), update_idem, update_idem]
  refine through_append.mpr ⟨through_append.mpr ⟨writeStages_safe hstart hmiddle, ?_⟩, ?_⟩
  · exact writeStages_safe hmiddle hend
  · exact clearStages_safe ⟨hend, SameData.refl v _⟩

theorem AtRest.repaired (h : AtRest v m base) (hcopy : copy < 2) : AtRest v (repaired v m copy) base := by
  unfold Crypt.repaired
  split
  · exact h
  · exact h.emptied hcopy

theorem repaired_emptyAt (hrdy : Ready v m) : EmptyAt v (repaired v m copy) copy := by
  unfold repaired
  split
  · assumption
  · exact emptied_emptyAt hrdy

/-- **Repairing** a copy of a medium at rest. -/
theorem repairStages_safe (h : AtRest v m base) (hcopy : copy < 2) :
    Through (Safe v base) (repairStages v m copy) := by
  unfold repairStages
  split
  · exact through_nil
  · exact writeStages_safe h.recoverable (h.emptied hcopy).recoverable

/-- What recovery leaves is clean, and has the data of `base`. -/
theorem Recoverable.outcome (h : Recoverable v m base) :
    Accepted v m ∧ Clean v (recovered v m) ∧ SameData v (recovered v m) base ∧
      Through (Safe v base) (recoverStages v m) := by
  have hchosen := chosenCopy_spec v m
  unfold recovered recoverStages
  cases h with
  | idle hrdy hnil hnone hdata =>
    have hrest : AtRest v m base := ⟨.idle hrdy hnil hnone hdata, hdata⟩
    have hfst := hrest.repaired (by decide : 0 < 2)
    have hsec := hfst.repaired (by decide : 1 < 2)
    cases hcase : chosenCopy v m with
    | some copy =>
      rw [hcase] at hchosen
      exact absurd hchosen.2 (hnone copy hchosen.1)
    | none =>
      dsimp only
      refine ⟨⟨?_, fun hval => absurd hval (hnone 0 (by decide))⟩, ⟨hsec.recoverable.ready, ?_⟩,
        hsec.data, through_cons.mpr ⟨safe_nil hrest.recoverable, through_append.mpr
          ⟨repairStages_safe hrest (by decide), repairStages_safe hfst (by decide)⟩⟩⟩
      · rcases hnil with hnil | hnil
        · exact ⟨0, by decide, Or.inl hnil⟩
        · exact ⟨1, by decide, Or.inl hnil⟩
      intro copy hcopy
      rcases (by omega : copy = 1 ∨ copy = 0) with rfl | rfl
      · exact repaired_emptyAt hfst.recoverable.ready
      have hnil := @repaired_emptyAt v m 0 hrdy
      unfold EmptyAt at *
      rw [repaired_other (by decide)]
      exact hnil
  | pending hrdy index hpend hdata =>
    cases hcase : chosenCopy v m with
    | none =>
      rw [hcase] at hchosen
      rcases hpend.some with hval | hval
      · exact absurd hval (hchosen 0 (by decide))
      · exact absurd hval (hchosen 1 (by decide))
    | some copy =>
      rw [hcase] at hchosen
      have hidx : indexAt v m copy = index := hpend.index copy hchosen.1 hchosen.2
      dsimp only
      rw [hidx]
      refine ⟨⟨⟨copy, hchosen.1, Or.inr hchosen.2⟩, hpend.same⟩, cleared_clean (hrdy.replayed hpend.index_lt _ _),
        cleared_sameData.trans hdata, through_cons.mpr ⟨safe_nil (.pending hrdy index hpend hdata), ?_⟩⟩
      exact (applyStages_safe hrdy hpend rfl rfl).mono fun _ _ hsafe => hsafe.trans hdata

/-- An accepted journal is recoverable, to what recovery leaves. -/
theorem Accepted.recoverable (h : Accepted v m) (hrdy : Ready v m) : Recoverable v m (recovered v m) := by
  have hchosen := chosenCopy_spec v m
  unfold recovered
  cases hcase : chosenCopy v m with
  | none =>
    rw [hcase] at hchosen
    have hnone : ∀ copy < 2, ¬ ValidAt v m copy := hchosen
    have hrest : AtRest v m m := by
      exact ⟨.idle hrdy (h.empty_of_none hnone) hnone (SameData.refl v m), SameData.refl v m⟩
    exact hrest.recoverable.trans ((hrest.repaired (by decide)).repaired (by decide)).data.symm
  | some copy =>
    rw [hcase] at hchosen
    obtain ⟨hcopy, hval⟩ := hchosen
    refine .pending hrdy (indexAt v m copy) ⟨?_, ?_, h.same⟩ cleared_sameData.symm
    · exact or_of_copy hcopy hval
    intro other hoth hval'
    by_cases hne : other = copy
    · rw [hne]
      rfl
    -- two valid copies are the same
    have hsame : m (v.journalFirst + other) = m (v.journalFirst + copy) := by
      rcases (by omega : other = 0 ∧ copy = 1 ∨ other = 1 ∧ copy = 0) with ⟨rfl, rfl⟩ | ⟨rfl, rfl⟩
      · exact h.same hval' hval
      · exact (h.same hval hval').symm
    rw [hsame]
    rfl

/-- **Recovery brings a recoverable medium to its data**, with a clean journal. -/
theorem Recoverable.recovers (h : Recoverable v m base) : ∃ m', Recovers v m m' ∧ SameData v m' base := by
  obtain ⟨hacc, -, hsame, -⟩ := h.outcome
  exact ⟨recovered v m, hacc.recovers h.ready, hsame⟩

/-- **Recovery leaves a clean volume as it is.** -/
theorem Clean.recovered_eq (h : Clean v m) : recovered v m = m := by
  have hfst : EmptyAt v m 0 := h.empty 0 (by decide)
  have hsec : EmptyAt v m 1 := h.empty 1 (by decide)
  unfold recovered chosenCopy
  rw [if_neg hfst.not_valid, if_neg hsec.not_valid]
  unfold repaired
  rw [if_pos hfst, if_pos hsec]

end
end RinRuntime.Crypt
