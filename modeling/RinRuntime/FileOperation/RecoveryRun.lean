/-
FileOperation.RecoveryRun — driving a recovery until it ends.

A restored operation can only be recovered: `retry_recovery` starts the rollback and `pump` drives it.
`RollsBack` collects what a rollback step has to promise; from it, every state of a recovery is
`Recovering`, and a call that ends the recovery leaves what the steps promise.

In the last section an entry in one of the two undo states is `Stuck`: no rollback that meets one ends.
-/
import RinRuntime.FileOperation.ReplaceRollback

namespace RinRuntime.FileOperation
open Lib Exec

/-! ## §1. Recoveries. -/
section
variable {W : Type} (B : Backend W)

/-- **What one rollback step has to promise** for a recovery to be sound. -/
structure RollsBack (Roll Done : State W → Prop) : Prop where
  rollback : ∀ s, Roll s →
    wp (rollbackStep B)
      (fun more s' => Roll s' ∧ s'.op.core = s.op.core ∧ (more = false → Done s'))
      (fun _ s' => Roll s' ∧ s'.op.core = s.op.core) s
  retry : ∀ s, Roll s → Roll { s with op := s.op.clampRollback }
  flags : ∀ s a b c d, Roll s → Roll { s with op := s.op.withFlags a b c d }
  skip : ∀ s i skip, Roll s → Roll { s with op := s.op.withSkip i skip }
  done_flags : ∀ s a b c d, Done s → Done { s with op := s.op.withFlags a b c d }

/-- A recovery waits for `retry_recovery`, is being rolled back, or has ended. -/
inductive Recovering (Roll : State W → Prop) (s : State W) : Prop
  | rolling (hflags : s.op.active = true ∧ s.op.rollbackActive = true ∨
      s.op.active = false ∧ s.op.recoveryRequired = true) (h : Roll s)
  | ended (hact : s.op.active = false) (hrec : s.op.recoveryRequired = false)

end
section
variable {W : Type} {B : Backend W} {Roll Done : State W → Prop} (hR : RollsBack B Roll Done)
  {s : State W}
include hR

theorem settleRollback_recovers {finished : Operation → Result} (hact : s.op.active = true)
    (hrollback : s.op.rollbackActive = true) (h : Roll s) :
    Recovering Roll (settleRollback B finished s).2 ∧ ((settleRollback B finished s).1 ≠ .inProgress →
        (settleRollback B finished s).1 ≠ .rollbackFailed → Done (settleRollback B finished s).2) := by
  have hstep := hR.rollback s h
  unfold settleRollback
  rcases hrun : rollbackStep B s with ⟨_ | more, s'⟩
  · obtain ⟨hroll, -⟩ := wp_error hstep hrun
    refine ⟨.rolling (Or.inr ⟨rfl, rfl⟩) (hR.flags s' _ _ _ _ hroll), fun _ hne => ?_⟩
    exact absurd rfl hne
  obtain ⟨hroll, hcore, hdone⟩ := wp_ok hstep hrun
  cases more with
  | true =>
    refine ⟨.rolling (Or.inl ⟨?_, ?_⟩) hroll, fun hne _ => absurd rfl hne⟩
    · exact (congrArg Core.active hcore).trans hact
    · exact (congrArg Core.rollbackActive hcore).trans hrollback
  | false =>
    refine ⟨.ended rfl rfl, fun _ _ => ?_⟩
    exact hR.done_flags s' false false false s'.op.cancelRequested (hdone rfl)

/-- **What an accepted call of a recovery does.** -/
theorem accepted_recovers {command : Command} (h : Recovering Roll s) (hacc : Accepted B command s) :
    Recovering Roll (step B command s).2 ∧
      ((step B command s).1 ≠ .inProgress → (step B command s).1 ≠ .rollbackFailed →
        Done (step B command s).2) := by
  have hcases := step_cases B command s
  generalize step B command s = p at hcases ⊢
  cases hcases with
  | refused h => exact absurd hacc h
  | cancelled _ => exact hacc.elim
  | skipped _ _ => exact hacc.elim
  | pumped hact =>
    cases h with
    | ended hinact _ => cases hinact.symm.trans hact
    | rolling hflags hroll =>
      rcases hflags with ⟨_, hrollback⟩ | ⟨hinact, _⟩
      · rw [pump_of_rollback B hact hrollback]
        exact settleRollback_recovers hR hact hrollback hroll
      · cases hinact.symm.trans hact
  | retried hretry =>
    cases h with
    | ended _ hno => cases hno.symm.trans hretry.2.1
    | rolling _ hroll => exact settleRollback_recovers hR rfl rfl (hR.flags _ _ _ _ _ (hR.retry s hroll))

/-- **Every command** leads from a recovery to a recovery. -/
theorem step_recovering (command : Command) (h : Recovering Roll s) :
    Recovering Roll (step B command s).2 := by
  by_cases hacc : Accepted B command s
  · exact (accepted_recovers hR h hacc).1
  have hcases := step_cases B command s
  generalize step B command s = p at hcases ⊢
  cases hcases with
  | refused _ => exact h
  | pumped h => exact absurd h hacc
  | retried h => exact absurd h hacc
  | cancelled hact =>
    cases h with
    | ended hinact _ => cases hinact.symm.trans hact
    | rolling hflags hroll => exact .rolling hflags (hR.flags s _ _ _ true hroll)
  | skipped i skip =>
    cases h with
    | ended hact hrec => exact .ended hact hrec
    | rolling hflags hroll => exact .rolling hflags (hR.skip s i skip hroll)

/-- **Every state of a recovery.** -/
theorem recovering_of_reaches {allowed : Command → State W → Prop} {s0 : State W}
    (h0 : Recovering Roll s0) (h : Reaches B allowed s0 s) : Recovering Roll s := by
  induction h with
  | refl => exact h0
  | step command _ _ ih => exact step_recovering hR command ih

/-- **A call that ends a recovery** ends it as the rollback steps promise. -/
theorem recovery_finished {allowed : Command → State W → Prop} {s0 : State W}
    (h0 : Recovering Roll s0) (h : Reaches B allowed s0 s) {command : Command}
    (hacc : Accepted B command s) (hgoes : (step B command s).1 ≠ .inProgress)
    (hfail : (step B command s).1 ≠ .rollbackFailed) : Done (step B command s).2 :=
  (accepted_recovers hR (recovering_of_reaches hR h0 h) hacc).2 hgoes hfail

end

/-- Layers over the names at the start can be taken off. -/
theorem rolling_rollsBack {W : Type} {B : Backend W} {view : W → View} (hB : Lawful view B)
    (N0 : Names) : RollsBack B (Rolling view N0) (Undone view N0) where
  rollback s h := rollbackStep_undone hB h
  retry s h := by
    rw [Operation.clampRollback_eq h.index_le]
    exact h
  flags s a b c d h := h.withFlags a b c d
  skip s i skip h := h.withSkip i skip
  done_flags s a b c d h := { h with }

/-! ## §2. Entries that stop a rollback. -/

/-- The states only `file_operation_pump_replace_undo` works on. -/
def ReplacementState.undo : ReplacementState → Bool
  | .undoRemoveInProgress | .undoRestoreInProgress => true
  | _ => false

/-- An entry that a rollback cannot get past. -/
structure StuckEntry (e : Entry) : Prop where
  undo : e.replacementState.undo = true
  applied : e.applied = false
  token : e.created = true ∨ identityHasToken e.objectIdentity = false

/-- The rollback still has to get past entry `i`. -/
structure Stuck (i : Nat) (op : Operation) : Prop where
  index : i < op.rollbackIndex
  entry : StuckEntry (op.entry i)

theorem StuckEntry.lt_count {op : Operation} {i : Nat} (h : StuckEntry (op.entry i)) :
    i < op.entryCount := by
  by_contra hge
  have hundo := h.undo
  rw [entry_of_count_le (Nat.le_of_not_lt hge)] at hundo
  cases hundo

theorem StuckEntry.replaced {e : Entry} (h : StuckEntry e) : e.replacementState ≠ .none := by
  intro hnone
  have hundo := h.undo
  rw [hnone] at hundo
  cases hundo

section
variable {W : Type} {B : Backend W} {i : Nat} {s : State W}

/-- The rollback does not get past entry `i`. -/
def StuckAt (i : Nat) (s : State W) : Prop := Stuck i s.op

theorem stuckAt_calls : CallsKeep B (StuckAt i) := CallsKeep.of_record fun _ _ h => h

theorem stuckAt_removal : RemovalKeeps B (StuckAt i) := by
  intro _ _ _ directory path id s h hR
  rw [wp_askRecorded]
  exact ⟨h, hR⟩

theorem Stuck.setEntry {op : Operation} {k : Nat} (h : Stuck i op) (hik : i ≠ k) (f : Entry → Entry) :
    Stuck i (op.setEntry k f) := by
  refine ⟨h.index, ?_⟩
  rw [Operation.entry_setEntry_ne hik]
  exact h.entry

/-- An entry above the stuck one is done with. -/
theorem CallsKeep.BackChange.stuck {k : Nat} {c : Operation → Prop} {f : Operation → Operation}
    (hchg : BackChange k c f) {op : Operation} (h : Stuck i op) (hik : i < k)
    (hidx : op.rollbackIndex = k + 1) : Stuck i (f op) := by
  have hback : ∀ {op'}, Stuck i op' → op'.rollbackIndex = k + 1 → Stuck i (FileOperation.stepBack op') := by
    intro op' h' hidx'
    refine ⟨?_, h'.entry⟩
    show i < op'.rollbackIndex - 1
    omega
  cases hchg with
  | undone => exact hback (h.setEntry (Nat.ne_of_lt hik) _) hidx
  | passed =>
    dsimp only
    split
    · exact hback h hidx
    · exact h
  | stepBack => exact hback h hidx

/-- The object an undo was about to remove is removed, but the entry stays in its undo state. -/
theorem rollbackCreated_stuck :
    Guides (StuckAt i) (fun _ => True) (fun op : Operation => (op.entry i).created = true)
      (rollbackCreated B i) (fun _ => AnyRecord) := by
  have hset : ∀ (g : Entry → Entry), (∀ e, (g e).replacementState = e.replacementState ∧
      (g e).applied = e.applied ∧ (g e).created = e.created) →
      Turns (W := W) (StuckAt i) (fun op => (op.entry i).created = true) (fun op => op.setEntry i g)
        (fun op => (op.entry i).created = true) := by
    intro g hg s h hcre
    dsimp only
    refine ⟨⟨h.index, ?_⟩, ?_⟩ <;> rw [Operation.entry_setEntry_self h.entry.lt_count]
    · exact ⟨by rw [(hg _).1]; exact h.entry.undo, by rw [(hg _).2.1]; exact h.entry.applied,
        Or.inl (by rw [(hg _).2.2]; exact hcre)⟩
    · rw [(hg _).2.2]
      exact hcre
  have hclean : ∀ path directory, Guides (StuckAt i) (fun _ => True)
      (fun op : Operation => (op.entry i).created = true) (cleanupCreatedPath B path directory (.entry i))
      (fun _ op => (op.entry i).created = true) := by
    intro path directory
    refine (stuckAt_calls.cleanupCreatedPath stuckAt_removal path directory _ fun f h => ?_).mono
      fun _ _ h => h.1
    cases h with
    | cleanup | identity => exact hset _ fun _ => ⟨rfl, rfl, rfl⟩
    | pending =>
      intro s h hcre
      dsimp only
      split
      · exact hset (fun e => { e with cleanupState := .removePending }) (fun _ => ⟨rfl, rfl, rfl⟩) s h hcre
      · exact ⟨h, hcre⟩
  refine .readAny fun op => .seq (hclean _ _) (.seq (.update (S := AnyRecord) fun s h _ => ⟨?_, trivial⟩) ?_)
  · refine ⟨h.index, ?_⟩
    rw [Operation.entry_setEntry_self h.entry.lt_count]
    exact ⟨h.entry.undo, h.entry.applied, Or.inr identityHasToken_zero⟩
  refine .seq stuckAt_calls.checkpointKept (.update fun s h _ => ⟨?_, trivial⟩)
  show Stuck i (if (s.op.entry i).replacementState = .none then stepBack s.op else s.op)
  rw [if_neg h.entry.replaced]
  exact h

/-- The replacement of an entry in an undo state is not restored. -/
theorem restoreReplacement_stuck (h : Stuck i s.op) :
    wp (restoreReplacement B i) (fun _ _ => False) (fun _ s' => Stuck i s'.op) s := by
  have hundo := h.entry.undo
  have hbackup : (s.op.entry i).replacementState ≠ .backupInProgress := by
    intro heq
    rw [heq] at hundo
    cases hundo
  have hrest : ¬ ((s.op.entry i).replacementState = .publishInProgress ∨
      (s.op.entry i).replacementState = .backupHeld) := by
    rintro (heq | heq) <;> rw [heq] at hundo <;> cases hundo
  have hres : (s.op.entry i).replacementState ≠ .restoreInProgress := by
    intro heq
    rw [heq] at hundo
    cases hundo
  unfold restoreReplacement restoreFromBackup
  simp only [wp_bind, wp_getOp, wp_update, wp_require, wp_ite, wp_ask]
  refine ⟨fun _ => ⟨fun _ => ⟨fun heq => absurd heq hbackup, fun _ => ?_⟩, fun _ => h⟩, fun _ => h⟩
  rw [if_neg hrest]
  exact ⟨fun heq => absurd heq hres, fun _ => h⟩

/-- The entry loop does not get past a stuck entry. -/
theorem rollbackEntries_stuck : ∀ index, Guides (StuckAt i) (fun _ => True)
    (fun op : Operation => op.rollbackIndex = index) (rollbackEntries B index) (fun more _ => more = true)
  | 0 => by
    intro s h hidx
    have hlt := h.index
    omega
  | k + 1 => by
    have hacts : ∀ {R : Operation → Prop} {x : Exec Unit (State W) Unit},
        Guides (StuckAt i) (fun _ => True) R x (fun _ => AnyRecord) →
        Guides (StuckAt i) (fun _ => True) R (acted x) (fun more _ => more = true) :=
      fun h => .seq h fun s hs _ => ⟨hs, rfl⟩
    rcases Nat.lt_trichotomy i k with hik | rfl | hki
    · -- an entry above the stuck one
      have hback : Turns (W := W) (StuckAt i) (fun op : Operation => op.rollbackIndex = k + 1) stepBack
          (fun op => op.rollbackIndex = k) := by
        intro s h hidx
        refine ⟨CallsKeep.BackChange.stepBack.stuck h hik hidx, ?_⟩
        show s.op.rollbackIndex - 1 = k
        omega
      refine stuckAt_calls.rollbackEntries_succ (S := AnyRecord) (fun c f hchg s h hR => ?_)
        (fun c f hchg s h hR => ⟨hchg.stuck h hik hR.1, trivial⟩) (fun _ _ => trivial) stuckAt_removal
        (fun _ _ => rfl) hback (rollbackEntries_stuck k)
      obtain ⟨g, hg⟩ := hchg.setEntry s.op
      unfold StuckAt
      rw [hg]
      exact ⟨Stuck.setEntry h (Nat.ne_of_lt hik) g, hR.1⟩
    · -- the stuck entry itself
      refine .read fun s h _ => .ite (fun hc => .known hc (hacts rollbackCreated_stuck)) fun hc => ?_
      refine .ite (fun ht => ?_) fun _ => .ite (fun ha => ?_) fun _ => ?_
      · rcases h.entry.token with hc' | ht'
        · exact absurd hc' hc
        · rw [ht] at ht'
          cases ht'
      · rw [h.entry.applied] at ha
        cases ha
      · refine .ite (fun _ => hacts fun s h _ => ?_) fun hr => absurd h.entry.replaced hr
        exact wp_mono (restoreReplacement_stuck h) (fun _ _ h' => h'.elim) fun _ _ h' => ⟨trivial, h'⟩
    intro s h hidx
    have hlt := h.index
    omega

/-- **A rollback step** does not get past a stuck entry. -/
theorem rollbackStep_stuck : Guides (StuckAt i) (fun _ => True) AnyRecord (rollbackStep B)
    (fun more _ => more = true) := by
  have hoff : ∀ {f : Operation → Operation}, (∀ op, Stuck i op → Stuck i (f op)) →
      Turns (W := W) (StuckAt i) AnyRecord f AnyRecord := fun hf s h _ => ⟨hf s.op h, trivial⟩
  have hslot : ∀ f, CallsKeep.SlotChange .temporary f → Turns (W := W) (StuckAt i) AnyRecord f AnyRecord := by
    intro f hchg
    refine hoff fun op h => ?_
    cases hchg with
    | cleanup | identity => exact ⟨h.index, h.entry⟩
    | pending =>
      dsimp only
      split
      · exact ⟨h.index, h.entry⟩
      · exact h
  refine .bind (stuckAt_calls.closeFiles (fun f hchg => hoff fun op h => ?_) (hoff fun op h => ?_))
    fun _ => .test (.read fun s _ _ => .ite (fun _ => .known (R := AnyRecord) trivial ?_) fun _ => ?_)
  · cases hchg <;> exact ⟨h.index, h.entry⟩
  · exact ⟨h.index, h.entry⟩
  · refine .seq (Q := AnyRecord) (.readAny fun op => ?_) fun s h _ => ⟨h, rfl⟩
    refine .seq (stuckAt_calls.cleanupCreatedPath stuckAt_removal _ _ _ hslot) ?_
    exact .seq (.update fun s h _ => ⟨⟨h.index, h.entry⟩, trivial⟩) stuckAt_calls.checkpointKept
  · exact (rollbackEntries_stuck _).weaken fun _ heq => by rw [heq]

end

/-- **A stuck recovery never ends.** -/
theorem stuck_rollsBack {W : Type} {B : Backend W} {view : W → View} (hB : Lawful view B) (i : Nat) :
    RollsBack B (fun s => Stuck i s.op) (fun _ => False) where
  rollback s h := by
    refine wp_mono (wp_and (rollbackStep_stuck (B := B) s h trivial)
      (rollbackStep_kept hB s (Kept.refl s))) ?_ ?_
    · rintro more s' ⟨⟨hstuck, hmore⟩, hkept⟩
      refine ⟨hstuck, hkept.record.core, fun hfalse => ?_⟩
      rw [hmore] at hfalse
      cases hfalse
    · rintro _ s' ⟨⟨_, hstuck⟩, _, hkept⟩
      exact ⟨hstuck, hkept.record.core⟩
  retry s h := ⟨Nat.lt_min.mpr ⟨h.index, h.entry.lt_count⟩, h.entry⟩
  flags s a b c d h := ⟨h.index, h.entry⟩
  skip s k skip h := ⟨h.index, Operation.withSkip_entry (P := StuckEntry)
    (fun _ _ h => { h with }) h.entry k skip⟩
  done_flags _ _ _ _ _ h := h

end RinRuntime.FileOperation
